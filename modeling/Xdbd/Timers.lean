import Mathlib

/-!
# Timers

`xdbd_timer.c` and `xdbd_times.c`: pending timers in a tree that is ordered by their times, and the
millisecond clock of 32 bits from which the times are made. As the clock wraps, a time does not tell
on its own when it is due.
-/
namespace Residue

variable {α : Type} {a b n : ℕ}

/-- Two numbers less than `n` apart are ordered as their residues are, exactly if no multiple of `n`
comes between them. -/
theorem mod_lt_mod_iff (hab : a < b) (hn : b < a + n) : a % n < b % n ↔ a / n = b / n := by
  have hpos : 0 < n := by omega
  have ha := Nat.div_add_mod a n
  have hb := Nat.div_add_mod b n
  constructor
  · intro hlt
    by_contra hne
    have hle : a / n + 1 ≤ b / n := lt_of_le_of_ne (Nat.div_le_div_right hab.le) hne
    have hmul : n * (a / n) + n ≤ n * (b / n) := Nat.mul_le_mul_left n hle
    omega
  · intro hq
    rw [hq] at ha
    omega

/-- Among numbers less than `n` apart, one with the least residue is the least one, exactly if no
multiple of `n` comes between any two of them. -/
theorem least_iff {d : α → ℕ} {l : List α} (hnear : ∀ x ∈ l, ∀ y ∈ l, d y < d x + n) {x : α}
    (hx : x ∈ l) (hleast : ∀ y ∈ l, d x % n ≤ d y % n) :
    (∀ y ∈ l, d x ≤ d y) ↔ ∀ y ∈ l, ∀ z ∈ l, d y / n = d z / n := by
  constructor
  · intro hmin
    have hsame : ∀ y ∈ l, d x / n = d y / n := fun y hy => by
      rcases (hmin y hy).eq_or_lt with heq | hlt
      · rw [heq]
      · refine (mod_lt_mod_iff hlt (hnear x hx y hy)).mp
          (lt_of_le_of_ne (hleast y hy) fun hmod => ?_)
        have hdiv : n ∣ d y - d x := (Nat.modEq_iff_dvd' hlt.le).mp hmod
        have hle := Nat.le_of_dvd (by omega) hdiv
        have := hnear x hx y hy
        omega
    exact fun y hy z hz => (hsame y hy).symm.trans (hsame z hz)
  · intro hsame y hy
    have hdx := Nat.div_add_mod (d x) n
    have hdy := Nat.div_add_mod (d y) n
    rw [hsame x hx y hy] at hdx
    have := hleast y hy
    omega

end Residue

namespace Xdbd

/-! ## The clock -/

structure Timespec where
  tvSec : ℕ
  tvNsec : ℕ
  deriving DecidableEq, Repr

/-- The milliseconds that `CLOCK_MONOTONIC` has counted. -/
def Timespec.elapsed (ts : Timespec) : ℕ := ts.tvSec * 1000 + ts.tvNsec / 1000000

/-- `xdbd_monotonic_time`; the sum is cut off to an `xdbd_msec_t`. -/
def monotonicTime (ts : Timespec) : UInt32 :=
  UInt32.ofNat ts.tvSec * 1000 + UInt32.ofNat (ts.tvNsec / 1000000)

lemma monotonicTime_toNat (ts : Timespec) : (monotonicTime ts).toNat = ts.elapsed % 2^32 := by
  simp [monotonicTime, Timespec.elapsed, Nat.add_mod, Nat.mul_mod]

/-! ## The tree -/

/-- A cached red-black tree, with its nodes from left to right: an insertion keeps them in the order
given by the comparator, and the first entry is the leftmost node. -/
structure RbTree (α τ : Type) [DecidableEq α] where
  empty : τ
  insert : (α → α → ℤ) → τ → α → τ
  remove : τ → α → τ
  first : τ → Option α
  toList : τ → List α
  toList_empty : toList empty = []
  perm_insert : ∀ (cmp : α → α → ℤ) (t : τ) (x : α), (toList (insert cmp t x)).Perm (x :: toList t)
  sorted_insert : ∀ {cmp : α → α → ℤ} {key : α → ℕ} {t : τ} (x : α),
    (∀ a b, cmp a b < 0 ↔ key a < key b) → (toList t).Pairwise (fun a b => key a ≤ key b) →
      (toList (insert cmp t x)).Pairwise fun a b => key a ≤ key b
  toList_remove : ∀ {t : τ} {x : α}, x ∈ toList t → toList (remove t x) = (toList t).erase x
  first_eq : ∀ t, first t = (toList t).head?

/-- `struct xdbd_timer_s`, where `node` stands for its address. -/
structure Timer where
  node : ℕ
  time : UInt32
  deriving DecidableEq, Repr

/-- `timer_cmp`, with the values of `BFDEV_LT` and `BFDEV_BT`. -/
def timerCmp (node1 node2 : Timer) : ℤ := if node1.time < node2.time then -1 else 1

lemma timerCmp_neg (a b : Timer) : timerCmp a b < 0 ↔ a.time.toNat < b.time.toNat := by
  unfold timerCmp
  split_ifs with h <;> simp_all [UInt32.lt_iff_toNat_lt]

section
variable {τ : Type} (T : RbTree Timer τ)

def firstTimer (timers : τ) : Option Timer := T.first timers

def addTimer (timers : τ) (timer : Timer) : τ := T.insert timerCmp timers timer

def removeTimer (timers : τ) (timer : Timer) : τ := T.remove timers timer

/-! ## Runs -/

/-- A pending timer, with the time of its insertion and its delay. -/
structure Pending where
  timer : Timer
  inserted : ℕ
  delay : ℕ
  deriving DecidableEq, Repr

def Pending.deadline (p : Pending) : ℕ := p.inserted + p.delay

/-- The clock, `xdbd_current_msec`, `xdbd_timers`, and the timers that are pending. -/
structure TimerState (τ : Type) where
  clock : Timespec
  currentMsec : UInt32
  timers : τ
  pending : List Pending

namespace TimerState

def timeUpdate (s : TimerState τ) : TimerState τ := { s with currentMsec := monotonicTime s.clock }

/-- A timer is added that is due `delay` milliseconds from now. -/
def add (s : TimerState τ) (node delay : ℕ) : TimerState τ :=
  let s := s.timeUpdate
  let timer : Timer := ⟨node, s.currentMsec + UInt32.ofNat delay⟩
  { s with
    timers := addTimer T s.timers timer
    pending := ⟨timer, s.clock.elapsed, delay⟩ :: s.pending }

def remove (s : TimerState τ) (p : Pending) : TimerState τ :=
  { s with timers := removeTimer T s.timers p.timer, pending := s.pending.erase p }

/-- The first timer is pending, and no other one is due before it. -/
def FirstEarliest (s : TimerState τ) : Prop :=
  match firstTimer T s.timers with
  | none => s.pending = []
  | some t => ∃ p ∈ s.pending, p.timer = t ∧ ∀ q ∈ s.pending, p.deadline ≤ q.deadline

/-- All pending timers were inserted less than 2^30 milliseconds ago. -/
def Recent (s : TimerState τ) : Prop := ∀ p ∈ s.pending, s.clock.elapsed < p.inserted + 2^30

instance (s : TimerState τ) : Decidable s.Recent :=
  inferInstanceAs (Decidable (∀ p ∈ s.pending, _))

end TimerState

/-- Timers are added and removed while the clock goes on. -/
inductive TimerRun : TimerState τ → Prop
  | start (clock : Timespec) (msec : UInt32) : TimerRun ⟨clock, msec, T.empty, []⟩
  | tick {s : TimerState τ} {clock : Timespec} (hs : TimerRun s)
    (hc : s.clock.elapsed ≤ clock.elapsed) : TimerRun { s with clock := clock }
  | add {s : TimerState τ} {node delay : ℕ} (hs : TimerRun s)
    (hn : ∀ p ∈ s.pending, p.timer.node ≠ node) (hd : delay < 2^30) : TimerRun (s.add T node delay)
  | remove {s : TimerState τ} {p : Pending} (hs : TimerRun s) (hp : p ∈ s.pending) :
    TimerRun (s.remove T p)

end

variable {τ : Type} {T : RbTree Timer τ} {s : TimerState τ}

/-- What is known of a pending timer. -/
structure Pending.Ok (s : TimerState τ) (p : Pending) : Prop where
  inserted : p.inserted ≤ s.clock.elapsed
  delay : p.delay < 2^30
  time : p.timer.time.toNat = p.deadline % 2^32

/-- The tree holds the pending timers, in the order of their times. -/
structure TimerState.Inv (T : RbTree Timer τ) (s : TimerState τ) : Prop where
  perm : (T.toList s.timers).Perm (s.pending.map Pending.timer)
  sorted : (T.toList s.timers).Pairwise fun a b => a.time.toNat ≤ b.time.toNat
  nodes : (s.pending.map fun p => p.timer.node).Nodup
  ok : ∀ p ∈ s.pending, p.Ok s

namespace TimerState

lemma inv_start (clock : Timespec) (msec : UInt32) : Inv T ⟨clock, msec, T.empty, []⟩ := by
  refine ⟨?_, ?_, ?_, ?_⟩ <;> simp [T.toList_empty]

lemma Inv.tick (h : s.Inv T) {clock : Timespec} (hc : s.clock.elapsed ≤ clock.elapsed) :
    Inv T { s with clock := clock } :=
  ⟨h.perm, h.sorted, h.nodes, fun p hp =>
    ⟨(h.ok p hp).inserted.trans hc, (h.ok p hp).delay, (h.ok p hp).time⟩⟩

lemma Inv.add (h : s.Inv T) {node delay : ℕ} (hn : ∀ p ∈ s.pending, p.timer.node ≠ node)
    (hd : delay < 2^30) : (s.add T node delay).Inv T where
  perm := (T.perm_insert _ _ _).trans (h.perm.cons _)
  sorted := T.sorted_insert _ timerCmp_neg h.sorted
  nodes := by
    simp only [TimerState.add, List.map_cons, List.nodup_cons]
    refine ⟨fun hm => ?_, h.nodes⟩
    obtain ⟨p, hp, hpn⟩ := List.mem_map.mp hm
    exact hn p hp hpn
  ok p hp := by
    rcases List.mem_cons.mp hp with rfl | hp
    · refine ⟨le_rfl, hd, ?_⟩
      simp [Pending.deadline, timeUpdate, monotonicTime_toNat]
    · exact ⟨(h.ok p hp).inserted, (h.ok p hp).delay, (h.ok p hp).time⟩

lemma Inv.remove (h : s.Inv T) {p : Pending} (hp : p ∈ s.pending) : (s.remove T p).Inv T := by
  have hmem : p.timer ∈ T.toList s.timers := h.perm.mem_iff.mpr (List.mem_map_of_mem hp)
  have hlist : T.toList (s.remove T p).timers = (T.toList s.timers).erase p.timer :=
    T.toList_remove hmem
  have hrest : (s.remove T p).pending.Sublist s.pending := List.erase_sublist
  refine ⟨?_, ?_, h.nodes.sublist (hrest.map _), fun q hq => ?_⟩
  · have hperm : (T.toList s.timers).Perm (p.timer :: (s.pending.erase p).map Pending.timer) :=
      h.perm.trans ((List.perm_cons_erase hp).map _)
    rw [hlist]
    show List.Perm _ ((s.pending.erase p).map Pending.timer)
    simpa using hperm.erase p.timer
  · rw [hlist]
    exact h.sorted.sublist List.erase_sublist
  · have hok := h.ok q (hrest.subset hq)
    exact ⟨hok.inserted, hok.delay, hok.time⟩

lemma Inv.eq_of_timer (h : s.Inv T) {p q : Pending} (hp : p ∈ s.pending) (hq : q ∈ s.pending)
    (hpq : p.timer = q.timer) : p = q :=
  List.inj_on_of_nodup_map h.nodes hp hq (congrArg Timer.node hpq)

lemma Inv.first (h : s.Inv T) :
    match firstTimer T s.timers with
    | none => s.pending = []
    | some t => ∃ p ∈ s.pending, p.timer = t ∧
        ∀ q ∈ s.pending, p.deadline % 2^32 ≤ q.deadline % 2^32 := by
  have hperm := h.perm
  have hsorted := h.sorted
  rw [firstTimer, T.first_eq]
  cases hl : T.toList s.timers with
  | nil =>
    rw [hl] at hperm
    simpa using hperm.symm.eq_nil
  | cons t ts =>
    rw [hl] at hperm hsorted
    obtain ⟨p, hp, rfl⟩ := List.mem_map.mp (hperm.mem_iff.mp List.mem_cons_self)
    refine ⟨p, hp, rfl, fun q hq => ?_⟩
    rw [← (h.ok p hp).time, ← (h.ok q hq).time]
    rcases List.mem_cons.mp (hperm.mem_iff.mpr (List.mem_map_of_mem hq)) with hqt | hqt
    · rw [hqt]
    · exact (List.pairwise_cons.mp hsorted).1 _ hqt

lemma Inv.near (h : s.Inv T) (hr : s.Recent) :
    ∀ p ∈ s.pending, ∀ q ∈ s.pending, q.deadline < p.deadline + 2^32 := by
  intro p hp q hq
  have hq' := h.ok q hq
  have := hr p hp
  have := hq'.inserted
  have := hq'.delay
  unfold Pending.deadline
  omega

end TimerState

theorem TimerRun.inv (h : TimerRun T s) : s.Inv T := by
  induction h with
  | start clock msec => exact TimerState.inv_start clock msec
  | tick _ hc ih => exact ih.tick hc
  | add _ hn hd ih => exact ih.add hn hd
  | remove _ hp ih => exact ih.remove hp

/-- Exactly if the clock wraps between no two deadlines, the first timer is the one that is due
first. -/
theorem TimerRun.first_earliest_iff (h : TimerRun T s) (hr : s.Recent) :
    s.FirstEarliest T ↔
      ∀ p ∈ s.pending, ∀ q ∈ s.pending, p.deadline / 2^32 = q.deadline / 2^32 := by
  have hfirst := h.inv.first
  unfold TimerState.FirstEarliest
  cases hf : firstTimer T s.timers with
  | none =>
    rw [hf] at hfirst
    simp [show s.pending = [] from hfirst]
  | some t =>
    rw [hf] at hfirst
    obtain ⟨p, hp, rfl, hleast⟩ := hfirst
    rw [← Residue.least_iff (h.inv.near hr) hp hleast]
    constructor
    · rintro ⟨q, hq, hqp, hmin⟩
      obtain rfl := h.inv.eq_of_timer hq hp hqp
      exact hmin
    · exact fun hmin => ⟨p, hp, rfl, hmin⟩

/-! ## The clock wraps -/

/-- A node goes before the first one that it is less than. -/
def insertBefore {α : Type} (cmp : α → α → ℤ) (x : α) : List α → List α
  | [] => [x]
  | y :: l => if cmp x y < 0 then x :: y :: l else y :: insertBefore cmp x l

lemma perm_insertBefore {α : Type} (cmp : α → α → ℤ) (x : α) (l : List α) :
    (insertBefore cmp x l).Perm (x :: l) := by
  induction l with
  | nil => rfl
  | cons y l ih =>
    rw [insertBefore]
    split_ifs
    · rfl
    · exact (ih.cons y).trans (.swap x y l)

lemma sorted_insertBefore {α : Type} {cmp : α → α → ℤ} {key : α → ℕ} (x : α) {l : List α}
    (hcmp : ∀ a b, cmp a b < 0 ↔ key a < key b) (hl : l.Pairwise fun a b => key a ≤ key b) :
    (insertBefore cmp x l).Pairwise fun a b => key a ≤ key b := by
  induction l with
  | nil => simp [insertBefore]
  | cons y l ih =>
    obtain ⟨hy, hl⟩ := List.pairwise_cons.mp hl
    rw [insertBefore]
    split_ifs with hxy
    · have hlt := (hcmp x y).mp hxy
      simp only [List.pairwise_cons, List.mem_cons, forall_eq_or_imp]
      exact ⟨⟨hlt.le, fun z hz => hlt.le.trans (hy z hz)⟩, hy, hl⟩
    · have hle : key y ≤ key x := Nat.le_of_not_lt fun hlt => hxy ((hcmp x y).mpr hlt)
      refine List.pairwise_cons.mpr ⟨fun z hz => ?_, ih hl⟩
      rcases List.mem_cons.mp ((perm_insertBefore cmp x l).mem_iff.mp hz) with rfl | hz
      · exact hle
      · exact hy z hz

/-- The nodes of a tree from left to right. -/
def listTree : RbTree Timer (List Timer) where
  empty := []
  insert cmp l x := insertBefore cmp x l
  remove l x := l.erase x
  first l := l.head?
  toList l := l
  toList_empty := rfl
  perm_insert cmp l x := perm_insertBefore cmp x l
  sorted_insert x hcmp hl := sorted_insertBefore x hcmp hl
  toList_remove _ := rfl
  first_eq _ := rfl

/-- Two timers of one second and of three, added two seconds before the clock wraps. -/
def acrossWrap : TimerState (List Timer) :=
  ((TimerState.mk ⟨4294965, 296000000⟩ 0 listTree.empty []).add listTree 1 1000).add listTree 2 3000

lemma run_acrossWrap : TimerRun listTree acrossWrap := by
  refine .add (.add (.start _ _) ?_ (by decide)) ?_ (by decide) <;> decide

/-- The same two timers, ten seconds before. -/
def beforeWrap : TimerState (List Timer) :=
  ((TimerState.mk ⟨4294955, 296000000⟩ 0 listTree.empty []).add listTree 1 1000).add listTree 2 3000

lemma run_beforeWrap : TimerRun listTree beforeWrap := by
  refine .add (.add (.start _ _) ?_ (by decide)) ?_ (by decide) <;> decide

theorem TimerRun.first_earliest_iff_wrap :
    beforeWrap.FirstEarliest listTree ∧ ¬ acrossWrap.FirstEarliest listTree :=
  ⟨(TimerRun.first_earliest_iff run_beforeWrap (by decide)).mpr (by decide),
    (TimerRun.first_earliest_iff run_acrossWrap (by decide)).not.mpr (by decide)⟩

/-- The timer of three seconds comes first. -/
theorem wrap_misorders : ¬ ∀ s : TimerState (List Timer), TimerRun listTree s → s.Recent →
    s.FirstEarliest listTree := fun h => by
  have hfirst := h acrossWrap run_acrossWrap (by decide)
  rw [TimerState.FirstEarliest, show firstTimer listTree acrossWrap.timers =
    some ⟨2, 1000⟩ by decide]
    at hfirst
  obtain ⟨p, hp, hpt, hmin⟩ := hfirst
  have hlate : ∀ p ∈ acrossWrap.pending, p.timer = ⟨2, 1000⟩ →
      ¬ ∀ q ∈ acrossWrap.pending, p.deadline ≤ q.deadline := by decide
  exact hlate p hp hpt hmin

end Xdbd
