import Xdbd.Ownership
import Xdbd.Sessions

/-!
# Pools and descriptors

Who holds what the daemon has acquired. In every run each live pool belongs to one accepted
connection and each open descriptor to one of them, or to the process since its start, or it is
the answer to an `accept` that found the table full.
-/
namespace Xdbd
open Interaction Ownership World

variable {boot : Boot} {u v w w' : World} {free : List ℕ} {i l : ℕ}

/-! ## The holders -/

/-- The descriptors of the process when the loop starts. -/
def Boot.descriptors (boot : Boot) : Finset ℤ :=
  boot.openFds ∪ (boot.entries.map SocketResult.fd).toFinset

/-- The descriptor in the entry that the outcomes `e` are for; -1 stands for none. -/
def SocketResult.listening (e : SocketResult) : ℤ := if e.bind && e.listen then e.fd else -1

/-- The descriptors in the listening entries. -/
def Boot.sockets (boot : Boot) : Finset ℤ := (boot.entries.map SocketResult.listening).toFinset

/-- The descriptor of an `accept` that found no free slot. -/
def Obs.unslotted : Obs → Option ℤ
  | .accept a false => some a.fd
  | _ => none

/-- Not an `accept` that lacked a slot or one of the pools. -/
def Obs.served : Obs → Bool
  | .accept a slot => slot && (a.pool && a.tempPool)
  | _ => true

def Slot.unslotted (s : Slot) : Finset ℤ := (s.wire.history.filterMap Obs.unslotted).toFinset

namespace World

def listeners (w : World) : Finset ℕ :=
  w.issued.filter fun i =>
    (w.slots i).read.accepted = true ∧ (w.slots i).conn.destroyed = false

/-- The slots that `xdbd_event_accept` has taken and that are not released. -/
def taken (w : World) : Finset ℕ :=
  w.issued.filter fun i =>
    (w.slots i).read.accepted = false ∧ (w.slots i).conn.destroyed = false

/-- The taken slots that became a connection. -/
def connected (w : World) : Finset ℕ :=
  w.taken.filter fun i => (w.slots i).conn.listening ≠ none

/-- The taken slots that were left without a connection. -/
def stranded (w : World) : Finset ℕ :=
  w.taken.filter fun i => (w.slots i).conn.listening = none

/-- The stranded slots that got the first of their two pools. -/
def halfPooled (w : World) : Finset ℕ :=
  w.stranded.filter fun i => (w.slots i).conn.pool ≠ none

def unslotted (w : World) : Finset ℤ := w.listeners.biUnion fun l => (w.slots l).unslotted

def sockets (w : World) : Finset ℤ := w.listeners.image fun l => (w.slots l).conn.fd

/-- The pools that the slot `i` holds. -/
def poolShare (w : World) (i : ℕ) : Finset ℕ :=
  if i ∈ w.taken then (w.slots i).pools.toFinset else ∅

/-- The descriptors that the slot `i` holds, and those that no slot holds. -/
def fdShare (boot : Boot) (w : World) : Option ℕ → Finset ℤ
  | none => boot.descriptors ∪ w.unslotted
  | some i => if i ∈ w.taken then {(w.slots i).conn.fd} else ∅

lemma mem_taken : i ∈ w.taken ↔ i ∈ w.issued ∧ (w.slots i).read.accepted = false ∧
    (w.slots i).conn.destroyed = false := Finset.mem_filter

lemma mem_poolShare {p : ℕ} : p ∈ w.poolShare i ↔ i ∈ w.taken ∧ p ∈ (w.slots i).pools := by
  unfold poolShare
  split_ifs with hi <;> simp [hi]

lemma mem_fdShare {s : ℤ} :
    s ∈ w.fdShare boot (some i) ↔ i ∈ w.taken ∧ (w.slots i).conn.fd = s := by
  simp only [fdShare]
  split_ifs with hi <;> simp [hi, eq_comm]

lemma mem_listeners : i ∈ w.listeners ↔ i ∈ w.issued ∧ (w.slots i).read.accepted = true ∧
    (w.slots i).conn.destroyed = false := Finset.mem_filter

lemma notMem_listeners (h : (w.slots i).read.accepted = false) : i ∉ w.listeners := fun hm => by
  rw [(mem_listeners.mp hm).2.1] at h
  cases h

lemma Table.notMem_taken (h : Table w free) (hi : i ∈ free) : i ∉ w.taken := fun hm => by
  obtain ⟨hissued, -, halive⟩ := mem_taken.mp hm
  rw [h.released i hi hissued] at halive
  cases halive

lemma Table.notMem_listeners_free (h : Table w free) (hi : i ∈ free) : i ∉ w.listeners :=
  fun hm => by
    obtain ⟨hissued, -, halive⟩ := mem_listeners.mp hm
    rw [h.released i hi hissued] at halive
    cases halive

lemma Table.taken_inUse (h : Table w free) (hi : i ∈ w.taken) : w.InUse free i :=
  ⟨(mem_taken.mp hi).1, fun hf => h.notMem_taken hf hi⟩

lemma session_ne_none : w.session i ≠ none ↔ i ∈ w.connected := by
  unfold connected
  rw [Finset.mem_filter, mem_taken]
  constructor
  · intro hs
    have hp : w.Peer i ∧ (w.slots i).conn.destroyed = false := by
      by_contra hn
      exact hs (session_none hn)
    exact ⟨⟨hp.1.issued, hp.1.accepted, hp.2⟩, hp.1.listening⟩
  · rintro ⟨⟨hissued, hacc, halive⟩, hl⟩
    rw [session_peer ⟨hissued, hacc, hl⟩ halive]
    exact Option.some_ne_none _

end World

/-! ## What a step does to the holders -/

structure Slot.Goes (s t : Slot) : Prop where
  conn : t.conn.pool = s.conn.pool ∧ t.conn.tempPool = s.conn.tempPool ∧ t.conn.fd = s.conn.fd ∧
    t.conn.listening = s.conn.listening ∧ t.conn.destroyed = s.conn.destroyed
  accepted : t.read.accepted = s.read.accepted
  history : s.read.accepted = true → s.wire.history <+: t.wire.history
  unslotted : s.read.accepted = true → t.unslotted = s.unslotted

lemma Slot.Goes.refl (s : Slot) : s.Goes s :=
  ⟨⟨rfl, rfl, rfl, rfl, rfl⟩, rfl, fun _ => List.prefix_rfl, fun _ => rfl⟩

lemma Slot.Goes.pools {s t : Slot} (h : s.Goes t) : t.pools = s.pools := by
  unfold Slot.pools
  rw [h.conn.1, h.conn.2.1]

lemma Slot.Goes.of_eq {s t : Slot} (hc : t.conn = s.conn)
    (ha : t.read.accepted = s.read.accepted) (hx : t.wire.history = s.wire.history) :
    s.Goes t := by
  refine ⟨by simp [hc], ha, fun _ => by rw [hx], fun _ => ?_⟩
  unfold Slot.unslotted
  rw [hx]

namespace World

structure Beside (S : Set ℕ) (w w' : World) : Prop where
  issued : ∀ j ∉ S, j ∈ w'.issued ↔ j ∈ w.issued
  slots : ∀ j ∉ S, j ∈ w.issued → (w.slots j).Goes (w'.slots j)

variable {S : Set ℕ}

lemma Beside.mem_taken (h : Beside S w w') (hi : i ∉ S) : i ∈ w'.taken ↔ i ∈ w.taken := by
  rw [World.mem_taken, World.mem_taken, h.issued i hi]
  refine and_congr_right fun hissued => ?_
  rw [(h.slots i hi hissued).accepted, (h.slots i hi hissued).conn.2.2.2.2]

lemma Beside.mem_listeners (h : Beside S w w') (hi : i ∉ S) :
    i ∈ w'.listeners ↔ i ∈ w.listeners := by
  rw [World.mem_listeners, World.mem_listeners, h.issued i hi]
  refine and_congr_right fun hissued => ?_
  rw [(h.slots i hi hissued).accepted, (h.slots i hi hissued).conn.2.2.2.2]

lemma Beside.mem_stranded (h : Beside S w w') (hi : i ∉ S) :
    i ∈ w'.stranded ↔ i ∈ w.stranded := by
  unfold stranded
  rw [Finset.mem_filter, Finset.mem_filter, h.mem_taken hi]
  exact and_congr_right fun ht => by
    rw [(h.slots i hi (World.mem_taken.mp ht).1).conn.2.2.2.1]

lemma Beside.poolShare (h : Beside S w w') (hi : i ∉ S) : w'.poolShare i = w.poolShare i := by
  unfold World.poolShare
  simp only [h.mem_taken hi]
  split_ifs with hm
  · rw [(h.slots i hi (World.mem_taken.mp hm).1).pools]
  · rfl

lemma Beside.fdShare (h : Beside S w w') (hi : i ∉ S) :
    w'.fdShare boot (some i) = w.fdShare boot (some i) := by
  simp only [World.fdShare, h.mem_taken hi]
  split_ifs with hm
  · rw [(h.slots i hi (World.mem_taken.mp hm).1).conn.2.2.1]
  · rfl

/-- None of the other slots is or was a listening connection. -/
def Unlistened (S : Set ℕ) (w w' : World) : Prop :=
  ∀ i ∈ S, i ∉ w.listeners ∧ i ∉ w'.listeners

lemma Beside.listeners (h : Beside S w w') (hS : Unlistened S w w') :
    w'.listeners = w.listeners := by
  ext i
  by_cases hi : i ∈ S
  · exact iff_of_false (hS i hi).2 (hS i hi).1
  · exact h.mem_listeners hi

lemma Beside.listener (h : Beside S w w') (hS : Unlistened S w w') (hl : l ∈ w.listeners) :
    (w.slots l).Goes (w'.slots l) :=
  h.slots l (fun hm => (hS l hm).1 hl) (World.mem_listeners.mp hl).1

lemma Beside.sockets (h : Beside S w w') (hS : Unlistened S w w') : w'.sockets = w.sockets := by
  unfold World.sockets
  rw [h.listeners hS]
  exact Finset.image_congr fun l hl => (h.listener hS hl).conn.2.2.1

lemma Beside.unslotted (h : Beside S w w') (hS : Unlistened S w w') :
    w'.unslotted = w.unslotted := by
  unfold World.unslotted
  rw [h.listeners hS]
  exact Finset.biUnion_congr rfl fun l hl =>
    (h.listener hS hl).unslotted (World.mem_listeners.mp hl).2.1

end World

/-! ## The books of a run -/

/-- An `accept` of `s` got a slot, but not both pools. -/
def World.Unpooled (w : World) (s : ℤ) : Prop :=
  ∃ l ∈ w.listeners, ∃ a, Obs.accept a true ∈ (w.slots l).wire.history ∧
    (a.pool && a.tempPool) = false ∧ a.fd = s

/-- What the daemon has acquired is with its holders. -/
structure Accounted (boot : Boot) (w : World) : Prop where
  pools : Owned w.livePools w.poolShare
  fds : Owned w.openFds (w.fdShare boot)
  apart : Disjoint boot.descriptors w.unslotted
  listeners : w.listeners.card = boot.entries.length
  sockets : w.sockets = boot.sockets
  stranded : ∀ i ∈ w.stranded,
    (w.slots i).conn.tempPool = none ∧ w.Unpooled (w.slots i).conn.fd

namespace World

lemma Unpooled.mono {s : ℤ} (h : w.Unpooled s) (hl : w.listeners ⊆ w'.listeners)
    (hs : ∀ l ∈ w.listeners, (w.slots l).wire.history <+: (w'.slots l).wire.history) :
    w'.Unpooled s := by
  obtain ⟨l, hm, a, hnoted, hfail, hfd⟩ := h
  exact ⟨l, hl hm, a, (hs l hm).subset hnoted, hfail, hfd⟩

end World

lemma Accounted.beside {S : Set ℕ} (h : Accounted boot w) (hs : Beside S w w')
    (hS : Unlistened S w w') (hp : Owned w'.livePools w'.poolShare)
    (hf : Owned w'.openFds (w'.fdShare boot))
    (hi : ∀ i ∈ S, i ∈ w'.stranded →
      (w'.slots i).conn.tempPool = none ∧ w'.Unpooled (w'.slots i).conn.fd) :
    Accounted boot w' := by
  refine ⟨hp, hf, by rw [hs.unslotted hS]; exact h.apart,
    by rw [hs.listeners hS]; exact h.listeners, (hs.sockets hS).trans h.sockets, fun i hm => ?_⟩
  by_cases hmem : i ∈ S
  · exact hi i hmem hm
  have hm' := (hs.mem_stranded hmem).mp hm
  obtain ⟨hnone, hnoted⟩ := h.stranded i hm'
  have hissued := (mem_taken.mp (Finset.mem_filter.mp hm').1).1
  obtain ⟨-, htemp, hfd, -⟩ := (hs.slots i hmem hissued).conn
  rw [htemp, hfd]
  exact ⟨hnone, hnoted.mono (by rw [hs.listeners hS]) fun l hl =>
    (hs.listener hS hl).history (mem_listeners.mp hl).2.1⟩

lemma Accounted.steady (h : Accounted boot w) (hs : Beside ∅ w w')
    (hp : w'.livePools = w.livePools) (hf : w'.openFds = w.openFds) : Accounted boot w' := by
  have hS : Unlistened ∅ w w' := fun i hi => absurd hi (Set.notMem_empty i)
  have hpools : w'.poolShare = w.poolShare := funext fun i => hs.poolShare (Set.notMem_empty i)
  have hfds : w'.fdShare boot = w.fdShare boot := funext fun o => by
    cases o with
    | none => simp only [fdShare, hs.unslotted hS]
    | some i => exact hs.fdShare (Set.notMem_empty i)
  refine h.beside hs hS ?_ ?_ fun i hi => absurd hi (Set.notMem_empty i)
  · rw [hp, hpools]
    exact h.pools
  · rw [hf, hfds]
    exact h.fds

/-! ## The read handlers -/

/-- A handler leaves the descriptors as they are, or it has closed its own. -/
def World.Shut (i : ℕ) (w w' : World) : Prop :=
  w'.openFds = w.openFds ∧ (w'.slots i).conn.destroyed = false ∧
      (w'.slots i).conn.fd = (w.slots i).conn.fd ∨
    w'.openFds = w.openFds.erase (w.slots i).conn.fd ∧ (w'.slots i).conn.destroyed = true

namespace World

lemma Shut.next (h : Shut i w v) (hopen : w'.openFds = v.openFds)
    (hc : (w'.slots i).conn.destroyed = (v.slots i).conn.destroyed ∧
      (w'.slots i).conn.fd = (v.slots i).conn.fd) : Shut i w w' := by
  rcases h with ⟨hf, hd, hs⟩ | ⟨hf, hd⟩
  · exact .inl ⟨hopen.trans hf, hc.1.trans hd, hc.2.trans hs⟩
  · exact .inr ⟨hopen.trans hf, hc.1.trans hd⟩

lemma Shut.exec {s : Slot} (hlink : Linked i w v s) (h : Shut i w v) {op : Op} {r : op.Res}
    (hok : World.exec i op v = .ok (r, w')) : Shut i w w' := by
  obtain ⟨free, ht, hrel⟩ := hlink.table
  cases op with
  | slot o =>
    simp only [World.exec] at hok
    cases ho : o.exec (v.slots i) with
    | error e =>
      rw [ho] at hok
      cases hok
    | ok r' =>
      rw [ho] at hok
      cases hok
      have hf := SlotOp.exec_frame ho
      refine h.next rfl ?_
      rw [slots_modSlot, if_pos rfl, hf.conn]
      exact ⟨rfl, rfl⟩
  | handleReadEvent flags =>
    have hactive : (v.slots i).read.active = true := by
      by_cases hi : i ∈ free
      · exact (hrel hi).active
      · exact (ht.peer_entry hlink.peer hi).1
    have hv : v.handleReadEvent (.read i) (flags % 2 = 1) = (.ok, v) := by
      unfold World.handleReadEvent
      rw [if_neg fun hc => by
        rw [show (v.event (.read i)).active = true from hactive] at hc
        simp at hc]
    change Except.ok (v.handleReadEvent (.read i) (flags % 2 = 1)) = .ok (r, w') at hok
    rw [hv] at hok
    cases hok
    exact h
  | delReadEvent =>
    change Except.ok (v.selectDelEvent (.read i) .read) = .ok (r, w') at hok
    have hw : w' = (v.selectDelEvent (.read i) .read).2 :=
      (Prod.ext_iff.mp (Except.ok.inj hok)).2.symm
    cases hk : (v.slots i).read.index with
    | none =>
      rw [hw, @selectDelEvent_of_notMem v (.read i) .read hk]
      exact h
    | some k =>
      have hi : i ∉ free := fun hi => by simp [(hrel hi).index] at hk
      obtain ⟨-, -, -, hopen, -, -, hslot⟩ := ht.selectDelEvent hlink.peer hi
      rw [hw]
      exact h.next hopen (by rw [hslot.conn]; exact ⟨rfl, rfl⟩)
  | closeConnection =>
    -- it succeeds at most once, on a connection that is not closed yet
    have hagree := hlink.closeConnection
    rw [hok] at hagree
    rcases hagree.cases with ⟨e, e', hx, -⟩ | ⟨a, x, y, hx, hy, -⟩
    · cases hx
    have hfd : (v.slots i).conn.fd ≠ -1 := fun hn => by
      simp only [Slot.exec] at hy
      have hfd' : s.conn.fd = -1 := by rw [hlink.norm]; exact hn
      split_ifs at hy
    have hi : i ∉ free := fun hi => hfd (ht.freeFd i hi)
    obtain ⟨-, -, -, hopen, -, -, hslot⟩ := ht.selectDelEvent hlink.peer hi
    have hclose : World.exec i .closeConnection v =
        .ok ((), (v.selectDelEvent (.read i) .read).2.release i) := by
      show (v.adbCloseConnection i >>= fun w => .ok ((), w)) = _
      rw [ht.adbCloseConnection hlink.peer hi]
      rfl
    obtain rfl := (Prod.ext_iff.mp (Except.ok.inj (hok.symm.trans hclose))).2
    have halive := (ht.entry i ⟨hlink.peer.issued, hi⟩).alive
    refine .inr ⟨?_, by rw [slots_release_self]; rfl⟩
    rcases h with ⟨hf, -, hs⟩ | ⟨-, hd⟩
    · show (v.selectDelEvent (.read i) .read).2.openFds.erase _ = _
      rw [hopen, hf, hslot.conn]
      exact congrArg _ hs
    · rw [halive] at hd
      cases hd

lemma Table.shut (h : Table w free) (hp : w.Peer i) (hi : i ∉ free) {hd : AdbHandler}
    (hok : Prog.run (World.exec i) (code hd) w = .ok ((), w')) : Shut i w w' := by
  have hkeep : Prog.Preserves (World.exec i) fun v => (∃ s, Linked i w v s) ∧ Shut i w v := by
    rintro op v r v' ⟨⟨s, hlink⟩, hshut⟩ ho
    have hagree := linked_simulates i w op v s hlink
    rw [ho] at hagree
    rcases hagree.cases with ⟨e, e', hx, -⟩ | ⟨a, x, y, hx, -, hxy⟩
    · cases hx
    · cases hx
      exact ⟨⟨y, hxy⟩, hshut.exec hlink ho⟩
  have hstart : Linked i w w (w.slots i).norm :=
    ⟨⟨free, h, fun hi' => absurd hi' hi⟩, hp, .refl i w, rfl⟩
  exact (hkeep.run (code hd) ⟨⟨_, hstart⟩,
    .inl ⟨rfl, (h.entry i ⟨hp.issued, hi⟩).alive, rfl⟩⟩ hok).2

end World

lemma Accounted.handler (h : Accounted boot w) (ht : Table w free) (hp : w.Peer i) (hi : i ∉ free)
    (hframe : World.Frame i w w') (hshut : Shut i w w') : Accounted boot w' := by
  have hentry := ht.entry i ⟨hp.issued, hi⟩
  have hothers : ∀ j ≠ i, (w.slots j).Goes (w'.slots j) := fun j hj => by
    have hs := hframe.others j hj
    exact .of_eq hs.conn hs.similar.accepted (by rw [hs.wire])
  rcases hshut with ⟨hopen, halive, hfd⟩ | ⟨hopen, hdead⟩
  · have hself : (w.slots i).Goes (w'.slots i) := by
      refine ⟨⟨hframe.pool, hframe.tempPool, hfd, hframe.listeningOf, ?_⟩, hframe.accepted,
        fun ha => ?_, fun ha => ?_⟩
      · rw [halive, hentry.alive]
      · rw [hp.accepted] at ha
        cases ha
      · rw [hp.accepted] at ha
        cases ha
    have hlive : w'.livePools = w.livePools := by
      rcases hframe.livePools with ⟨hl, -⟩ | ⟨-, hd⟩
      · exact hl
      · rw [halive] at hd
        cases hd
    refine h.steady ⟨fun j _ => by rw [hframe.issued], fun j _ _ => ?_⟩ hlive hopen
    by_cases hj : j = i
    · rw [hj]
      exact hself
    · exact hothers j hj
  · -- the slot gives up its pools and its descriptor
    have hlive : w'.livePools = w.livePools \ w.poolShare i := by
      have hmem : i ∈ w.taken := mem_taken.mpr ⟨hp.issued, hp.accepted, hentry.alive⟩
      rcases hframe.livePools with ⟨-, hd⟩ | ⟨hl, -⟩
      · rw [hdead, hentry.alive] at hd
        cases hd
      · rw [hl, poolShare, if_pos hmem]
    have hfds : w'.openFds = w.openFds \ w.fdShare boot (some i) := by
      have hmem : i ∈ w.taken := mem_taken.mpr ⟨hp.issued, hp.accepted, hentry.alive⟩
      rw [hopen, fdShare, if_pos hmem, Finset.sdiff_singleton_eq_erase]
    have hgone : i ∉ w'.taken := fun hm => by
      rw [(mem_taken.mp hm).2.2] at hdead
      cases hdead
    have hbeside : Beside {i} w w' :=
      ⟨fun j _ => by rw [hframe.issued], fun j hj _ => hothers j hj⟩
    have hS : Unlistened {i} w w' := by
      rintro j rfl
      have hacc := hframe.accepted.trans hp.accepted
      exact ⟨notMem_listeners hp.accepted, notMem_listeners hacc⟩
    refine h.beside hbeside hS ?_ ?_ ?_
    · rw [hlive]
      exact h.pools.release (if_neg hgone) fun j hj => hbeside.poolShare hj
    · rw [hfds]
      refine h.fds.release (if_neg hgone) fun o ho => ?_
      cases o with
      | none => simp only [fdShare, hbeside.unslotted hS]
      | some j => exact hbeside.fdShare fun he => ho (congrArg some he)
    · rintro j rfl hm
      exact absurd (Finset.mem_filter.mp hm).1 hgone

/-! ## Accepting -/

lemma Slot.heard_goes {s : Slot} {x : Wire} (hx : s.wire.history <+: x.history)
    (hu : x.history.filterMap Obs.unslotted = s.wire.history.filterMap Obs.unslotted) :
    s.Goes (heard x s) := by
  refine ⟨⟨rfl, rfl, rfl, rfl, rfl⟩, rfl, fun _ => hx, fun _ => ?_⟩
  unfold Slot.unslotted
  exact congrArg List.toFinset hu

lemma Accounted.hear (h : Accounted boot w) {x : Wire} (hx : x.history = (w.slots l).wire.history) :
    Accounted boot (w.hear l x w.openFds) := by
  refine h.steady ⟨fun _ _ => Iff.rfl, fun j _ _ => ?_⟩ rfl rfl
  rw [slots_hear]
  split_ifs with hj
  · rw [hj]
    exact Slot.heard_goes (by rw [hx]) (by rw [hx])
  · exact .refl _

section
variable {a : AcceptResult} {rest : List AcceptResult}

lemma unslotted_concat (s : Slot) (a : AcceptResult) (slot : Bool) :
    (s.wire.history ++ [Obs.accept a slot]).filterMap Obs.unslotted =
      s.wire.history.filterMap Obs.unslotted ++ if slot then [] else [a.fd] := by
  cases slot <;> simp [Obs.unslotted]

/-- The answer of an `accept` changes the wire of the listening slot, and no one's holdings. -/
lemma answered_slots (j : ℕ) : ((u.answered l a rest).slots j).conn = (u.slots j).conn ∧
    ((u.answered l a rest).slots j).read.accepted = (u.slots j).read.accepted := by
  rw [answered, slots_hear]
  split_ifs with hj
  · rw [hj]
    exact ⟨rfl, rfl⟩
  · exact ⟨rfl, rfl⟩

lemma answered_listeners : (u.answered l a rest).listeners = u.listeners := by
  ext j
  rw [mem_listeners, mem_listeners, (answered_slots j).1, (answered_slots j).2]
  rfl

lemma answered_taken : (u.answered l a rest).taken = u.taken := by
  ext j
  rw [mem_taken, mem_taken, (answered_slots j).1, (answered_slots j).2]
  rfl

lemma answered_poolShare (j : ℕ) : (u.answered l a rest).poolShare j = u.poolShare j := by
  unfold World.poolShare Slot.pools
  rw [answered_taken, (answered_slots j).1]

lemma answered_fdShare (j : ℕ) :
    (u.answered l a rest).fdShare boot (some j) = u.fdShare boot (some j) := by
  simp only [fdShare]
  rw [answered_taken, (answered_slots j).1]

lemma answered_history (j : ℕ) :
    (u.slots j).wire.history <+: ((u.answered l a rest).slots j).wire.history := by
  rw [answered, slots_hear]
  split_ifs with hj
  · rw [hj]
    exact List.prefix_append _ _
  · exact List.prefix_rfl

lemma answered_unslotted (hl : l ∈ u.listeners) (hfull : u.freeConnections = none) :
    (u.answered l a rest).unslotted = insert a.fd u.unslotted := by
  have hslot : ∀ j, ((u.answered l a rest).slots j).unslotted =
      if j = l then insert a.fd (u.slots j).unslotted else (u.slots j).unslotted := fun j => by
    rw [answered, slots_hear]
    split_ifs with hj
    · rw [hj]
      unfold Slot.unslotted heard
      simp only [hfull, Option.isSome_none, unslotted_concat]
      ext s
      simp
    · rfl
  ext s
  simp only [World.unslotted, answered_listeners, hslot, Finset.mem_insert, Finset.mem_biUnion]
  constructor
  · rintro ⟨j, hj, hs⟩
    split_ifs at hs with hjl
    · exact (Finset.mem_insert.mp hs).imp_right fun hs => ⟨j, hj, hs⟩
    · exact .inr ⟨j, hj, hs⟩
  · rintro (rfl | ⟨j, hj, hs⟩)
    · exact ⟨l, hl, by simp⟩
    · refine ⟨j, hj, ?_⟩
      split_ifs
      · exact Finset.mem_insert_of_mem hs
      · exact hs

lemma Accounted.unslotted (h : Accounted boot u) (hl : l ∈ u.listeners)
    (hfull : u.freeConnections = none) (hnew : a.fd ∉ u.openFds) :
    Accounted boot (u.answered l a rest) where
  pools := by
    rw [funext answered_poolShare]
    exact h.pools
  fds := by
    refine h.fds.acquire (i := none) hnew ?_ fun o ho => ?_
    · simp only [fdShare, answered_unslotted hl hfull, Finset.union_insert]
    · cases o with
      | none => exact absurd rfl ho
      | some j => exact answered_fdShare j
  apart := by
    rw [answered_unslotted hl hfull, Finset.disjoint_insert_right]
    exact ⟨fun hm => hnew ((h.fds.mem _).mpr ⟨none, Finset.mem_union_left _ hm⟩), h.apart⟩
  listeners := by
    rw [answered_listeners]
    exact h.listeners
  sockets := by
    refine Eq.trans ?_ h.sockets
    unfold World.sockets
    rw [answered_listeners]
    exact Finset.image_congr fun j _ => congrArg Connection.fd (answered_slots j).1
  stranded i hi := by
    have hi' : i ∈ u.stranded := by
      unfold World.stranded at hi ⊢
      rwa [answered_taken, Finset.filter_congr fun j _ => by rw [(answered_slots j).1]] at hi
    obtain ⟨hnone, hnoted⟩ := h.stranded i hi'
    rw [(answered_slots i).1]
    exact ⟨hnone, hnoted.mono answered_listeners.ge fun j _ => answered_history j⟩

lemma Accounted.take (h : Accounted boot u) (ht : Table u free) (hl : l ∈ u.listeners)
    (hi : i ∈ free) (hsome : u.freeConnections = some i) (hnew : a.fd ∉ u.openFds)
    (hissued : w.issued = insert i u.issued)
    (hothers : ∀ j ≠ i, w.slots j = (u.answered l a rest).slots j)
    (hopen : w.openFds = insert a.fd u.openFds)
    (hself : (w.slots i).read.accepted = false ∧ (w.slots i).conn.destroyed = false ∧
      (w.slots i).conn.fd = a.fd)
    (hp : u.poolShare i = ∅ → (∀ j ≠ i, w.poolShare j = u.poolShare j) →
      Owned w.livePools w.poolShare)
    (hlost : (w.slots i).conn.listening = none →
      (w.slots i).conn.tempPool = none ∧ (a.pool && a.tempPool) = false) : Accounted boot w := by
  obtain ⟨-, haccl, -⟩ := mem_listeners.mp hl
  have hil : i ≠ l := fun he => ht.notMem_listeners_free hi (he ▸ hl)
  have hlself : w.slots l = heard { (u.slots l).wire with
      accepts := rest, history := (u.slots l).wire.history ++ [.accept a true] } (u.slots l) := by
    rw [hothers l hil.symm, answered, slots_hear, if_pos rfl, hsome]
    rfl
  have hgoes : ∀ j ≠ i, (u.slots j).Goes (w.slots j) := fun j hj => by
    by_cases hjl : j = l
    · rw [hjl, hlself]
      exact Slot.heard_goes (List.prefix_append _ _)
        ((unslotted_concat _ a true).trans (List.append_nil _))
    · rw [hothers j hj, answered, slots_hear, if_neg hjl]
      exact .refl _
  have hbeside : Beside {i} u w := by
    refine ⟨fun j hj => ?_, fun j hj _ => hgoes j hj⟩
    rw [hissued]
    exact Finset.mem_insert.trans (or_iff_right hj)
  have hS : Unlistened {i} u w := by
    rintro j rfl
    exact ⟨ht.notMem_listeners_free hi, notMem_listeners hself.1⟩
  have hnot : i ∉ u.taken := ht.notMem_taken hi
  have hmem : i ∈ w.taken :=
    mem_taken.mpr ⟨hissued ▸ Finset.mem_insert_self _ _, hself.1, hself.2.1⟩
  refine h.beside hbeside hS (hp (if_neg hnot) fun j hj => hbeside.poolShare hj) ?_ ?_
  · rw [hopen]
    refine h.fds.acquire (i := some i) hnew ?_ fun o ho => ?_
    · simp only [fdShare, if_pos hmem, if_neg hnot, hself.2.2]
      rfl
    · cases o with
      | none => simp only [fdShare, hbeside.unslotted hS]
      | some j => exact hbeside.fdShare fun he => ho (congrArg some he)
  · rintro j rfl hm
    obtain ⟨hnone, hfail⟩ := hlost (Finset.mem_filter.mp hm).2
    refine ⟨hnone, l, ?_, a, ?_, hfail, hself.2.2.symm⟩
    · rw [hbeside.listeners hS]
      exact hl
    · rw [hlself]
      show _ ∈ (u.slots l).wire.history ++ [Obs.accept a true]
      simp

lemma World.Table.nextPool_notMem (h : Table w free) : w.nextPool ∉ w.livePools := fun hm =>
  (h.poolsLt _ hm).false

lemma poolShare_taken (hissued : w.issued = insert i u.issued)
    (ha : (w.slots i).read.accepted = false) (hd : (w.slots i).conn.destroyed = false) :
    w.poolShare i = (w.slots i).pools.toFinset :=
  if_pos (mem_taken.mpr ⟨hissued ▸ Finset.mem_insert_self _ _, ha, hd⟩)

lemma Accounted.noPool (h : Accounted boot u) (ht : Table u free) (hl : l ∈ u.listeners)
    (hi : i ∈ free) (hsome : u.freeConnections = some i) (hnew : a.fd ∉ u.openFds)
    (hp : a.pool = false) (next : Option ℕ) :
    Accounted boot ((u.answered l a rest).handOut i next a.fd) := by
  set y := (u.answered l a rest).handOut i next a.fd with hy
  have hself : y.slots i = freshSlot a.fd := by rw [hy, handOut_self]
  have hothers : ∀ j ≠ i, y.slots j = (u.answered l a rest).slots j := fun j hj => by
    rw [hy, handOut_of_ne hj]
  refine h.take ht hl hi hsome hnew rfl hothers rfl (by rw [hself]; exact ⟨rfl, rfl, rfl⟩)
    (fun hempty hother => ?_) fun _ => ⟨by rw [hself]; rfl, by simp [hp]⟩
  have hsame : y.poolShare = u.poolShare := funext fun j => by
    by_cases hj : j = i
    · rw [hj, hempty, poolShare_taken rfl (by rw [hself]; rfl) (by rw [hself]; rfl), hself]
      rfl
    · exact hother j hj
  rw [hsame]
  exact h.pools

lemma Accounted.onePool (h : Accounted boot u) (ht : Table u free) (hl : l ∈ u.listeners)
    (hi : i ∈ free) (hsome : u.freeConnections = some i) (hnew : a.fd ∉ u.openFds)
    (hq : a.tempPool = false) (next : Option ℕ) :
    Accounted boot (((u.answered l a rest).handOut i next a.fd).withPool i) := by
  set y := (u.answered l a rest).handOut i next a.fd with hy
  have hself : (y.withPool i).slots i = { freshSlot a.fd with
      conn := { Connection.zero a.fd with pool := some u.nextPool } } := by
    rw [slots_withPool, if_pos rfl, hy, handOut_self]
    rfl
  have hothers : ∀ j ≠ i, (y.withPool i).slots j = (u.answered l a rest).slots j :=
    fun j hj => by rw [slots_withPool, if_neg hj, hy, handOut_of_ne hj]
  refine h.take ht hl hi hsome hnew rfl hothers rfl (by rw [hself]; exact ⟨rfl, rfl, rfl⟩)
    (fun hempty hother => ?_) fun _ => ⟨by rw [hself]; rfl, by simp [hq]⟩
  refine h.pools.acquire (i := i) ht.nextPool_notMem ?_ hother
  rw [hempty, poolShare_taken rfl (by rw [hself]; rfl) (by rw [hself]; rfl), hself]
  rfl

lemma Accounted.bothPools (h : Accounted boot u) (ht : Table u free) (hl : l ∈ u.listeners)
    (hi : i ∈ free) (hsome : u.freeConnections = some i) (hnew : a.fd ∉ u.openFds)
    (next : Option ℕ) (ls : ℕ) :
    Accounted boot (((u.answered l a rest).handOut i next a.fd).established i ls) := by
  set y := (u.answered l a rest).handOut i next a.fd with hy
  have hslots := @slots_established y i ls a.fd (by rw [hy, handOut_self])
  have hself : (y.established i ls).slots i =
      acceptedSlot a.fd ls u.nextPool (u.nextPool + 1) y.nevents := by
    rw [hslots, if_pos rfl]
    rfl
  have hothers : ∀ j ≠ i, (y.established i ls).slots j = (u.answered l a rest).slots j :=
    fun j hj => by rw [hslots, if_neg hj, hy, handOut_of_ne hj]
  refine h.take ht hl hi hsome hnew rfl hothers rfl (by rw [hself]; exact ⟨rfl, rfl, rfl⟩)
    (fun hempty hother => ?_) fun hnone => ?_
  · -- one pool after the other
    have hone : Owned (insert u.nextPool u.livePools)
        (Function.update u.poolShare i {u.nextPool}) :=
      h.pools.acquire (i := i) ht.nextPool_notMem (by simp [hempty])
        fun j hj => Function.update_of_ne hj _ _
    refine hone.acquire (i := i) (r := u.nextPool + 1) (fun hm => ?_) ?_ fun j hj => ?_
    · rcases Finset.mem_insert.mp hm with hm | hm
      · exact absurd hm (Nat.succ_ne_self _)
      · exact absurd (ht.poolsLt _ hm) (by omega)
    · rw [poolShare_taken rfl (by rw [hself]; rfl) (by rw [hself]; rfl), hself,
        Function.update_self]
      ext p
      simp [Slot.pools, acceptedSlot, or_comm]
    · rw [Function.update_of_ne hj, hother j hj]
  · rw [hself] at hnone
    cases hnone

end

/-- `xdbd_event_accept` on a listening connection. -/
theorem Accounted.accept (h : Accounted boot u) (ht : Table u free) (hl : l ∈ u.listeners)
    (hok : u.eventAccept l = .ok v) : Accounted boot v := by
  obtain ⟨hissued, hacc, -⟩ := mem_listeners.mp hl
  have hcase := ht.acceptCall ⟨hissued, fun hf => ht.notMem_listeners_free hf hl⟩ hacc
  rw [hok] at hcase
  cases hcase with
  | silent x hx _ => exact h.hear hx
  | full _ _ hnew hfull => exact h.unslotted hl hfull hnew
  | noPool hs hp => exact h.noPool ht hl hs.mem hs.first hs.new hp _
  | onePool hs _ hq => exact h.onePool ht hl hs.mem hs.first hs.new hq _
  | established hs => exact h.bothPools ht hl hs.mem hs.first hs.new _ _

/-! ## Start-up -/

namespace World

lemma openListeningSocket_fds {e : SocketResult} {ls : Listening}
    (hok : w.openListeningSocket e = (.ok, ls, w')) :
    e.fd ∉ w.openFds ∧ w'.openFds = insert e.fd w.openFds ∧ w'.listening = w.listening ∧
      ls.fd = e.listening := by
  unfold World.openListeningSocket at hok
  split_ifs at hok with hbad hnb hbind hlisten <;> cases hok <;>
    exact ⟨fun hm => hbad (.inr hm), rfl, rfl, by simp_all [SocketResult.listening]⟩

lemma openListeningSockets_fds {es : List SocketResult}
    (hok : w.openListeningSockets es = (.ok, w')) :
    w'.openFds = w.openFds ∪ (es.map SocketResult.fd).toFinset ∧
      w'.openFds.card = w.openFds.card + es.length ∧
        w'.listening.map Listening.fd =
          w.listening.map Listening.fd ++ es.map SocketResult.listening := by
  induction es generalizing w with
  | nil =>
    obtain rfl : w = w' := (Prod.ext_iff.mp hok).2
    simp
  | cons e es ih =>
    obtain ⟨ls, v, hone, hrest⟩ := openListeningSockets_cons hok
    obtain ⟨hnew, hopen, hls, hfd⟩ := openListeningSocket_fds hone
    obtain ⟨hfds, hcard, hlisten⟩ := ih hrest
    change w'.openFds = v.openFds ∪ _ at hfds
    change w'.openFds.card = v.openFds.card + _ at hcard
    refine ⟨?_, ?_, ?_⟩
    · rw [hfds, hopen]
      ext s
      simp only [List.map_cons, List.toFinset_cons, Finset.mem_union, Finset.mem_insert]
      tauto
    · rw [hcard, hopen, Finset.card_insert_of_notMem hnew, List.length_cons]
      omega
    · rw [hlisten, hls]
      simp [hfd]

lemma Registering.fresh {S : ℤ → Prop} {rest : List Listening} {k : ℕ}
    (h : Registering S rest w free) (hpast : ∀ i ∈ w.issued, (w.slots i).wire.history = [])
    (hok : registerListening k rest w = .ok (.ok, w')) :
    (∀ i ∈ w'.issued, (w'.slots i).wire.history = []) ∧
      w'.issued.card = w.issued.card + rest.length ∧ w'.livePools = w.livePools ∧
        w'.connectionN = w.connectionN ∧ (w'.issued.image fun i => (w'.slots i).conn.fd) =
          (w.issued.image fun i => (w.slots i).conn.fd) ∪ (rest.map Listening.fd).toFinset := by
  induction rest generalizing w free k with
  | nil =>
    obtain rfl : w = w' := (Prod.ext_iff.mp (Except.ok.inj hok)).2
    exact ⟨hpast, rfl, rfl, rfl, by simp⟩
  | cons ls rest ih =>
    obtain ⟨i, free', next, L, rfl, hchain, hrest⟩ := registerListening_cons h.idle.table hok
    have hnew : i ∉ w.issued := fun hi => (h.listeners i hi).1 (by simp)
    have hslots := @slots_listened w i k next ls.fd
    obtain ⟨hp, hcard, hlive, hsize, himage⟩ := ih (h.next hchain L) (fun j hj => by
      show ((((w.handOut i next ls.fd).modSlot i (listen k)).entered (.read i)
        .read).slots j).wire.history = []
      rw [hslots]
      split_ifs with hji
      · rfl
      · exact hpast j ((Finset.mem_insert.mp hj).resolve_left hji)) hrest
    refine ⟨hp, hcard.trans ?_, hlive, hsize, himage.trans ?_⟩
    · show (insert i w.issued).card + _ = _
      rw [Finset.card_insert_of_notMem hnew, List.length_cons]
      omega
    · show ((insert i w.issued).image fun j => ((((w.handOut i next ls.fd).modSlot i
        (listen k)).entered (.read i) .read).slots j).conn.fd) ∪ _ = _
      simp only [hslots, Finset.image_insert, if_true]
      have hothers : (w.issued.image fun j => (if j = i then listeningSlot ls.fd k w.nevents
          else w.slots j).conn.fd) = w.issued.image fun j => (w.slots j).conn.fd :=
        Finset.image_congr fun j hj => congrArg (fun s : Slot => s.conn.fd)
          (if_neg fun he : j = i => hnew (he ▸ Finset.mem_coe.mp hj))
      rw [hothers]
      ext s
      simp only [List.map_cons, List.toFinset_cons, Finset.mem_union, Finset.mem_insert]
      rw [show (listeningSlot ls.fd k w.nevents).conn.fd = ls.fd from rfl]
      tauto

end World

theorem Started.accounts (h : Started boot w) : Accounted boot w ∧
    boot.descriptors.card = boot.openFds.card + boot.entries.length ∧
      w.connectionN = boot.connectionN := by
  obtain ⟨u, v, hsock, hready, hls, hopen, -, hlive, hrun⟩ := h.registers
  have hopened := (Opened.blank boot).openListeningSockets hsock
  have hstart := hready.registering (S := fun _ => True) hopened hls hopen fun _ _ => trivial
  have hnone : ∀ i ∈ v.issued, (v.slots i).wire.history = [] := fun i hi =>
    absurd (hready.issued ▸ hi) (Finset.notMem_empty i)
  obtain ⟨⟨free, hend⟩, -, hopen'⟩ := hstart.run hrun
  obtain ⟨hpast, hcard, hlive', hsize, himage⟩ := hstart.fresh hnone hrun
  obtain ⟨hfds, hcount, hsockets⟩ := openListeningSockets_fds hsock
  have hdesc : w.openFds = boot.descriptors := hopen'.trans (hopen.trans hfds)
  have hlisten : w.listeners = w.issued := by
    refine Finset.filter_true_of_mem fun i hi => ⟨(hend.listeners i hi).2, ?_⟩
    exact (hend.idle.table.entry i ⟨hi, (hend.listeners i hi).1⟩).alive
  have htaken : ∀ i, i ∉ w.taken := fun i hi => by
    obtain ⟨hissued, hacc, -⟩ := mem_taken.mp hi
    rw [(hend.listeners i hissued).2] at hacc
    cases hacc
  have hunslotted : w.unslotted = ∅ := by
    refine Finset.eq_empty_of_forall_notMem fun s hs => ?_
    obtain ⟨l, hl, hs⟩ := Finset.mem_biUnion.mp hs
    unfold Slot.unslotted at hs
    rw [hpast l (mem_listeners.mp hl).1] at hs
    simp at hs
  refine ⟨⟨?_, ?_, by simp [hunslotted], ?_, ?_,
    fun i hi => absurd (Finset.mem_filter.mp hi).1 (htaken i)⟩, ?_,
      hsize.trans hready.connectionN⟩
  · rw [hlive', hlive]
    exact .empty fun i => if_neg (htaken i)
  · refine .sole (i := none) ?_ fun o ho => ?_
    · rw [hdesc, fdShare, hunslotted, Finset.union_empty]
    · cases o with
      | none => exact absurd rfl ho
      | some i => exact if_neg (htaken i)
  · have hlen := congrArg List.length hsockets
    rw [hlisten, hcard, hready.issued, hls]
    simpa [blank] using hlen
  · unfold World.sockets Boot.sockets
    rw [hlisten, himage, hready.issued, hls, hsockets]
    simp [blank]
  · rw [← hdesc, hopen', hopen, hcount]
    rfl

/-! ## Runs -/

lemma Accounted.delete (h : Accounted boot w) (k : ℕ) :
    Accounted boot (w.deletePostedEvent (.read k)) := by
  refine h.steady ⟨fun _ _ => Iff.rfl, fun j _ _ => ?_⟩ rfl rfl
  rw [slots_deletePostedEvent]
  split_ifs with hj
  · rw [hj]
    exact .of_eq rfl rfl rfl
  · exact .refl _

lemma World.beside_feed (w : World) (k : ℕ) (x : Script) : Beside ∅ w (w.feed k x) := by
  refine ⟨fun _ _ => Iff.rfl, fun j _ _ => ?_⟩
  rw [slots_feed]
  split_ifs with hj
  · rw [hj]
    exact .of_eq rfl rfl rfl
  · exact .refl _

lemma Accounted.feed (h : Accounted boot w) (k : ℕ) (x : Script) :
    Accounted boot (w.feed k x) := h.steady (w.beside_feed k x) rfl rfl

lemma World.Idle.beside_select (h : Idle w free) {kernel : Kernel} (hk : Allowed w kernel) :
    Beside ∅ w (w.selectProcessEvents kernel).2 := by
  have hsel := h.selected hk
  generalize (w.selectProcessEvents kernel).2 = v at hsel
  cases hsel with
  | failed _ hslots hissued _ _ =>
    exact ⟨fun j _ => by rw [hissued], fun j _ _ => by rw [hslots]; exact .refl _⟩
  | @ready n readSet writeSet _ _ =>
    refine ⟨fun j _ => by rw [← w.issued_refreshMaxFd]; rfl, fun j _ _ => ?_⟩
    rw [slots_scanned, w.slots_refreshMaxFd]
    exact .of_eq rfl (by dsimp only; split_ifs <;> rfl) rfl

lemma World.Idle.select_sizes (h : Idle w free) {kernel : Kernel} (hk : Allowed w kernel) :
    (w.selectProcessEvents kernel).2.openFds = w.openFds ∧
      (w.selectProcessEvents kernel).2.connectionN = w.connectionN := by
  have hsame : w.refreshMaxFd.openFds = w.openFds ∧
      w.refreshMaxFd.connectionN = w.connectionN := by
    obtain ⟨m, hm⟩ := w.refreshMaxFd_eq
    simp [hm]
  cases hsel : kernel.select w.nfds w.masterRead w.masterWrite with
  | fail ebadf =>
    rw [selectProcessEvents_fail hsel]
    cases ebadf <;> exact hsame
  | ready n readSet writeSet =>
    by_cases hn : n = 0
    · rw [hn] at hsel
      rw [selectProcessEvents_zero hsel]
      exact hsame
    · rw [h.table.registry.selectProcessEvents h.table.distinctFds h.table.dirFlags
        hk.ready hn hsel]
      exact hsame

lemma Accounted.select (h : Accounted boot w) (hidle : Idle w free) {kernel : Kernel}
    (hk : Allowed w kernel) : Accounted boot (w.selectProcessEvents kernel).2 := by
  have hopen := (hidle.select_sizes hk).1
  have hbeside := hidle.beside_select hk
  have hsel := hidle.selected hk
  generalize (w.selectProcessEvents kernel).2 = v at hbeside hsel hopen ⊢
  refine h.steady hbeside ?_ hopen
  cases hsel with
  | failed _ _ _ _ hpools => exact hpools.1
  | ready _ _ => exact w.pools_refreshMaxFd.1

lemma Accounted.calling {ev : Ev} (hcall : Calling u ev v) (h : Accounted boot u) :
    Accounted boot v := by
  obtain ⟨⟨free, hb⟩, hev, x, hok, rfl⟩ := hcall
  rcases List.mem_append.mp hev with hA | hP
  · obtain ⟨l, rfl, hl, hacc⟩ := hb.accepts _ hA
    have hentry := hb.table.entry l hl
    have hh : (u.event (.read l)).handler = some .eventAccept := (hentry.listener hacc).1
    have hok' : u.eventAccept l = .ok x := by
      unfold callHandler at hok
      rw [hh] at hok
      exact hok
    exact (h.accept hb.table (mem_listeners.mpr ⟨hl.1, hacc, hentry.alive⟩) hok').delete l
  · obtain ⟨i, rfl, hp, hi, -⟩ := hb.others _ hP
    obtain ⟨-, hd, hhd, hframe, -, -⟩ := hb.handler hP hok
    have hrun : Prog.run (World.exec i) (code hd) u = .ok ((), x) := by
      unfold callHandler at hok
      rw [show (u.event (.read i)).handler = some (.adb hd) from hhd] at hok
      change (Prog.run (World.exec i) (code hd) u).map Prod.snd = .ok x at hok
      cases hr : Prog.run (World.exec i) (code hd) u with
      | error e =>
        rw [hr] at hok
        cases hok
      | ok r =>
        rw [hr] at hok
        obtain rfl : r.2 = x := Except.ok.inj hok
        rfl
    exact (h.handler hb.table hp hi hframe (hb.table.shut hp hi hrun)).delete i

theorem Run.accounted (h : Run boot w) : Accounted boot w := by
  induction h with
  | start started => exact started.accounts.1
  | step prior next ih =>
    obtain ⟨free, hidle⟩ := prior.idle
    cases next with
    | feed i x => exact ih.feed i x
    | turn kernel allowed finished =>
      exact (hidle.calls allowed finished).preserves Accounted.calling (ih.select hidle allowed)

theorem Run.connectionN (h : Run boot w) : w.connectionN = boot.connectionN := by
  have hinv : RunInvariant boot fun w => w.connectionN = boot.connectionN :=
    { accept := fun hj _ _ hacc => hacc.connectionN.trans hj
      handler := fun hj _ _ _ hframe _ => hframe.connectionN.trans hj
      start := fun hs => hs.accounts.2.2
      feed := fun _ _ hj => hj
      select := fun hj hidle hk => (hidle.select_sizes hk).2.trans hj }
  exact (hinv.holds h).2

/-- Each live pool and each descriptor that came with an `accept` and its slot has one holder, what
a slot holds is live, and no two slots hold the same descriptor. -/
theorem Run.owners (h : Run boot w) :
    (∀ p ∈ w.livePools, ∃! i, i ∈ w.taken ∧ p ∈ (w.slots i).pools) ∧
      (∀ i ∈ w.taken, (∀ p ∈ (w.slots i).pools, p ∈ w.livePools) ∧
        (w.slots i).conn.fd ∈ w.openFds ∧ (w.slots i).conn.fd ∉ boot.descriptors ∧
          (w.slots i).conn.fd ∉ w.unslotted) ∧
      (∀ i ∈ w.taken, ∀ j ∈ w.taken, (w.slots i).conn.fd = (w.slots j).conn.fd → i = j) ∧
      ∀ s ∈ w.openFds, s ∉ boot.descriptors → s ∉ w.unslotted →
        ∃! i, i ∈ w.taken ∧ (w.slots i).conn.fd = s := by
  have hacc := h.accounted
  have hheld : ∀ i ∈ w.taken, (w.slots i).conn.fd ∈ w.fdShare boot (some i) := fun i hi =>
    mem_fdShare.mpr ⟨hi, rfl⟩
  refine ⟨fun p hp => ?_, fun i hi => ⟨fun p hp => ?_, ?_⟩, fun i hi j hj hij => ?_,
    fun s hs hboot hun => ?_⟩
  · obtain ⟨i, hi, hone⟩ := hacc.pools.sole_owner hp
    refine ⟨i, mem_poolShare.mp hi, fun j hj => hone j (mem_poolShare.mpr hj)⟩
  · exact (hacc.pools.mem p).mpr ⟨i, mem_poolShare.mpr ⟨hi, hp⟩⟩
  · have hnone : (w.slots i).conn.fd ∉ w.fdShare boot none := fun hm =>
      absurd (hacc.fds.owner_unique (hheld i hi) hm) (Option.some_ne_none i)
    rw [fdShare, Finset.mem_union, not_or] at hnone
    exact ⟨(hacc.fds.mem _).mpr ⟨some i, hheld i hi⟩, hnone⟩
  · exact Option.some.inj (hacc.fds.owner_unique (hheld i hi) (hij ▸ hheld j hj))
  · obtain ⟨o, ho, hone⟩ := hacc.fds.sole_owner hs
    cases o with
    | none => exact absurd ho (by simp [fdShare, hboot, hun])
    | some i =>
      exact ⟨i, mem_fdShare.mp ho, fun j hj =>
        Option.some.inj (hone (some j) (mem_fdShare.mpr hj))⟩

theorem Run.owners_two :
    (∀ p ∈ twoClients.livePools, ∃! i, i ∈ twoClients.taken ∧ p ∈ (twoClients.slots i).pools) ∧
      (∀ i ∈ twoClients.taken, (∀ p ∈ (twoClients.slots i).pools, p ∈ twoClients.livePools) ∧
        (twoClients.slots i).conn.fd ∈ twoClients.openFds ∧
          (twoClients.slots i).conn.fd ∉ (Boot.single 3 3).descriptors ∧
            (twoClients.slots i).conn.fd ∉ twoClients.unslotted) ∧
      (∀ i ∈ twoClients.taken, ∀ j ∈ twoClients.taken,
        (twoClients.slots i).conn.fd = (twoClients.slots j).conn.fd → i = j) ∧
      ∀ s ∈ twoClients.openFds, s ∉ (Boot.single 3 3).descriptors → s ∉ twoClients.unslotted →
        ∃! i, i ∈ twoClients.taken ∧ (twoClients.slots i).conn.fd = s :=
  Run.owners run_twoClients

/-! ## The balance -/

lemma World.Table.inUse_card (h : Table w free) :
    w.connectionN = w.freeConnectionN + w.listeners.card + w.taken.card := by
  have hdisj : Disjoint w.listeners w.taken := Finset.disjoint_left.mpr fun i hl ht =>
    notMem_listeners (mem_taken.mp ht).2.1 hl
  have hrange : Finset.range w.connectionN = free.toFinset ∪ (w.listeners ∪ w.taken) := by
    ext i
    rw [Finset.mem_range, Finset.mem_union, List.mem_toFinset, Finset.mem_union, mem_listeners,
      mem_taken]
    constructor
    · intro hi
      by_cases hf : i ∈ free
      · exact .inl hf
      · have hissued : i ∈ w.issued := by
          by_contra hn
          exact hf (h.unissued i hi hn)
        have halive := (h.entry i ⟨hissued, hf⟩).alive
        cases hacc : (w.slots i).read.accepted with
        | true => exact .inr (.inl ⟨hissued, rfl, halive⟩)
        | false => exact .inr (.inr ⟨hissued, rfl, halive⟩)
    · rintro (hf | ⟨hi, -⟩ | ⟨hi, -⟩)
      · exact h.inTable i (.inl hf)
      · exact h.inTable i (.inr hi)
      · exact h.inTable i (.inr hi)
  have hfree : Disjoint free.toFinset (w.listeners ∪ w.taken) := by
    rw [Finset.disjoint_union_right]
    exact ⟨Finset.disjoint_left.mpr fun i hf => h.notMem_listeners_free (List.mem_toFinset.mp hf),
      Finset.disjoint_left.mpr fun i hf => h.notMem_taken (List.mem_toFinset.mp hf)⟩
  have hcard := congrArg Finset.card hrange
  rw [Finset.card_range, Finset.card_union_of_disjoint hfree, Finset.card_union_of_disjoint hdisj,
    List.toFinset_card_of_nodup h.nodup, ← h.count] at hcard
  omega

lemma World.taken_card (w : World) : w.taken.card = w.connected.card + w.stranded.card := by
  have hsplit := w.taken.card_filter_add_card_filter_not fun i => (w.slots i).conn.listening ≠ none
  simp only [not_not] at hsplit
  exact hsplit.symm

lemma Run.started (h : Run boot w) : ∃ u, Started boot u := by
  induction h with
  | start started => exact ⟨_, started⟩
  | step prior next ih => exact ih

lemma Accounted.fds_card (h : Accounted boot w) :
    w.openFds.card = boot.descriptors.card + w.unslotted.card + w.taken.card := by
  have hsum := h.fds.card (s := Finset.insertNone w.taken) fun o ho => by
    cases o with
    | none => exact absurd (Finset.none_mem_insertNone) ho
    | some i => exact if_neg fun hm => ho (Finset.some_mem_insertNone.mpr hm)
  have hone : ∀ i ∈ w.taken, (w.fdShare boot (some i)).card = 1 := fun i hi => by
    simp only [fdShare, if_pos hi, Finset.card_singleton]
  rw [hsum, Finset.sum_insertNone, Finset.sum_congr rfl hone]
  simp [fdShare, Finset.card_union_of_disjoint h.apart]

lemma Accounted.fds_eq (h : Accounted boot w) :
    w.openFds = boot.descriptors ∪ w.unslotted ∪ w.taken.image fun i => (w.slots i).conn.fd := by
  ext s
  rw [h.fds.mem, Option.exists, Finset.mem_union, Finset.mem_image]
  refine or_congr Iff.rfl (exists_congr fun i => ?_)
  exact mem_fdShare

lemma Accounted.pools_eq (h : Accounted boot w) :
    w.livePools = w.taken.biUnion fun i => (w.slots i).pools.toFinset := by
  rw [h.pools.eq_biUnion (s := w.taken) fun i hi => if_neg hi]
  exact Finset.biUnion_congr rfl fun i hi => if_pos hi

lemma Accounted.pools_card (h : Accounted boot w) (ht : Table w free) :
    w.livePools.card = 2 * w.connected.card + w.halfPooled.card := by
  have hsum := h.pools.card (s := w.taken) fun i hi => if_neg hi
  rw [← Finset.sum_filter_add_sum_filter_not w.taken
    fun i => (w.slots i).conn.listening ≠ none] at hsum
  simp only [not_not] at hsum
  change _ = ∑ i ∈ w.connected, _ + ∑ i ∈ w.stranded, _ at hsum
  have htwo : ∀ i ∈ w.connected, (w.poolShare i).card = 2 := fun i hi => by
    obtain ⟨hm, hl⟩ := Finset.mem_filter.mp hi
    obtain ⟨hissued, hacc, -⟩ := mem_taken.mp hm
    have hout := (ht.taken_inUse hm).2
    obtain ⟨-, -, -, hpool, htemp, -⟩ := ht.peer_entry ⟨hissued, hacc, hl⟩ hout
    obtain ⟨p, hp⟩ := Option.ne_none_iff_exists'.mp hpool
    obtain ⟨q, hq⟩ := Option.ne_none_iff_exists'.mp htemp
    rw [poolShare, if_pos hm,
      List.toFinset_card_of_nodup (ht.entry i ⟨hissued, hout⟩).nodup]
    simp [Slot.pools, hp, hq]
  have hone : ∀ i ∈ w.stranded,
      (w.poolShare i).card = if (w.slots i).conn.pool ≠ none then 1 else 0 := fun i hi => by
    obtain ⟨hnone, -⟩ := h.stranded i hi
    rw [poolShare, if_pos (Finset.mem_filter.mp hi).1]
    unfold Slot.pools
    rw [hnone]
    cases (w.slots i).conn.pool <;> simp
  rw [hsum, Finset.sum_congr rfl htwo, Finset.sum_congr rfl hone, Finset.sum_const, smul_eq_mul,
    mul_comm, halfPooled, Finset.card_filter]

lemma Run.counted (h : Run boot w) :
    w.connectionN = w.freeConnectionN + boot.entries.length + w.taken.card ∧
      w.openFds.card =
        boot.openFds.card + boot.entries.length + w.unslotted.card + w.taken.card := by
  obtain ⟨free, hidle⟩ := h.idle
  obtain ⟨u, hu⟩ := h.started
  have hacc := h.accounted
  have hslots := hidle.table.inUse_card
  have hfds := hacc.fds_card
  have hdesc := hu.accounts.2.1
  rw [hacc.listeners] at hslots
  exact ⟨hslots, by omega⟩

/-- Slots, descriptors and pools are those of the entries, of the open sessions and of the
`accept`s that came to nothing. -/
theorem Run.balance (h : Run boot w) :
    w.connectionN =
        w.freeConnectionN + boot.entries.length + w.connected.card + w.stranded.card ∧
      w.openFds.card = boot.openFds.card + boot.entries.length + w.unslotted.card +
        w.connected.card + w.stranded.card ∧
      w.livePools.card = 2 * w.connected.card + w.halfPooled.card := by
  obtain ⟨free, hidle⟩ := h.idle
  have hcounted := h.counted
  have htaken := w.taken_card
  exact ⟨by omega, by omega, h.accounted.pools_card hidle.table⟩

theorem Run.balance_two :
    twoClients.connectionN = twoClients.freeConnectionN + 1 + twoClients.connected.card +
        twoClients.stranded.card ∧
      twoClients.openFds.card = 3 + 1 + twoClients.unslotted.card + twoClients.connected.card +
        twoClients.stranded.card ∧
      twoClients.livePools.card = 2 * twoClients.connected.card + twoClients.halfPooled.card :=
  Run.balance run_twoClients

/-- Each `accept` has found a slot and got its pools. -/
def World.Served (w : World) : Prop :=
  ∀ l ∈ w.listeners, ∀ o ∈ (w.slots l).wire.history, o.served = true

instance (w : World) : Decidable w.Served :=
  inferInstanceAs (Decidable (∀ l ∈ w.listeners, ∀ o ∈ (w.slots l).wire.history, o.served = true))

lemma Run.all_served (h : Run boot w) (hserved : w.Served) :
    w.stranded = ∅ ∧ w.unslotted = ∅ := by
  refine ⟨Finset.eq_empty_of_forall_notMem fun i hi => ?_,
    Finset.eq_empty_of_forall_notMem fun s hs => ?_⟩
  · obtain ⟨-, l, hl, a, ha, hfail, -⟩ := h.accounted.stranded i hi
    have hboth := hserved l hl _ ha
    simp [Obs.served, hfail] at hboth
  · obtain ⟨l, hl, hs⟩ := Finset.mem_biUnion.mp hs
    obtain ⟨o, ho, hos⟩ := List.mem_filterMap.mp (List.mem_toFinset.mp hs)
    unfold Obs.unslotted at hos
    split at hos
    · exact absurd (hserved l hl _ ho) Bool.false_ne_true
    · cases hos

lemma World.taken_eq_connected (h : w.stranded = ∅) : w.taken = w.connected := by
  refine (Finset.filter_true_of_mem fun i hi hl => ?_).symm
  exact Finset.notMem_empty i (h ▸ Finset.mem_filter.mpr ⟨hi, hl⟩)

/-- When each `accept` has found a slot and got its pools, everything is with the open sessions. -/
theorem Run.nothing_lost (h : Run boot w)
    (hserved : w.Served) :
    (w.connectionN = w.freeConnectionN + boot.entries.length + w.connected.card ∧
        w.openFds.card = boot.openFds.card + boot.entries.length + w.connected.card ∧
        w.livePools.card = 2 * w.connected.card) ∧
      w.openFds = boot.descriptors ∪ w.connected.image (fun i => (w.slots i).conn.fd) ∧
      w.livePools = w.connected.biUnion fun i => (w.slots i).pools.toFinset := by
  obtain ⟨hstranded, hunslotted⟩ := h.all_served hserved
  have hbalance := h.balance
  have hhalf : w.halfPooled = ∅ := by
    unfold halfPooled
    rw [hstranded]
    rfl
  have hfds := h.accounted.fds_eq
  have hpools := h.accounted.pools_eq
  rw [taken_eq_connected hstranded] at hfds hpools
  rw [hunslotted, Finset.union_empty] at hfds
  simp only [hstranded, hunslotted, hhalf, Finset.card_empty, add_zero] at hbalance
  exact ⟨hbalance, hfds, hpools⟩

theorem Run.nothing_lost_two :
    (twoClients.connectionN = twoClients.freeConnectionN + 1 + twoClients.connected.card ∧
        twoClients.openFds.card = 3 + 1 + twoClients.connected.card ∧
        twoClients.livePools.card = 2 * twoClients.connected.card) ∧
      twoClients.openFds = (Boot.single 3 3).descriptors ∪
        twoClients.connected.image (fun i => (twoClients.slots i).conn.fd) ∧
      twoClients.livePools =
        twoClients.connected.biUnion fun i => (twoClients.slots i).pools.toFinset :=
  Run.nothing_lost run_twoClients (by decide +kernel)

end Xdbd
