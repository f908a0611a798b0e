import Xdbd.Interaction
import Xdbd.Memory

/-!
# A heap

Chunks are handed out and taken back one by one. The allocator may refuse any request; where it
grants one, the chunk is apart from all chunks in use. Taking back an address that is not in use is
a fault, and so is a write outside the chunks in use.
-/

/-- The `size` addresses from `addr` on. -/
structure Span where
  addr : ℕ
  size : ℕ
  deriving DecidableEq, Repr

namespace Span
variable {r q c d : Span}

def stop (r : Span) : ℕ := r.addr + r.size

def Within (r c : Span) : Prop := c.addr ≤ r.addr ∧ r.stop ≤ c.stop

def Apart (r c : Span) : Prop := r.stop ≤ c.addr ∨ c.stop ≤ r.addr

instance : Decidable (r.Within c) := inferInstanceAs (Decidable (_ ∧ _))

lemma Apart.symm (h : r.Apart c) : c.Apart r := Or.symm h

lemma Apart.within (h : c.Apart d) (hr : r.Within c) (hq : q.Within d) : r.Apart q :=
  h.imp (fun h => (hr.2.trans h).trans hq.1) fun h => (hq.2.trans h).trans hr.1

end Span

/-- A span in use, with the number of the request that it answers. -/
structure Chunk extends Span where
  id : ℕ
  deriving DecidableEq, Repr

/-- No address in common; also empty chunks have addresses of their own. -/
def Chunk.Distinct (c d : Chunk) : Prop := c.addr ≠ d.addr ∧ c.toSpan.Apart d.toSpan

lemma Chunk.Distinct.symm {c d : Chunk} (h : c.Distinct d) : d.Distinct c :=
  ⟨h.1.symm, h.2.symm⟩

/-- The requests so far, the chunks in use and those taken back, latest first. -/
structure Heap where
  requests : ℕ
  live : List Chunk
  freed : List ℕ
  cells : ℕ → UInt8

namespace Heap
open Interaction

def empty : Heap := ⟨0, [], [], fun _ => 0⟩

def grant (h : Heap) (a n : ℕ) : Heap :=
  { h with requests := h.requests + 1, live := ⟨⟨a, n⟩, h.requests⟩ :: h.live }

def refuse (h : Heap) : Heap := { h with requests := h.requests + 1 }

def without (h : Heap) (a : ℕ) : List Chunk := h.live.filter fun c => c.addr ≠ a

def takeBack (h : Heap) (c : Chunk) : Heap :=
  { h with live := h.without c.addr, freed := c.id :: h.freed }

def free (h : Heap) (a : ℕ) : Option Heap := (h.live.find? fun c => c.addr = a).map h.takeBack

def zero (h : Heap) (r : Span) : Heap :=
  { h with cells := Block.write h.cells r.addr (List.replicate r.size 0) }

/-- An allocator: what it answers, and that it never hands out what is in use. -/
structure Malloc where
  answer : Heap → ℕ → Option ℕ
  fresh : ∀ {h : Heap} {n a : ℕ}, answer h n = some a →
    ∀ c ∈ h.live, c.addr ≠ a ∧ c.toSpan.Apart ⟨a, n⟩

inductive Op
  | malloc (n : ℕ)
  | free (a : ℕ)
  | zero (r : Span)
  | bug

abbrev Res : Op → Type
  | .malloc _ => Option ℕ
  | _ => Unit

inductive Fault
  | badFree (a : ℕ)
  | wild (r : Span)
  | bug
  deriving DecidableEq, Repr

def Malloc.exec (M : Malloc) : Prog.Interp Op Res Fault Heap
  | .malloc n, h =>
    match M.answer h n with
    | none => .ok (none, h.refuse)
    | some a => .ok (some a, h.grant a n)
  | .free a, h =>
    match h.free a with
    | none => .error (.badFree a)
    | some h => .ok ((), h)
  | .zero r, h => if ∃ c ∈ h.live, r.Within c.toSpan then .ok ((), h.zero r) else .error (.wild r)
  | .bug, _ => .error .bug

/-! ## Invariant -/

/-- The chunks in use are apart, and each request was answered by one chunk at most, which is either
in use or was taken back once. -/
structure Ok (h : Heap) : Prop where
  distinct : h.live.Pairwise Chunk.Distinct
  ids : (h.live.map Chunk.id ++ h.freed).Nodup
  bound : ∀ k ∈ h.live.map Chunk.id ++ h.freed, k < h.requests

variable {M : Malloc} {h t u : Heap} {c d : Chunk} {a n : ℕ}

lemma ok_empty : empty.Ok := ⟨.nil, .nil, fun _ hk => absurd hk List.not_mem_nil⟩

lemma Ok.freed_nodup (h : Ok t) : t.freed.Nodup := (List.nodup_append.mp h.ids).2.1

lemma Ok.id_lt (h : Ok t) (hc : c ∈ t.live) : c.id < t.requests :=
  h.bound _ (List.mem_append_left _ (List.mem_map_of_mem hc))

lemma Ok.not_freed (h : Ok t) (hc : c ∈ t.live) : c.id ∉ t.freed := fun hf =>
  (List.nodup_append.mp h.ids).2.2 _ (List.mem_map_of_mem hc) _ hf rfl

lemma Ok.eq_or_distinct (h : Ok t) (hc : c ∈ t.live) (hd : d ∈ t.live) : c = d ∨ c.Distinct d := by
  by_cases hcd : c = d
  · exact .inl hcd
  · have : Std.Symm Chunk.Distinct := ⟨fun _ _ => Chunk.Distinct.symm⟩
    exact .inr (h.distinct.forall hc hd hcd)

lemma Ok.eq_of_addr (h : Ok t) (hc : c ∈ t.live) (hd : d ∈ t.live) (ha : c.addr = d.addr) : c = d :=
  (h.eq_or_distinct hc hd).resolve_right fun hcd => hcd.1 ha

lemma Ok.eq_of_id (h : Ok t) (hc : c ∈ t.live) (hd : d ∈ t.live) (hid : c.id = d.id) : c = d :=
  List.inj_on_of_nodup_map (List.nodup_append.mp h.ids).1 hc hd hid

lemma Ok.head_distinct {cs : List Chunk} (h : Ok t) (hl : t.live = c :: cs) :
    ∀ x ∈ cs, c.Distinct x := by
  have hdis := h.distinct
  rw [hl] at hdis
  exact (List.pairwise_cons.mp hdis).1

lemma Ok.refuse (h : Ok t) : t.refuse.Ok :=
  ⟨h.distinct, h.ids, fun k hk => (h.bound k hk).trans (Nat.lt_succ_self _)⟩

lemma Ok.grant (h : Ok t) (ha : M.answer t n = some a) : (t.grant a n).Ok where
  distinct := List.pairwise_cons.mpr ⟨fun c hc =>
    ⟨(M.fresh ha c hc).1.symm, (M.fresh ha c hc).2.symm⟩, h.distinct⟩
  ids := List.nodup_cons.mpr ⟨fun hk => lt_irrefl _ (h.bound _ hk), h.ids⟩
  bound k hk := by
    rcases List.mem_cons.mp hk with rfl | hk
    · exact Nat.lt_succ_self _
    · exact (h.bound k hk).trans (Nat.lt_succ_self _)

lemma Ok.zero (h : Ok t) (r : Span) : (t.zero r).Ok := ⟨h.distinct, h.ids, h.bound⟩

@[simp] lemma mem_without : c ∈ h.without a ↔ c ∈ h.live ∧ c.addr ≠ a := by
  simp [without]

lemma find_addr (hc : (h.live.find? fun c => c.addr = a) = some c) : c ∈ h.live ∧ c.addr = a :=
  ⟨List.mem_of_find?_eq_some hc, by simpa using List.find?_some hc⟩

lemma Ok.free (h : Ok t) (hc : c ∈ t.live) : t.free c.addr = some (t.takeBack c) := by
  obtain ⟨d, hd⟩ : ∃ d, (t.live.find? fun d => d.addr = c.addr) = some d := by
    refine Option.isSome_iff_exists.mp (List.find?_isSome.mpr ⟨c, hc, ?_⟩)
    exact decide_eq_true rfl
  obtain rfl := h.eq_of_addr (find_addr hd).1 hc (find_addr hd).2
  unfold Heap.free
  rw [hd]
  rfl

lemma free_some (hf : h.free a = some t) : ∃ c ∈ h.live, c.addr = a := by
  obtain ⟨c, hc, -⟩ := Option.map_eq_some_iff.mp hf
  exact ⟨c, find_addr hc⟩

lemma Ok.takeBack (h : Ok t) (hc : c ∈ t.live) : (t.takeBack c).Ok where
  distinct := h.distinct.filter _
  ids := by
    obtain ⟨hlive, hfreed, hapart⟩ := List.nodup_append.mp h.ids
    have hsub : ((t.without c.addr).map Chunk.id).Sublist (t.live.map Chunk.id) :=
      List.filter_sublist.map _
    refine List.nodup_append.mpr ⟨hlive.sublist hsub, List.nodup_cons.mpr ⟨h.not_freed hc, hfreed⟩,
      fun k hk k' hk' => ?_⟩
    rcases List.mem_cons.mp hk' with rfl | hk'
    · obtain ⟨d, hd, rfl⟩ := List.mem_map.mp hk
      obtain ⟨hd, hne⟩ := mem_without.mp hd
      exact fun hid => hne (congrArg (fun x : Chunk => x.addr) (h.eq_of_id hd hc hid))
    · exact hapart k (hsub.subset hk) k' hk'
  bound k hk := by
    rcases List.mem_append.mp hk with hk | hk
    · obtain ⟨d, hd, rfl⟩ := List.mem_map.mp hk
      exact h.id_lt (mem_without.mp hd).1
    · rcases List.mem_cons.mp hk with rfl | hk
      · exact h.id_lt hc
      · exact h.bound k (List.mem_append_right _ hk)

theorem ok_preserved (M : Malloc) : Prog.Preserves M.exec Ok := by
  intro op h r t hh ho
  cases op with
  | malloc n =>
    rw [Malloc.exec] at ho
    split at ho
    · cases ho
      exact hh.refuse
    · rename_i ha
      cases ho
      exact hh.grant ha
  | free a =>
    rw [Malloc.exec] at ho
    split at ho
    · cases ho
    · rename_i hf
      cases ho
      obtain ⟨c, hc, rfl⟩ := free_some hf
      rw [hh.free hc] at hf
      cases hf
      exact hh.takeBack hc
  | zero r =>
    rw [Malloc.exec] at ho
    split at ho
    · cases ho
      exact hh.zero r
    · cases ho
  | bug => cases ho

/-! ## Rules -/

/-- A program that runs to its end, without a fault. -/
def total : Prog.Contract Heap := ⟨fun _ => True, fun _ => True, False⟩

variable {α : Type} {Q : α → Heap → Prop}

lemma malloc_rule {f : Option ℕ → Prog Op Res α}
    (hnone : Prog.Ensures M.exec total Q (f none) h.refuse)
    (hsome : ∀ a, M.answer h n = some a → Prog.Ensures M.exec total Q (f (some a)) (h.grant a n)) :
    Prog.Ensures M.exec total Q (Prog.ask (Op.malloc n) >>= f) h := by
  cases ha : M.answer h n with
  | none => exact .step trivial (t := h.refuse) (r := none) (by rw [Malloc.exec, ha]) fun _ => hnone
  | some a =>
    exact .step trivial (t := h.grant a n) (r := some a) (by rw [Malloc.exec, ha])
      fun _ => hsome a ha

lemma free_rule {f : Unit → Prog Op Res α} (ho : h.Ok) (hc : c ∈ h.live)
    (hf : Prog.Ensures M.exec total Q (f ()) (h.takeBack c)) :
    Prog.Ensures M.exec total Q (Prog.ask (Op.free c.addr) >>= f) h :=
  .step trivial (t := h.takeBack c) (r := ()) (by rw [Malloc.exec, ho.free hc]) fun _ => hf

lemma zero_rule {f : Unit → Prog Op Res α} {r : Span} (hc : c ∈ h.live) (hr : r.Within c.toSpan)
    (hf : Prog.Ensures M.exec total Q (f ()) (h.zero r)) :
    Prog.Ensures M.exec total Q (Prog.ask (Op.zero r) >>= f) h :=
  .step trivial (t := h.zero r) (r := ()) (by rw [Malloc.exec, if_pos ⟨c, hc, hr⟩]) fun _ => hf

lemma Ok.undone (ha : M.answer h n = some a) :
    ((h.grant a n).refuse.takeBack ⟨⟨a, n⟩, h.requests⟩).live = h.live := by
  have hne : ∀ c ∈ h.live, c.addr ≠ a := fun c hc => (M.fresh ha c hc).1
  show (⟨⟨a, n⟩, h.requests⟩ :: h.live).filter (fun c => c.addr ≠ a) = h.live
  rw [List.filter_cons_of_neg (by simp)]
  exact List.filter_eq_self.mpr fun c hc => decide_eq_true (hne c hc)

/-! ## Lists of chunks -/

def freeAll : List ℕ → Prog Op Res Unit
  | [] => Pure.pure ()
  | a :: as => Prog.ask (Op.free a) >>= fun _ => freeAll as

lemma freeAll_append (as bs : List ℕ) :
    freeAll (as ++ bs) = freeAll as >>= fun _ => freeAll bs := by
  induction as with
  | nil => rfl
  | cons a as ih =>
    rw [List.cons_append, freeAll, freeAll, bind_assoc]
    exact congrArg _ (funext fun _ => ih)

/-- The chunks with the addresses `as` were taken back, and no others. -/
structure TakenBack (h : Heap) (as : List ℕ) (t : Heap) : Prop where
  ok : t.Ok
  live : ∀ c, c ∈ t.live ↔ c ∈ h.live ∧ c.addr ∉ as
  freed : ∀ k, k ∈ t.freed ↔ k ∈ h.freed ∨ ∃ c ∈ h.live, c.addr ∈ as ∧ c.id = k
  requests : t.requests = h.requests

lemma TakenBack.nil (ho : h.Ok) : h.TakenBack [] h :=
  ⟨ho, fun c => by simp, fun k => by simp, rfl⟩

lemma TakenBack.cons {as : List ℕ} (ho : h.Ok) (hc : c ∈ h.live)
    (ht : (h.takeBack c).TakenBack as t) : h.TakenBack (c.addr :: as) t where
  ok := ht.ok
  live d := by
    rw [ht.live, List.mem_cons, not_or, ← and_assoc]
    exact and_congr_left' mem_without
  freed k := by
    rw [ht.freed]
    constructor
    · rintro (hk | ⟨d, hd, has, rfl⟩)
      · rcases List.mem_cons.mp hk with rfl | hk
        · exact .inr ⟨c, hc, List.mem_cons_self, rfl⟩
        · exact .inl hk
      · exact .inr ⟨d, (mem_without.mp hd).1, List.mem_cons_of_mem _ has, rfl⟩
    · rintro (hk | ⟨d, hd, has, rfl⟩)
      · exact .inl (List.mem_cons_of_mem _ hk)
      · by_cases hdc : d.addr = c.addr
        · obtain rfl := ho.eq_of_addr hd hc hdc
          exact .inl List.mem_cons_self
        · exact .inr ⟨d, mem_without.mpr ⟨hd, hdc⟩, (List.mem_cons.mp has).resolve_left hdc, rfl⟩
  requests := ht.requests

theorem freeAll_ensures {as : List ℕ} (ho : h.Ok) (hl : ∀ a ∈ as, ∃ c ∈ h.live, c.addr = a)
    (hn : as.Nodup) :
    Prog.Ensures M.exec total (fun _ t => h.TakenBack as t) (freeAll as) h := by
  induction as generalizing h with
  | nil => exact .pure trivial (.nil ho)
  | cons a as ih =>
    obtain ⟨hna, has⟩ := List.nodup_cons.mp hn
    obtain ⟨c, hc, rfl⟩ := hl a List.mem_cons_self
    refine free_rule ho hc ((ih (ho.takeBack hc) (fun b hb => ?_) has).mono fun _ _ ht =>
      ht.cons ho hc)
    obtain ⟨d, hd, rfl⟩ := hl b (List.mem_cons_of_mem _ hb)
    exact ⟨d, mem_without.mpr ⟨hd, fun hdc => hna (hdc ▸ hb)⟩, rfl⟩

/-! ## Owners -/

/-- An operation that takes back none of the chunks with the addresses `own`. -/
def Op.Spares (own : List ℕ) : Op → Prop
  | .free a => a ∉ own
  | _ => True

lemma Ok.spared {own : List ℕ} {op : Op} {r : Res op} (ho : h.Ok) (hs : op.Spares own)
    (hown : ∀ a ∈ own, ∃ c ∈ h.live, c.addr = a) (hx : M.exec op h = .ok (r, t)) :
    ∀ c, c.addr ∈ own → (c ∈ t.live ↔ c ∈ h.live) := by
  intro c hc
  cases op with
  | malloc n =>
    rw [Malloc.exec] at hx
    split at hx
    · cases hx
      exact Iff.rfl
    · rename_i a ha
      cases hx
      obtain ⟨d, hd, hdc⟩ := hown _ hc
      have hne : c ≠ ⟨⟨a, n⟩, h.requests⟩ := fun hca => by
        subst hca
        exact (M.fresh ha d hd).1 hdc
      exact ⟨fun hm => (List.mem_cons.mp hm).resolve_left hne, List.mem_cons_of_mem _⟩
  | free a =>
    rw [Malloc.exec] at hx
    split at hx
    · cases hx
    · rename_i hf
      cases hx
      obtain ⟨d, hd, rfl⟩ := free_some hf
      rw [ho.free hd] at hf
      cases hf
      exact mem_without.trans (and_iff_left fun hcd => hs (hcd ▸ hc))
  | zero r =>
    rw [Malloc.exec] at hx
    split at hx
    · cases hx
      exact Iff.rfl
    · cases hx
  | bug => cases hx

/-- The numbers of the chunks in use that answer the requests from `n` on. -/
def since (h : Heap) (n : ℕ) : List ℕ := (h.live.map Chunk.id).filter (n ≤ ·)

lemma Ok.since_same (ho : h.Ok) (hl : t.live = h.live) : t.since h.requests = [] := by
  refine List.filter_eq_nil_iff.mpr fun k hk => ?_
  rw [hl] at hk
  simpa using ho.bound k (List.mem_append_left _ hk)

lemma Ok.since_add (ho : h.Ok) (hl : t.live = c :: d :: h.live) (hc : h.requests ≤ c.id)
    (hd : h.requests ≤ d.id) : t.since h.requests = [c.id, d.id] := by
  have hold : (h.live.map Chunk.id).filter (h.requests ≤ ·) = [] := ho.since_same rfl
  rw [since, hl, List.map_cons, List.map_cons, List.filter_cons_of_pos (by simpa using hc),
    List.filter_cons_of_pos (by simpa using hd), hold]

/-- Among the chunks `cs`, an owner has those with the addresses `as`, and their numbers are
`ks`. -/
structure Owned (cs : List Chunk) (as ks : List ℕ) : Prop where
  live : ∀ a ∈ as, ∃ c ∈ cs, c.addr = a
  nodup : as.Nodup
  mem : ∀ k, k ∈ ks ↔ ∃ c ∈ cs, c.addr ∈ as ∧ c.id = k
  ids : ks.Nodup

variable {cs cs' : List Chunk} {as bs ks : List ℕ}

lemma owned_nil : Owned cs [] [] :=
  ⟨fun _ ha => absurd ha List.not_mem_nil, .nil, fun k => by simp, .nil⟩

lemma Owned.perm (hw : Owned cs as ks) (hp : as.Perm bs) : Owned cs bs ks where
  live a ha := hw.live a (hp.mem_iff.mpr ha)
  nodup := hp.nodup_iff.mp hw.nodup
  mem k := by simpa only [hp.mem_iff] using hw.mem k
  ids := hw.ids

lemma Owned.congr (hw : Owned cs as ks) (hl : ∀ c, c.addr ∈ as → (c ∈ cs' ↔ c ∈ cs)) :
    Owned cs' as ks where
  live a ha := by
    obtain ⟨c, hc, rfl⟩ := hw.live a ha
    exact ⟨c, (hl c ha).mpr hc, rfl⟩
  nodup := hw.nodup
  mem k := by
    rw [hw.mem]
    constructor <;> rintro ⟨c, hc, ha, hk⟩
    · exact ⟨c, (hl c ha).mpr hc, ha, hk⟩
    · exact ⟨c, (hl c ha).mp hc, ha, hk⟩
  ids := hw.ids

lemma Owned.cons (hw : Owned cs as ks) (hc : ∀ x ∈ cs, c.addr ≠ x.addr)
    (hid : ∀ x ∈ cs, c.id ≠ x.id) : Owned (c :: cs) (c.addr :: as) (c.id :: ks) where
  live a ha := by
    rcases List.mem_cons.mp ha with rfl | ha
    · exact ⟨c, List.mem_cons_self, rfl⟩
    · obtain ⟨x, hx, rfl⟩ := hw.live a ha
      exact ⟨x, List.mem_cons_of_mem _ hx, rfl⟩
  nodup := by
    refine List.nodup_cons.mpr ⟨fun ha => ?_, hw.nodup⟩
    obtain ⟨x, hx, hxa⟩ := hw.live _ ha
    exact hc x hx hxa.symm
  mem k := by
    constructor
    · intro hk
      rcases List.mem_cons.mp hk with rfl | hk
      · exact ⟨c, List.mem_cons_self, List.mem_cons_self, rfl⟩
      · obtain ⟨x, hx, ha, hxk⟩ := (hw.mem k).mp hk
        exact ⟨x, List.mem_cons_of_mem _ hx, List.mem_cons_of_mem _ ha, hxk⟩
    · rintro ⟨x, hx, ha, rfl⟩
      rcases List.mem_cons.mp hx with rfl | hx
      · exact List.mem_cons_self
      · have has : x.addr ∈ as := (List.mem_cons.mp ha).resolve_left (hc x hx).symm
        exact List.mem_cons_of_mem _ ((hw.mem _).mpr ⟨x, hx, has, rfl⟩)
  ids := by
    refine List.nodup_cons.mpr ⟨fun hk => ?_, hw.ids⟩
    obtain ⟨x, hx, -, hxc⟩ := (hw.mem _).mp hk
    exact hid x hx hxc.symm

lemma Owned.add (hw : Owned h.live as ks) (ht : t.Ok) (hl : t.live = c :: d :: h.live) :
    Owned t.live (c.addr :: d.addr :: as) (c.id :: d.id :: ks) := by
  have hdis := ht.distinct
  have hids := (List.nodup_append.mp ht.ids).1
  rw [hl, List.pairwise_cons, List.pairwise_cons] at hdis
  rw [hl, List.map_cons, List.map_cons, List.nodup_cons, List.nodup_cons] at hids
  obtain ⟨hc, hd, -⟩ := hdis
  obtain ⟨hci, hdi, -⟩ := hids
  rw [hl]
  refine (hw.cons (fun x hx => (hd x hx).1) fun x hx hid => ?_).cons (fun x hx => (hc x hx).1)
    fun x hx hid => ?_
  · exact hdi (hid ▸ List.mem_map_of_mem hx)
  · exact hci (hid ▸ List.mem_map_of_mem hx)

end Heap

/-! ## Arenas -/

/-- A chunk of which only what lies below `top` is given away. -/
structure Region where
  chunk : Span
  top : ℕ
  deriving DecidableEq, Repr

structure Region.Ok (g : Region) : Prop where
  bot : g.chunk.addr ≤ g.top
  stop : g.top ≤ g.chunk.stop

structure Region.Gave (g : Region) (r : Span) : Prop where
  bot : g.chunk.addr ≤ r.addr
  top : r.stop ≤ g.top

/-- The spans given out of some regions. -/
structure Arena where
  regions : List Region
  given : List Span

namespace Arena

/-- A span is given behind the top of a region, or from a region that is new. -/
inductive Gives (r : Span) : Arena → Arena → Prop
  | bump {g : Region} {pre post : List Region} {given : List Span} {top : ℕ} (hq : g.top ≤ r.addr)
    (hr : r.stop ≤ top) (ht : top ≤ g.chunk.stop) :
    Gives r ⟨pre ++ g :: post, given⟩ ⟨pre ++ { g with top := top } :: post, r :: given⟩
  | add {g : Region} {pre post : List Region} {given : List Span} (hg : g.Ok) (hr : g.Gave r)
    (hnew : ∀ x ∈ pre ++ post, g.chunk.Apart x.chunk) :
    Gives r ⟨pre ++ post, given⟩ ⟨pre ++ g :: post, r :: given⟩

structure Ok (a : Arena) : Prop where
  apart : a.regions.Pairwise fun g x => g.chunk.Apart x.chunk
  regions : ∀ g ∈ a.regions, g.Ok
  given : ∀ r ∈ a.given, ∃ g ∈ a.regions, g.Gave r
  disjoint : a.given.Pairwise Span.Apart

variable {pre post : List Region} {g : Region} {r : Span} {a b : Arena}

lemma Ok.within (h : Ok a) (hr : r ∈ a.given) : ∃ g ∈ a.regions, r.Within g.chunk := by
  obtain ⟨g, hg, hgr⟩ := h.given r hr
  exact ⟨g, hg, hgr.bot, hgr.top.trans (h.regions g hg).stop⟩

lemma mem_middle {x : Region} : x ∈ pre ++ g :: post ↔ x = g ∨ x ∈ pre ++ post := by
  rw [List.mem_append, List.mem_cons, List.mem_append, or_left_comm]

lemma pairwise_middle : (pre ++ g :: post).Pairwise (fun x y => x.chunk.Apart y.chunk) ↔
    (∀ x ∈ pre ++ post, g.chunk.Apart x.chunk) ∧
      (pre ++ post).Pairwise fun x y => x.chunk.Apart y.chunk := by
  rw [List.pairwise_middle (s := Span.Apart.symm), List.pairwise_cons]

theorem Gives.apart (hs : Gives r a b) (h : a.Ok) : ∀ q ∈ a.given, r.Apart q := by
  intro q hq
  obtain ⟨x, hx, hxq⟩ := h.given q hq
  have hqx : q.Within x.chunk := ⟨hxq.bot, hxq.top.trans (h.regions x hx).stop⟩
  cases hs with
  | @bump g pre post given top hr hrt ht =>
    obtain ⟨hapart, -⟩ := pairwise_middle.mp h.apart
    rcases mem_middle.mp hx with rfl | hx
    · exact .inr (hxq.top.trans hr)
    · have hbot := (h.regions g (mem_middle.mpr (.inl rfl))).bot
      exact (hapart x hx).within ⟨hbot.trans hr, hrt.trans ht⟩ hqx
  | add hg hr hnew => exact (hnew x hx).within ⟨hr.bot, hr.top.trans hg.stop⟩ hqx

theorem Gives.ok (hs : Gives r a b) (h : a.Ok) : b.Ok := by
  have hdisjoint := hs.apart h
  cases hs with
  | @bump g pre post given top hr hrt ht =>
    have hg : g ∈ pre ++ g :: post := mem_middle.mpr (.inl rfl)
    have hbot := (h.regions g hg).bot
    have hstop : r.addr ≤ r.stop := Nat.le_add_right _ _
    refine ⟨?_, fun x hx => ?_, fun q hq => ?_, List.pairwise_cons.mpr ⟨hdisjoint, h.disjoint⟩⟩
    · obtain ⟨hapart, hrest⟩ := pairwise_middle.mp h.apart
      exact pairwise_middle.mpr ⟨hapart, hrest⟩
    · rcases mem_middle.mp hx with rfl | hx
      · exact ⟨hbot.trans (hr.trans (hstop.trans hrt)), ht⟩
      · exact h.regions x (mem_middle.mpr (.inr hx))
    · rcases List.mem_cons.mp hq with rfl | hq
      · exact ⟨_, mem_middle.mpr (.inl rfl), hbot.trans hr, hrt⟩
      · obtain ⟨x, hx, hxq⟩ := h.given q hq
        rcases mem_middle.mp hx with rfl | hx
        · exact ⟨_, mem_middle.mpr (.inl rfl), hxq.bot, hxq.top.trans (hr.trans (hstop.trans hrt))⟩
        · exact ⟨x, mem_middle.mpr (.inr hx), hxq⟩
  | @add g pre post given hg hr hnew =>
    refine ⟨pairwise_middle.mpr ⟨hnew, h.apart⟩, fun x hx => ?_, fun q hq => ?_,
      List.pairwise_cons.mpr ⟨hdisjoint, h.disjoint⟩⟩
    · rcases mem_middle.mp hx with rfl | hx
      · exact hg
      · exact h.regions x hx
    · rcases List.mem_cons.mp hq with rfl | hq
      · exact ⟨g, mem_middle.mpr (.inl rfl), hr⟩
      · obtain ⟨x, hx, hxq⟩ := h.given q hq
        exact ⟨x, mem_middle.mpr (.inr hx), hxq⟩

end Arena
