import Xdbd.FreeList
import Xdbd.Receiving

/-!
# No stuck connection

A connection that was accepted and not closed stays registered with one of the three handlers
that read, if every packet dispatched on it has a handler and the memory for its reply. A packet
that is refused leaves reading blocked.
-/
namespace Xdbd
open Interaction World

variable {boot : Boot} {w : World} {s t u v : Slot}

def Obs.failed : Obs → Bool
  | .alloc _ false => true
  | _ => false

/-- Every packet dispatched so far is supported, and none of the five allocations made for the
buffers of its reply failed. -/
def Answerable (h : List Obs) : Prop :=
  ∀ pre hdr payload post, h = pre ++ .dispatch hdr payload :: post →
    hdr.Supported ∧ ∀ n, Obs.alloc n false ∉ post.take 5

/-- The first of the observations, if it is a dispatch, can be answered. -/
def answerableHead : List Obs → Bool
  | .dispatch hdr _ :: post => hdr.Supported && (post.take 5).all fun o => !o.failed
  | _ => true

lemma answerable_iff {h : List Obs} :
    Answerable h ↔ ∀ t ∈ h.tails, answerableHead t = true := by
  have hfailed : ∀ l : List Obs,
      (l.all fun o => !o.failed) = true ↔ ∀ n, Obs.alloc n false ∉ l := by
    intro l
    rw [List.all_eq_true]
    refine ⟨fun hl n hn => Bool.noConfusion (hl _ hn), fun hl o ho => ?_⟩
    unfold Obs.failed
    split
    · exact absurd ho (hl _)
    · rfl
  constructor
  · intro ha t ht
    obtain ⟨pre, rfl⟩ := (List.mem_tails _ _).mp ht
    unfold answerableHead
    split
    · obtain ⟨hs, hn⟩ := ha pre _ _ _ rfl
      simp only [hs, (hfailed _).mpr hn, decide_true, Bool.and_self]
    · rfl
  · rintro ht pre hdr payload post rfl
    have hhead := ht _ ((List.mem_tails _ _).mpr ⟨pre, rfl⟩)
    rw [answerableHead, Bool.and_eq_true, decide_eq_true_eq] at hhead
    exact hhead.imp_right (hfailed _).mp

instance (h : List Obs) : Decidable (Answerable h) := decidable_of_iff _ answerable_iff.symm

lemma Answerable.of_prefix {h h' : List Obs} (hp : h <+: h') (ha : Answerable h') :
    Answerable h := by
  obtain ⟨ext, rfl⟩ := hp
  intro pre hdr payload post heq
  obtain ⟨hs, hn⟩ := ha pre hdr payload (post ++ ext) (by simp [heq])
  refine ⟨hs, fun n hm => hn n ?_⟩
  exact (List.IsPrefix.take (List.prefix_append post ext) 5).subset hm

def readers : List (Option Handler) :=
  [some (.adb .adbWaitApacketHandler), some (.adb .adbProcessAdbHeader),
    some (.adb .adbProcessAdbPayload)]

/-- While a packet is collected its request has no reply buffer. -/
def Staged (s : Slot) : Prop :=
  s.read.handler = some (.adb .adbProcessAdbHeader) ∨
    s.read.handler = some (.adb .adbProcessAdbPayload) → NoReply s

lemma Receiving.staged (h : Receiving s t) (hs : Staged s) : Staged t := fun ht =>
  h.request.elim id fun hd => (hs (hd.2 ▸ ht)).congr hd.1

/-- The connection is closed, or it will read on. -/
structure Reading (s : Slot) : Prop where
  registered : s.conn.destroyed = false → s.read.index ≠ none
  handler : s.conn.destroyed = false → s.read.handler ∈ readers
  staged : Staged s

lemma Receiving.reading (h : Receiving s t) (hs : Reading s) : Reading t where
  registered ht := h.registered ht (hs.registered (h.alive ht))
  handler ht := by
    rcases h.handler with hh | hh | hh
    · rw [hh]
      exact hs.handler (h.alive ht)
    · rw [hh]
      decide
    · rw [hh]
      decide
  staged := h.staged hs.staged

lemma reading_waiting (hd : u.conn.destroyed = t.conn.destroyed)
    (hi : u.read.index = t.read.index) (ht : t.conn.destroyed = false → t.read.index ≠ none) :
    Reading (u.handledBy .adbWaitApacketHandler) where
  registered hu := by
    show u.read.index ≠ none
    rw [hi]
    exact ht (hd.symm.trans hu)
  handler _ := List.mem_cons_self
  staged := by rintro (hc | hc) <;> cases hc

/-- What the handlers assume, and nothing to keep. -/
def progressContract : Prog.Contract Slot :=
  ⟨fun s => Answerable s.wire.history, fun _ => True, True⟩

lemma sends_reading {r : Request} (ht : t.conn.destroyed = false → t.read.index ≠ none) :
    Sends progressContract (t.dispatching r) r.p.header Reading where
  refused u hu := by
    cases hu with
    | refused ha hw hreason =>
      exfalso
      obtain ⟨new, hnew, -, -⟩ := hw.held
      have hans := ha t.wire.history r.p.header r.p.payload.live new (by
        rw [hnew]
        exact List.append_assoc _ [_] new)
      rcases hreason with hbad | ⟨new', hnew', hlen, n, hn⟩
      · exact hbad hans.1
      · obtain rfl := List.append_cancel_left (hnew'.symm.trans hnew)
        exact hans.2 n (by rwa [List.take_of_length_le hlen])
    | closed _ _ _ _ =>
      exact ⟨fun hc => absurd hc (by simp [Slot.closed]),
        fun hc => absurd hc (by simp [Slot.closed]), fun _ r hr => by cases hr⟩
  nothing u hw _ _ := by
    refine ⟨trivial, reading_waiting ?_ ?_ ht⟩ <;> rw [hw.same] <;> rfl
  sent u hw _ _ := by
    refine ⟨trivial, fun _ => ⟨trivial, reading_waiting ?_ ?_ ht⟩⟩
    · show u.conn.destroyed = _
      rw [hw.same]
      rfl
    · show u.read.index = _
      rw [hw.same]
      rfl

lemma attends_reading (hs : Reading s) : Attends progressContract s Reading where
  fail := trivial
  keep _ _ _ := trivial
  rest _ ht _ := ht.reading hs
  dispatch _ ht hn _ := dispatchPayload_spec hn trivial (fun _ => trivial)
    (fun _ _ ha => ⟨⟨ha, fun _ _ _ _ => trivial, fun _ _ _ => trivial⟩,
      sends_reading (ht.reading hs).registered⟩) (.inl trivial)

/-- Every accepted connection reads on, as long as its packets can be answered. -/
theorem reading_invariant : PeerInvariant Answerable Reading fun _ => True where
  closed hp ha := ha.of_prefix hp
  accepted s ls p q k := ⟨fun _ => by simp [acceptedSlot, Slot.norm, Event.norm],
    fun _ => List.mem_cons_self, by rintro (hc | hc) <;> cases hc⟩
  feed _ hs := ⟨hs.registered, hs.handler, hs.staged⟩
  flags _ _ hs := ⟨hs.registered, hs.handler, hs.staged⟩
  keep _ := trivial
  run {s hd} hh hs hopen hhd _ := by
    have hmem := hs.handler hopen.alive
    rw [hhd] at hmem
    have hatt := attends_reading hs
    cases hd with
    | adbWaitApacketHandler => exact hatt.waitApacketHandler (.refl s) hh
    | adbProcessAdbHeader => exact hatt.processAdbHeader (.refl s) (hs.staged (.inl hhd)) hh
    | adbProcessAdbPayload => exact hatt.processAdbPayload (.refl s) (hs.staged (.inr hhd)) hh
    | adbBlockReading | adbEmptyHandler => exact absurd hmem (by decide)

/-- The read event of the slot `i` is registered, and its handler is one that reads. -/
structure Progressing (w : World) (i : ℕ) : Prop where
  registered : ∃ k < w.nevents, (w.slots i).read.index = some k ∧ w.eventIndex k = .read i
  watched : (w.slots i).conn.fd ∈ w.masterRead
  handler : (w.slots i).read.handler ∈ readers

/-- At the top of the loop, for every connection that was accepted and is not on the free list:
it goes on, if its packets could be answered. -/
theorem Run.no_stuck_connection (h : Run boot w) :
    ∃ free, FreeList w free ∧ ∀ i, w.Peer i → i ∉ free → Answerable (w.slots i).wire.history →
      Progressing w i := by
  obtain ⟨free, hidle⟩ := h.idle
  refine ⟨free, hidle.table.freeList, fun i hp hi ha => ?_⟩
  have hread := reading_invariant.rest h i hp ha
  have halive := (hidle.table.open hp hi).alive
  have hindex : (w.slots i).read.index ≠ none := fun hn =>
    hread.registered halive (by rw [Slot.norm, Event.norm, hn]; rfl)
  have hreg := hidle.table.registry
  have hmem : Ev.read i ∈ w.registered :=
    (hreg.mem_iff (show Ev.read i ∈ w.usedEvents free from ⟨hp.issued, hi⟩)).mpr hindex
  obtain ⟨k, hk, hik⟩ := DenseIndex.mem_members.mp hmem
  exact {
    registered := ⟨k, hk, (congrArg (fun e => (w.event e).index) hik).symm.trans
      (hreg.dense.stored k hk).2, hik⟩
    watched := (hreg.masterRead _).mpr ⟨i, hmem, rfl⟩
    handler := hread.handler halive }

/-- An OKAY packet without payload. -/
def okayPacket : List UInt8 := Header.bytes ⟨pcmdOkay, 7, 9, 0, 0, ~~~pcmdOkay⟩

/-- The client sends an OKAY packet, and the daemon answers it. -/
def okeyed : World := (oneClient ⟨[.bytes okayPacket], [], [], []⟩).afterTurn {4}

lemma run_okeyed : Run (.single 2 3) okeyed :=
  (run_oneClient _).step (.reporting {4} (by decide) (by decide) rfl)

theorem Run.no_stuck_connection_okeyed :
    ∃ free, FreeList okeyed free ∧ 1 ∉ free ∧ Progressing okeyed 1 := by
  obtain ⟨free, hfree, hall⟩ := Run.no_stuck_connection run_okeyed
  have hfd : (okeyed.slots 1).conn.fd = 4 := by decide
  have hout : 1 ∉ free := fun hi => absurd (hfd.symm.trans (hfree.fd 1 hi)) (by decide)
  exact ⟨free, hfree, hout, hall 1 ⟨by decide, by decide, by decide⟩ hout (by decide +kernel)⟩

/-- The client sends a header of zeros, whose magic is wrong. -/
def refused : World := (oneClient ⟨[.bytes (List.replicate 24 0)], [], [], []⟩).afterTurn {4}

lemma run_refused : Run (.single 2 3) refused :=
  (run_oneClient _).step (.reporting {4} (by decide) (by decide) rfl)

theorem stuck_connection_refused :
    ¬ ∀ (boot : Boot) (w : World), Run boot w →
      ∃ free, FreeList w free ∧ ∀ i, w.Peer i → i ∉ free → Progressing w i := fun h => by
  obtain ⟨free, hfree, hall⟩ := h _ _ run_refused
  have hfd : (refused.slots 1).conn.fd = 4 := by decide
  have hpeer : refused.Peer 1 := ⟨by decide, by decide, by decide⟩
  have hnot : 1 ∉ free := fun hi => absurd (hfd.symm.trans (hfree.fd 1 hi)) (by decide)
  have hblock : (refused.slots 1).read.handler = some (.adb .adbBlockReading) := by decide
  exact absurd (hblock ▸ (hall 1 hpeer hnot).handler) (by decide)

end Xdbd
