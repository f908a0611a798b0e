import Xdbd.Acceptance
import Xdbd.Cursors
import Xdbd.Descriptors
import Xdbd.Paused

/-!
# Calls that come to their end

Where a handler runs into a fault: an allocation that fails, bytes of a payload that do not reach
behind `pos` once a read that would block has moved `last` before it, and the clean-up of an
`accept` whose set-up fails. In every run a call without any of them comes to its end, and so does a
turn of such calls.
-/
namespace Xdbd
open Interaction Code World

variable {boot : Boot} {u w : World} {free : List ℕ} {s : Slot} {b : Buf} {r : Request}

/-! ## A payload that ends before `pos` -/

lemma bufAppendMem_fails (hs : s.AllocsSucceed) {src : Src} {len : ℕ}
    (hcap : grownCapacity b len ≠ 0) (hshort : src.avail < len) :
    Prog.Ensures Slot.exec (calm True) (fun _ _ => False) (bufAppendMem b src len) s := by
  have hcopy : ∀ b' t, Prog.Ensures Slot.exec (calm True) (fun _ _ => False)
      (do return some (← cpymem b' src len)) t := fun b' t =>
    cpymem_rule b' src len trivial (.inl trivial) fun hfit => by
      have := (hfit (by omega)).2.2
      omega
  unfold bufAppendMem
  split_ifs
  · refine (palloc_spec settled_calm (.inl trivial) _).andThen fun m t ⟨_, _, hm⟩ => ?_
    cases m with
    | none => exact absurd rfl ((hm hcap).2 hs)
    | some p => exact cpymem_rule _ _ _ trivial (.inl trivial) fun _ => hcopy _ t
  · exact hcopy b s

lemma takePayload_fails (hs : s.AllocsSucceed) (ha : s.Asks r b) (hcap : b.cap < 2^32)
    (hpos : b.pos = headerSize) (hlast : 0 ≤ b.last) (hbehind : b.last < b.pos) :
    Prog.Ensures Slot.exec (calm True) (fun _ _ => False) takePayload s := by
  have h24 : headerSize = 24 := rfl
  have hsize : (sizeT (bufSize b) : ℤ) = 2^64 + (b.last - b.pos) := by
    unfold sizeT bufSize
    omega
  have hpayload : unsigned (bufSize r.p.payload) = 0 := by
    rw [ha.payload.bufSize]
    rfl
  have hgrown : grownCapacity r.p.payload (sizeT (bufSize b)) ≠ 0 := by
    have hmax : unsigned r.p.payload.cap = 2^20 := by
      rw [ha.payload.cap]
      rfl
    unfold grownCapacity
    simp only [hpayload, hmax]
    split_ifs <;> omega
  have hshort : (Src.ofBuf b).avail < sizeT (bufSize b) := by
    unfold Src.ofBuf
    simp only
    split_ifs <;> omega
  unfold takePayload adbParseAdbPayload bufAppendBuf
  refine .bind (getRequest_rule trivial (.inl trivial) fun r' _ hr' => ?_)
  obtain rfl : r = r' := Data.request.inj (ha.data.symm.trans hr')
  refine getBuffer_rule trivial (.inl trivial) fun _ =>
    deref_rule trivial (.inl trivial) fun b' hb' => ?_
  obtain rfl : b = b' := Option.some.inj (ha.buffer.symm.trans hb')
  rw [bind_assoc]
  refine note_rule _ trivial fun _ => ?_
  exact (bufAppendMem_fails (s := s.appending b) hs hgrown hshort).andThen fun _ _ hn => hn.elim

/-- A read event of a payload whose bytes do not reach behind `pos`. -/
theorem Paused.fails (h : Paused s) (hs : s.Open) (ha : s.AllocsSucceed)
    (hhd : s.read.handler = some (.adb .adbProcessAdbPayload)) (hready : s.read.ready = true)
    (hb : s.conn.buffer = some b) (hshort : ¬ s.Reaches b) :
    Prog.Ensures Slot.exec (calm True) (fun _ _ => False) adbProcessAdbPayload s := by
  obtain ⟨-, r, b', hasks, hpos, hlast, hsize⟩ := h.payload hs.alive hhd
  obtain rfl : b = b' := Option.some.inj (hb.symm.trans hasks.buffer)
  have hmax : b.cap = 2^20 := h.cap b hb
  have h24 : headerSize = 24 := rfl
  have hdiff : bufSize b = b.last - b.pos := rfl
  obtain ⟨hne, hbehind⟩ : (s.taken b).bytes ≠ [] ∧
    ¬ (0 ≤ b.last ∧ b.pos ≤ b.last + (s.taken b).n) :=
    Classical.not_imp.mp hshort
  have hcount := Slot.taken_count hne
  have hlen := List.length_pos_of_ne_nil hne
  refine processPayload_rule (κ := calm True)
    ⟨hs.active, hready, hasks.data, hb, by omega, by omega⟩
    trivial (.inl trivial) (fun ht => absurd (h.timeout.symm.trans ht) (by simp))
    (fun henough => absurd henough (by omega)) (fun _ _ => trivial) (fun _ h0 => ?_)
      (fun _ hn => ?_)
    fun _ hin _ _ _ => ⟨trivial, ?_⟩
  · rw [hcount, xdbdErr] at h0
    omega
  · rw [hcount, xdbdAgain] at hn
    omega
  · have hstored := hin hne
    refine takePayload_fails (s := s.advanced b) ha ⟨hasks.data, hasks.out, hasks.payload, rfl⟩ ?_
      hpos
      ?_ ?_
    · show b.cap < _
      omega
    · show 0 ≤ b.last + (s.taken b).n
      omega
    · show b.last + (s.taken b).n < b.pos
      omega

/-- With memory, a read event of an open connection comes to its end exactly if the bytes for a
payload reach behind `pos`. -/
theorem Paused.finishes_iff (h : Paused s) (hs : s.Open) (ha : s.AllocsSucceed) {hd : AdbHandler}
    (hhd : s.read.handler = some (.adb hd)) (hready : s.read.ready = true) :
    (∃ t, Prog.run Slot.exec (code hd) s = .ok ((), t)) ↔ s.CatchesUp := by
  constructor
  · rintro ⟨t, ht⟩ hpayload b hb
    obtain rfl : hd = .adbProcessAdbPayload :=
      Handler.adb.inj (Option.some.inj (hhd.symm.trans hpayload))
    by_contra hshort
    rcases (h.fails hs ha hpayload hready hb hshort).outcome fun _ => trivial with hn | ⟨-, e, he⟩
    · obtain ⟨_, _, -, hn⟩ := hn
      exact hn
    · cases he.symm.trans ht
  · intro hc
    obtain ⟨⟨⟩, t, ht, -⟩ := (h.handled (F := False) hs (.inr ⟨ha, hc⟩) hhd hready).finishes
      (fun _ => trivial) id
    exact ⟨t, ht⟩

lemma Slot.catchesUp_norm : s.norm.CatchesUp ↔ s.CatchesUp := by
  have htaken : ∀ b, (s.norm.taken b).bytes = (s.taken b).bytes ∧
      (s.norm.taken b).n = (s.taken b).n := fun b => by
    have heq : s.norm.taken b = _ := unixRecv_norm s.read b.window s.wire.recvs
    rw [heq]
    exact ⟨rfl, rfl⟩
  have hreaches : ∀ b, s.norm.Reaches b ↔ s.Reaches b := fun b => by
    unfold Slot.Reaches
    rw [(htaken b).1, (htaken b).2]
  exact forall_congr' fun _ => forall₂_congr fun b _ => hreaches b

/-! ## Calls -/

/-- Of an `accept` that gets a slot and its pools nothing else fails. -/
def World.SetsUp (u : World) (l : ℕ) : Prop :=
  ∀ a rest, (u.slots l).wire.accepts = a :: rest → 0 ≤ a.fd → a.fd ∉ u.openFds →
    u.freeConnections ≠ none → a.pool = true → a.tempPool = true →
      a.sockaddr = true ∧ a.nonblocking = true

/-- Nothing goes wrong in a call. -/
def Sound (c : Ev × World) : Prop :=
  match (c.2.event c.1).handler with
  | some (.adb _) => (c.2.slots c.1.slot).AllocsSucceed ∧ (c.2.slots c.1.slot).CatchesUp
  | some .eventAccept => c.2.SetsUp c.1.slot
  | none => True

namespace World

/-- A posted read handler: it faults where its program faults on the slot alone, and otherwise
leaves its slot as the program does. -/
lemma Batch.outcome (h : Batch u free) {i : ℕ} (hi : .read i ∈ u.postedEvents) :
    ∃ hd, (u.slots i).read.handler = some (.adb hd) ∧
      ((∃ f f', u.callHandler (.read i) = .error f ∧
          Prog.run Slot.exec (code hd) (u.slots i).norm = .error f') ∨
        ∃ v free', u.callHandler (.read i) = .ok v ∧ Frame i u v ∧
          Prog.run Slot.exec (code hd) (u.slots i).norm = .ok ((), (v.slots i).norm) ∧
          Batch (v.deletePostedEvent (.read i)) free') := by
  cases hcall : u.callHandler (.read i) with
  | ok v =>
    obtain ⟨free', hd, hhd, hframe, hrun, hb⟩ := h.handler hi hcall
    exact ⟨hd, hhd, .inr ⟨v, free', rfl, hframe, hrun, hb⟩⟩
  | error f =>
    obtain ⟨_, hij, hp, hf, -⟩ := h.others _ hi
    obtain rfl := Ev.read.inj hij
    obtain ⟨-, -, -, -, -, hd, hhd⟩ := h.table.peer_entry hp hf
    unfold callHandler at hcall
    rw [show (u.event (.read i)).handler = some (.adb hd) from hhd] at hcall
    change (Prog.run (World.exec i) (code hd) u).map Prod.snd = .error f at hcall
    refine ⟨hd, hhd, .inl ?_⟩
    rcases (h.table.run hp hf (code hd)).cases with ⟨e, e', -, hy⟩ | ⟨⟨⟩, v, t, hx, -, -⟩
    · exact ⟨f, e', rfl, hy⟩
    · rw [hx] at hcall
      cases hcall

lemma Batch.program_finishes_iff {i : ℕ} (h : Batch u free) (hi : .read i ∈ u.postedEvents)
    (hpaused : ∀ j, u.Peer j → Paused (u.slots j).norm) (ha : (u.slots i).AllocsSucceed) :
    ∃ hd, (u.slots i).read.handler = some (.adb hd) ∧
      ((∃ t, Prog.run Slot.exec (code hd) (u.slots i).norm = .ok ((), t)) ↔
        (u.slots i).CatchesUp) := by
  obtain ⟨_, he, hp, hf, hready⟩ := h.others _ hi
  obtain rfl := Ev.read.inj he
  obtain ⟨-, -, -, -, -, hd, hhd⟩ := h.table.peer_entry hp hf
  refine ⟨hd, hhd, ?_⟩
  rw [← Slot.catchesUp_norm]
  exact (hpaused _ hp).finishes_iff (h.table.open hp hf) ha hhd hready

end World

namespace World

end World

def announcing : Script :=
  ⟨[.bytes (Header.bytes ⟨pcmdOkay, 7, 9, 4, 0, ~~~pcmdOkay⟩)], [], [], []⟩

/-- A read of the first client's payload has blocked before one byte of it came. The second client
has sent an OKAY packet. -/
def crossing : World :=
  (((twoAccepted.feed 1 announcing).afterTurn {4}).feed 1 ⟨[.bytes [1]], [], [], []⟩).feed 2
    ⟨[.bytes okayPacket], [], [], []⟩

lemma run_crossing : Run (.single 3 3) crossing := by
  have h₁ := run_twoAccepted.step (.feed _ 1 announcing)
  have h₂ := h₁.step (.reporting {4} (by decide) (by decide) rfl)
  exact (h₂.step (.feed _ 1 _)).step (.feed _ 2 _)

lemma allowed_crossing : Allowed crossing (.reporting {4, 5}) :=
  .reporting {4, 5} (by decide) (by decide)

end Xdbd
