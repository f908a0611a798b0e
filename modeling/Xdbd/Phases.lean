import Xdbd.Collecting

/-!
# The phases of a packet

One read event in each of the three phases: which parts of the handlers it runs through, by what
`c->recv` returns. Of the cursors only sizes are assumed.
-/
namespace Xdbd
open Interaction Code

variable {s t u : Slot} {b : Buf} {r : Request} {κ : Prog.Contract Slot} {Q : Slot → Prop}

lemma sizeT_ne_code {n : ℤ} (h : 0 ≤ n) (h' : n < 2^32) :
    ¬ (sizeT n = sizeT xdbdAgain ∨ sizeT n = sizeT xdbdErr) := by
  rintro (he | he)
  · have := (sizeT_small (by omega) (by decide)).mp he
    rw [xdbdAgain] at this
    omega
  · have := (sizeT_small (by omega) (by decide)).mp he
    rw [xdbdErr] at this
    omega

/-- A packet is being collected into `b` for the request `r`, and a read event of it is served. -/
structure Gathering (s : Slot) (r : Request) (b : Buf) : Prop where
  active : s.read.active = true
  ready : s.read.ready = true
  data : s.conn.data = .request r
  buffer : s.conn.buffer = some b
  cap : b.cap < 2^32
  size : bufSize b < 2^32

lemma Slot.fetched_handler (s : Slot) (b : Buf) : (s.fetched b).read.handler = s.read.handler := by
  show (unixRecv s.read b.window s.wire.recvs).rev.handler = _
  rw [unixRecv_rev]

lemma Slot.advanced_read (hpos : 0 < (s.taken b).bytes.length) : (s.advanced b).read = s.read := by
  rcases unixRecv_cases s.read b.window s.wire.recvs with h | h | h | h
  · rw [show (s.taken b).bytes = [] from h.2] at hpos
    cases hpos
  · rw [show (s.taken b).bytes = [] from h.2] at hpos
    cases hpos
  · rw [show (s.taken b).bytes = [] from h.2] at hpos
    cases hpos
  · exact h.2.2.2

lemma Slot.Stores.fits (h : s.Stores b) (hpos : 0 < (s.taken b).bytes.length) :
    0 ≤ b.last ∧ b.last + (s.taken b).bytes.length ≤ b.cap :=
  h (List.ne_nil_of_length_pos hpos)

/-! ## The payload -/

/-- The end of `xdbd_adb_process_adb_payload`, once something of the payload was read. -/
def takePayload : Code Unit := do
  match ← adbParseAdbPayload with
  | .ok => dispatchPayload
  | .again => return ()
  | .err => adbCloseRequest

theorem processPayload_rule (h : Gathering s r b) (hs : κ.keep s) (hf : κ.fail ∨ Fetchable s b)
    (htimeout : s.read.timeout = true →
      Prog.Ensures Slot.exec κ (fun _ => Q) (do setTimeout; adbCloseRequest) s)
    (hcomplete : (r.h.dlen.toNat : ℤ) ≤ bufSize b →
    Prog.Ensures Slot.exec κ (fun _ => Q) takePayload s)
    (hfetch : bufSize b < r.h.dlen.toNat → κ.assume (s.fetched b) → κ.keep (s.fetched b))
    (hclose : bufSize b < r.h.dlen.toNat → (s.taken b).n = 0 ∨ (s.taken b).n = xdbdErr →
      κ.assume (s.fetched b).closed → κ.keep (s.fetched b).closed ∧ Q (s.fetched b).closed)
    (hagain : bufSize b < r.h.dlen.toNat → (s.taken b).n = xdbdAgain → κ.assume (s.advanced b) →
      κ.keep (s.advanced b) ∧ Q (s.advanced b))
    (hbytes : bufSize b < r.h.dlen.toNat → s.Stores b → 0 < (s.taken b).bytes.length →
      (s.taken b).n = (s.taken b).bytes.length → κ.assume (s.advanced b) →
        κ.keep (s.advanced b) ∧ Prog.Ensures Slot.exec κ (fun _ => Q) takePayload (s.advanced b)) :
    Prog.Ensures Slot.exec κ (fun _ => Q) adbProcessAdbPayload s := by
  have hcap := h.cap
  have hmax := h.size
  unfold adbProcessAdbPayload
  refine readEvent_rule hs ?_
  split_ifs with ht
  · exact htimeout ht
  · refine .bind (adbReadAdbPayload_rule hs h.data h.buffer h.ready h.active hf
      (fun henough => ?_) hfetch (fun hlt h0 hx => ?_) fun hlt hin hx hn => ?_)
    · rw [if_neg (sizeT_ne_code (by omega) hmax)]
      exact hcomplete henough
    · obtain ⟨hk, hq⟩ := hclose hlt h0 hx
      refine ⟨hk, ?_⟩
      rw [if_pos (.inr rfl)]
      exact .pure hk hq
    · rcases hn with hn | ⟨hpos, hn⟩
      · obtain ⟨hk, hq⟩ := hagain hlt hn hx
        refine ⟨hk, ?_⟩
        rw [hn, if_pos (.inl rfl)]
        exact .pure hk hq
      · obtain ⟨hk, hq⟩ := hbytes hlt hin hpos hn hx
        refine ⟨hk, ?_⟩
        have hfits := hin.fits hpos
        rw [if_neg (sizeT_ne_code (by omega) (by omega))]
        exact hq

/-! ## The header -/

/-- The end of `xdbd_adb_process_adb_header`, once bytes are there. -/
def takeHeader : Code Unit := do
  match ← adbParseAdbHeader with
  | .ok =>
    setHandler .adbProcessAdbPayload
    adbProcessAdbPayload
  | .again => return ()
  | .err => adbCloseRequest

/-- The slot whose request has its header from `b`. -/
def Slot.headed (s : Slot) (r : Request) (b : Buf) : Slot :=
  (s.withRequest (r.withHeader b.header)).withBuffer { b with pos := b.pos + headerSize }

lemma takeHeader_rule (hr : s.conn.data = .request r) (hb : s.conn.buffer = some b)
    (hs : κ.keep s) (hf : κ.fail ∨ s.Usable) (hagain : sizeT (bufSize b) < headerSize → Q s)
    (hheader : headerSize ≤ sizeT (bufSize b) → κ.assume (s.withRequest (r.withHeader b.header)) →
      κ.keep (s.withRequest (r.withHeader b.header)))
    (hok : headerSize ≤ sizeT (bufSize b) → κ.assume (s.headed r b) → κ.keep (s.headed r b) ∧
      (κ.assume ((s.headed r b).handledBy .adbProcessAdbPayload) →
        Prog.Ensures Slot.exec κ (fun _ => Q) adbProcessAdbPayload
          ((s.headed r b).handledBy .adbProcessAdbPayload))) :
    Prog.Ensures Slot.exec κ (fun _ => Q) takeHeader s := by
  refine .bind (adbParseAdbHeader_rule hs hr hb hf (fun hlt => ?_) hheader fun hle hx => ?_)
  · exact .pure hs (hagain hlt)
  · obtain ⟨hk, hnext⟩ := hok hle hx
    exact ⟨hk, setHandler_rule _ hk hnext⟩

theorem processHeader_rule (h : Gathering s r b) (hpos : 0 ≤ bufSize b) (hs : κ.keep s)
    (hf : κ.fail ∨ Fetchable s b)
    (htimeout : s.read.timeout = true →
      Prog.Ensures Slot.exec κ (fun _ => Q) (do setTimeout; adbCloseRequest) s)
    (henough : headerSize ≤ sizeT (bufSize b) → Prog.Ensures Slot.exec κ (fun _ => Q) takeHeader s)
    (hfetch : sizeT (bufSize b) < headerSize → κ.assume (s.fetched b) → κ.keep (s.fetched b))
    (hagain : sizeT (bufSize b) < headerSize → (s.taken b).n = xdbdAgain → κ.assume (s.fetched b) →
      Q (s.fetched b))
    (hclose : sizeT (bufSize b) < headerSize → (s.taken b).n = 0 ∨ (s.taken b).n = xdbdErr →
      κ.assume (s.fetched b).closed → κ.keep (s.fetched b).closed ∧ Q (s.fetched b).closed)
    (hbytes : sizeT (bufSize b) < headerSize → s.Stores b → 0 < (s.taken b).bytes.length →
      (s.taken b).n = (s.taken b).bytes.length → κ.assume (s.advanced b) →
        κ.keep (s.advanced b) ∧ Prog.Ensures Slot.exec κ (fun _ => Q) takeHeader (s.advanced b)) :
    Prog.Ensures Slot.exec κ (fun _ => Q) adbProcessAdbHeader s := by
  have hcap := h.cap
  have hmax := h.size
  unfold adbProcessAdbHeader
  refine readEvent_rule hs ?_
  split_ifs with ht
  · exact htimeout ht
  · refine .bind (adbReadAdbHeader_rule hs ⟨r, h.data⟩ h.buffer h.ready h.active hf
      (fun hle => ?_) hfetch (fun hlt hx hn => ?_) (fun hlt h0 hx => ?_)
      fun hlt hin hlen hn hx => ?_)
    · rw [if_neg (sizeT_ne_code hpos hmax)]
      exact henough hle
    · rw [if_pos (.inl rfl)]
      exact .pure (hfetch hlt hx) (hagain hlt hn hx)
    · obtain ⟨hk, hq⟩ := hclose hlt h0 hx
      refine ⟨hk, ?_⟩
      rw [if_pos (.inr rfl)]
      exact .pure hk hq
    · obtain ⟨hk, hq⟩ := hbytes hlt hin hlen hn hx
      refine ⟨hk, ?_⟩
      have hfits := hin.fits hlen
      rw [if_neg (sizeT_ne_code (by omega) (by omega))]
      exact hq

/-! ## The first bytes -/

/-- `xdbd_adb_wait_apacket_handler`: the receive buffer is there and reset, or it is created. -/
theorem waitApacketHandler_rule (h : Settled κ s) (hf : κ.fail ∨ s.conn.destroyed = false)
    (hbuffer : ∀ b, s.conn.buffer = some b → κ.assume (s.withBuffer (resetBuf b)) →
      Prog.Ensures Slot.exec κ (fun _ => Q) (receiveApacket (resetBuf b))
        (s.withBuffer (resetBuf b)))
    (hnone : ∀ t, s.conn.buffer = none → Allocated κ 2 s t false →
      Prog.Ensures Slot.exec κ (fun _ => Q) Code.closeConnection t)
    (hcreate : ∀ t m, s.conn.buffer = none → Allocated κ 2 s t true →
      κ.assume (t.withBuffer ⟨m, adbMaxPacketSize, 0, 0⟩) →
        κ.keep (t.withBuffer ⟨m, adbMaxPacketSize, 0, 0⟩) ∧
          Prog.Ensures Slot.exec κ (fun _ => Q) (receiveApacket ⟨m, adbMaxPacketSize, 0, 0⟩)
            (t.withBuffer ⟨m, adbMaxPacketSize, 0, 0⟩)) :
    Prog.Ensures Slot.exec κ (fun _ => Q) adbWaitApacketHandler s := by
  unfold adbWaitApacketHandler
  refine getBuffer_rule h.holds hf fun _ => ?_
  cases hb : s.conn.buffer with
  | some b =>
    show Prog.Ensures _ _ _ (waitApacket b) _
    rw [waitApacket_eq]
    exact setBuffer_rule _ h.holds hf fun _ hx => hbuffer b hb hx
  | none =>
    refine (createBuf_spec h hf (by decide)).andThen fun res t ⟨ht, hres⟩ => ?_
    cases res with
    | none => exact hnone t hb ht
    | some b =>
      obtain ⟨m, rfl⟩ := hres b rfl
      refine setBuffer_rule _ ht.settled.holds (ht.quiet.alive hf) fun _ hx => ?_
      obtain ⟨hk, hnext⟩ := hcreate t m hb ht hx
      rw [waitApacket_eq]
      exact setBuffer_rule _ hk (ht.quiet.alive hf) fun _ _ => hnext

end Xdbd
