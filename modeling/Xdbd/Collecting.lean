import Xdbd.Receiving

/-!
# Collecting a packet

The functions that fill the receive buffer and take a header and a payload out of it: which
bytes are asked for, what a result of `c->recv` does to the cursors, and what is copied. Nothing
is assumed of the cursors here.
-/
namespace Xdbd
open Interaction Code

variable {s t u : Slot} {b : Buf} {κ : Prog.Contract Slot}

/-- The free part of the buffer `b`, as it is computed. -/
def Buf.window (b : Buf) : ℕ := sizeT (b.cap - b.last)

/-- What `c->recv` makes of the free part of `b`. -/
def Slot.taken (s : Slot) (b : Buf) : Received := unixRecv s.read b.window s.wire.recvs

lemma Slot.taken_cases (s : Slot) (b : Buf)
    (h0 : ¬ ((s.taken b).n = 0 ∨ (s.taken b).n = xdbdErr)) :
    (s.taken b).n = xdbdAgain ∨
      0 < (s.taken b).bytes.length ∧ (s.taken b).n = (s.taken b).bytes.length := by
  rcases unixRecv_cases s.read b.window s.wire.recvs with h | h | h | h
  · exact absurd (.inl h.1) h0
  · exact .inl h.1
  · exact absurd (.inr h.1) h0
  · exact .inr ⟨h.2.1, h.1⟩

lemma Slot.taken_count {s : Slot} {b : Buf} (h : (s.taken b).bytes ≠ []) :
    (s.taken b).n = (s.taken b).bytes.length := by
  rcases unixRecv_cases s.read b.window s.wire.recvs with hc | hc | hc | hc
  · exact absurd hc.2 h
  · exact absurd hc.2 h
  · exact absurd hc.2 h
  · exact hc.1

/-- The bytes that arrive behind `last` are stored inside `b`. -/
def Slot.Stores (s : Slot) (b : Buf) : Prop :=
  (s.taken b).bytes ≠ [] → 0 ≤ b.last ∧ b.last + (s.taken b).bytes.length ≤ b.cap

/-- The slot after `c->recv` into the free part of `b`. -/
def Slot.fetched (s : Slot) (b : Buf) : Slot := s.received b b.last b.window

def Slot.withBuffer (s : Slot) (b : Buf) : Slot :=
  { s with conn := { s.conn with buffer := some b } }

def Slot.withRequest (s : Slot) (r : Request) : Slot :=
  { s with conn := { s.conn with data := .request r } }

/-- The buffer after a result `n` of `c->recv` that stored `bs` was added to `last`. -/
def Buf.advance (b : Buf) (bs : List UInt8) (n : ℤ) : Buf :=
  { b with mem := Block.write b.mem b.last.toNat bs, last := b.last + n }

/-- The slot after the result of `c->recv` was added to `last`. -/
def Slot.advanced (s : Slot) (b : Buf) : Slot :=
  (s.fetched b).withBuffer (b.advance (s.taken b).bytes (s.taken b).n)

structure Fetchable (s : Slot) (b : Buf) : Prop where
  usable : s.Usable
  stores : s.Stores b

lemma Buf.window_eq (hlast : 0 ≤ b.last) (hfits : b.last ≤ b.cap) (hcap : b.cap < 2^32) :
    (b.window : ℤ) = b.cap - b.last := sizeT_of_nat (by omega) (by omega)

lemma Buf.Ok.window (h : b.Ok) : (b.window : ℤ) = b.cap - b.last :=
  Buf.window_eq (h.pos.trans h.size) h.last h.cap

lemma Fetchable.of_cursors (hs : s.Usable) (hlast : 0 ≤ b.last) (hfits : b.last ≤ b.cap)
    (hcap : b.cap < 2^32) : Fetchable s b := by
  refine ⟨hs, fun _ => ⟨hlast, ?_⟩⟩
  have hwin := Buf.window_eq hlast hfits hcap
  have hlen : (s.taken b).bytes.length ≤ b.window := unixRecv_length _ _ _
  omega

lemma Slot.Usable.fetched (h : s.Usable) (b : Buf) : (s.fetched b).Usable :=
  ⟨h.alive, h.unixIo, h.listening, h.fd, h.allocs⟩

lemma Slot.fetched_active (b : Buf) : (s.fetched b).read.active = s.read.active := by
  show (unixRecv s.read b.window s.wire.recvs).rev.active = _
  rw [unixRecv_rev]

section
variable {α : Type} {Q : α → Slot → Prop}

lemma recvIfReady_rule {f : ℤ → Code α} (hs : κ.keep s) (hb : s.conn.buffer = some b)
    (hr : s.read.ready = true) (hf : κ.fail ∨ Fetchable s b)
    (hk : s.Stores b → κ.assume (s.fetched b) →
      Prog.Ensures Slot.exec κ Q (f (s.taken b).n) (s.fetched b)) :
    Prog.Ensures Slot.exec κ Q (recvIfReady b >>= f) s := by
  unfold recvIfReady
  rw [bind_assoc]
  refine readEvent_rule hs ?_
  rw [if_pos hr]
  refine recv_rule _ _ hs (hf.imp_right fun hf => ⟨hf.usable.alive, hf.usable.unixIo, b, hb,
    hf.stores⟩) fun b' _ hb' hin hx => ?_
  obtain rfl := Option.some.inj (hb.symm.trans hb')
  exact hk hin hx

end

section
variable {Q : ℕ → Slot → Prop}

lemma advance_rule (hx : κ.keep (s.fetched b)) (hf : κ.fail ∨ s.conn.destroyed = false)
    (hk : κ.assume (s.advanced b) →
      κ.keep (s.advanced b) ∧ Q (sizeT (s.taken b).n) (s.advanced b)) :
    Prog.Ensures Slot.exec κ Q (do
      let b' ← deref (← getBuffer)
      setBuffer { b' with last := b'.last + (s.taken b).n }
      return sizeT (s.taken b).n) (s.fetched b) := by
  refine getBuffer_rule hx hf fun _ => deref_rule hx (.inr (by simp [Slot.fetched, Slot.received,
    Slot.log])) fun b' hb' => ?_
  obtain rfl := Option.some.inj hb'
  exact setBuffer_rule _ hx hf fun _ hy => .pure (hk hy).1 (hk hy).2

lemma close_rule (hs : κ.keep s) (hf : κ.fail ∨ s.Usable)
    (hk : κ.assume s.closed → κ.keep s.closed ∧ Q (sizeT xdbdErr) s.closed) :
    Prog.Ensures Slot.exec κ Q (do
      adbCloseRequest
      return sizeT xdbdErr) s :=
  closeConnection_rule hs (hf.imp_right fun hf => ⟨hf.listening, hf.fd⟩) fun ht =>
    .pure (hk ht).1 (hk ht).2

theorem adbReadAdbHeader_rule (hs : κ.keep s) (hr : ∃ r, s.conn.data = .request r)
    (hb : s.conn.buffer = some b) (hready : s.read.ready = true) (hactive : s.read.active = true)
    (hf : κ.fail ∨ Fetchable s b)
    (henough : headerSize ≤ sizeT (bufSize b) → Q (sizeT (bufSize b)) s)
    (hfetch : sizeT (bufSize b) < headerSize → κ.assume (s.fetched b) → κ.keep (s.fetched b))
    (hagain : sizeT (bufSize b) < headerSize → κ.assume (s.fetched b) →
      (s.taken b).n = xdbdAgain → Q (sizeT xdbdAgain) (s.fetched b))
    (hclose : sizeT (bufSize b) < headerSize → (s.taken b).n = 0 ∨ (s.taken b).n = xdbdErr →
      κ.assume (s.fetched b).closed →
        κ.keep (s.fetched b).closed ∧ Q (sizeT xdbdErr) (s.fetched b).closed)
    (hbytes : sizeT (bufSize b) < headerSize → s.Stores b → 0 < (s.taken b).bytes.length →
      (s.taken b).n = (s.taken b).bytes.length → κ.assume (s.advanced b) →
        κ.keep (s.advanced b) ∧ Q (sizeT (s.taken b).n) (s.advanced b)) :
    Prog.Ensures Slot.exec κ Q adbReadAdbHeader s := by
  have halive := hf.imp_right fun hf => hf.usable.alive
  unfold adbReadAdbHeader
  refine getRequest_rule hs (halive.imp_right fun h => ⟨h, hr⟩) fun _ _ _ => ?_
  refine getBuffer_rule hs halive fun _ => deref_rule hs (.inr (by simp [hb])) fun b' hb' => ?_
  obtain rfl : b = b' := Option.some.inj (hb.symm.trans hb')
  split_ifs with hsize
  · exact .pure hs (henough hsize)
  · have hlt : sizeT (bufSize b) < headerSize := Nat.lt_of_not_le hsize
    refine recvIfReady_rule hs hb hready hf fun hin hx => ?_
    have hkx := hfetch hlt hx
    have husable := hf.imp_right fun hf => hf.usable.fetched b
    split_ifs with hn hn0
    · refine handleReadEvent_rule hkx ((Slot.fetched_active b).trans hactive) ?_
      exact .pure hkx (hagain hlt hx hn)
    · exact close_rule hkx husable (hclose hlt hn0)
    · obtain ⟨hpos, hlen⟩ := (s.taken_cases b hn0).resolve_left hn
      exact advance_rule hkx halive (hbytes hlt hin hpos hlen)

/-- `xdbd_adb_read_adb_payload`, on a ready event that is armed. A would-block result is added
to `last` as well. -/
theorem adbReadAdbPayload_rule (hs : κ.keep s) {r : Request} (hr : s.conn.data = .request r)
    (hb : s.conn.buffer = some b) (hready : s.read.ready = true) (hactive : s.read.active = true)
    (hf : κ.fail ∨ Fetchable s b)
    (henough : (r.h.dlen.toNat : ℤ) ≤ bufSize b → Q (sizeT (bufSize b)) s)
    (hfetch : bufSize b < r.h.dlen.toNat → κ.assume (s.fetched b) → κ.keep (s.fetched b))
    (hclose : bufSize b < r.h.dlen.toNat → (s.taken b).n = 0 ∨ (s.taken b).n = xdbdErr →
      κ.assume (s.fetched b).closed →
        κ.keep (s.fetched b).closed ∧ Q (sizeT xdbdErr) (s.fetched b).closed)
    (hadvance : bufSize b < r.h.dlen.toNat → s.Stores b → κ.assume (s.advanced b) →
      (s.taken b).n = xdbdAgain ∨
        0 < (s.taken b).bytes.length ∧ (s.taken b).n = (s.taken b).bytes.length →
      κ.keep (s.advanced b) ∧ Q (sizeT (s.taken b).n) (s.advanced b)) :
    Prog.Ensures Slot.exec κ Q adbReadAdbPayload s := by
  have halive := hf.imp_right fun hf => hf.usable.alive
  unfold adbReadAdbPayload
  refine getRequest_rule hs (halive.imp_right fun h => ⟨h, r, hr⟩) fun r' _ hr' => ?_
  obtain rfl : r = r' := Data.request.inj (hr.symm.trans hr')
  refine getBuffer_rule hs halive fun _ => deref_rule hs (.inr (by simp [hb])) fun b' hb' => ?_
  obtain rfl : b = b' := Option.some.inj (hb.symm.trans hb')
  split_ifs with hsize
  · exact .pure hs (henough hsize)
  · have hlt : bufSize b < r.h.dlen.toNat := Int.lt_of_not_ge hsize
    refine recvIfReady_rule hs hb hready hf fun hin hx => ?_
    have hkx := hfetch hlt hx
    have husable := hf.imp_right fun hf => hf.usable.fetched b
    -- after the event was armed, the three results that are not errors are treated alike
    have hafter : Prog.Ensures Slot.exec κ Q
        (if (s.taken b).n = 0 ∨ (s.taken b).n = xdbdErr then (do
          adbCloseRequest
          return sizeT xdbdErr)
        else (do
          let b' ← deref (← getBuffer)
          setBuffer { b' with last := b'.last + (s.taken b).n }
          return sizeT (s.taken b).n)) (s.fetched b) := by
      split_ifs with hn0
      · exact close_rule hkx husable (hclose hlt hn0)
      · exact advance_rule hkx halive fun hy => hadvance hlt hin hy (s.taken_cases b hn0)
    by_cases hn : (s.taken b).n = xdbdAgain
    · rw [if_pos hn]
      exact handleReadEvent_rule hkx ((Slot.fetched_active b).trans hactive) hafter
    · rw [if_neg hn]
      exact hafter

end

section
variable {Q : Rc → Slot → Prop}

def Request.withHeader (r : Request) (h : Header) : Request :=
  { r with h := h, p := { r.p with header := h } }

def Buf.header (b : Buf) : Header := Header.ofBytes (Block.read b.mem 0 headerSize)

theorem adbParseAdbHeader_rule (hs : κ.keep s) {r : Request} (hr : s.conn.data = .request r)
    (hb : s.conn.buffer = some b) (hf : κ.fail ∨ s.Usable)
    (hagain : sizeT (bufSize b) < headerSize → Q .again s)
    (hheader : headerSize ≤ sizeT (bufSize b) → κ.assume (s.withRequest (r.withHeader b.header)) →
      κ.keep (s.withRequest (r.withHeader b.header)))
    (hok : headerSize ≤ sizeT (bufSize b) →
      κ.assume ((s.withRequest (r.withHeader b.header)).withBuffer
        { b with pos := b.pos + headerSize }) →
      κ.keep ((s.withRequest (r.withHeader b.header)).withBuffer
        { b with pos := b.pos + headerSize }) ∧
      Q .ok ((s.withRequest (r.withHeader b.header)).withBuffer
        { b with pos := b.pos + headerSize })) :
    Prog.Ensures Slot.exec κ Q adbParseAdbHeader s := by
  have halive := hf.imp_right Slot.Usable.alive
  unfold adbParseAdbHeader
  refine getBuffer_rule hs halive fun _ => deref_rule hs (.inr (by simp [hb])) fun b' hb' => ?_
  obtain rfl : b = b' := Option.some.inj (hb.symm.trans hb')
  split_ifs with hsize
  · exact .pure hs (hagain hsize)
  · have hle : headerSize ≤ sizeT (bufSize b) := Nat.le_of_not_lt hsize
    refine getRequest_rule hs (halive.imp_right fun h => ⟨h, r, hr⟩) fun r' _ hr' => ?_
    obtain rfl : r = r' := Data.request.inj (hr.symm.trans hr')
    refine setRequest_rule _ hs halive fun _ hx => ?_
    refine setBuffer_rule _ (hheader hle hx) halive fun _ hy => ?_
    exact .pure (hok hle hy).1 (hok hle hy).2

def Request.withPayload (r : Request) (payload : Buf) : Request :=
  { r with p := { r.p with payload } }

/-- The slot once the length of an append from `b` is known. -/
def Slot.appending (s : Slot) (b : Buf) : Slot := s.log (.append b.pos b.last (sizeT (bufSize b)))

/-- What is appended from `b`: everything that is between the cursors if they are in order. -/
def Buf.appended (b : Buf) : List UInt8 := (Src.ofBuf b).take (sizeT (bufSize b))

/-- The payload of `r` after `b` was appended to it: it has grown, unless memory was short. -/
structure Copied (s : Slot) (r : Request) (b payload : Buf) : Prop where
  ok : payload.Ok
  live : payload.live = r.p.payload.live ++ b.appended ∨ payload = r.p.payload ∧
    ¬ (s.AllocsSucceed ∧ bufSize r.p.payload + sizeT (bufSize b) < 2^32)

lemma Quiet.withRequest (h : Quiet s t) (r : Request) :
    Quiet (s.withRequest r) (t.withRequest r) where
  same := by rw [h.same]; rfl
  allocs := h.allocs
  history := h.history

lemma Slot.withRequest_self {r : Request} (hr : s.conn.data = .request r) :
    (s.appending b).withRequest r = s.appending b := by
  unfold Slot.withRequest
  rw [← show (s.appending b).conn.data = .request r from hr]

lemma Copied.dumpable {r : Request} {payload : Buf} (hc : Copied s r b payload)
    (hp : r.p.payload.Ok)
    (hb : b.Ok) (hsize : 2 * (bufSize r.p.payload + bufSize b) < 2^32) :
    2 * bufSize payload < 2^32 := by
  have hb' := hb.bufSize_nonneg
  have hlen := hb.sizeT
  rcases hc.live with hl | hl
  · rw [← hc.ok.live_length, hl, List.length_append, Buf.appended, Src.take_length, Nat.cast_add,
      hp.live_length]
    omega
  · rw [hl.1]
    omega

lemma append_fits {payload : Buf} (hp : payload.Ok) (hb : b.Ok)
    (hsize : 2 * (bufSize payload + bufSize b) < 2^32) :
    sizeT (bufSize b) ≤ (Src.ofBuf b).avail ∧ bufSize payload + sizeT (bufSize b) < 2^32 := by
  have hlen := hb.sizeT
  have hnonneg := hb.bufSize_nonneg
  have hpayload := hp.bufSize_nonneg
  constructor
  · have := Src.avail_ofBuf hb
    have := hb.last
    have : bufSize b = b.last - b.pos := rfl
    omega
  · omega

lemma dumpPayload_rule {y : Slot} {r : Request} {payload : Buf} (hs : Settled κ y)
    (hr : y.conn.data = .request (r.withPayload payload)) (hb : y.conn.buffer = some b)
    (hp : payload.Ok)
    (hf : κ.fail ∨ y.conn.destroyed = false ∧ y.AllocsSucceed ∧ 2 * bufSize payload < 2^32)
    (hok : ∀ z, Quiet y z →
      κ.assume (z.withBuffer { b with pos := b.pos + r.p.header.dlen.toNat }) →
      κ.keep (z.withBuffer { b with pos := b.pos + r.p.header.dlen.toNat }) ∧
        Q .ok (z.withBuffer { b with pos := b.pos + r.p.header.dlen.toNat })) :
    Prog.Ensures Slot.exec κ Q (do
      let r ← getRequest
      dumpAdbPacket r.p
      let b ← deref (← getBuffer)
      setBuffer { b with pos := b.pos + r.p.header.dlen.toNat }
      return .ok) y := by
  refine getRequest_rule hs.holds (hf.imp_right fun hf => ⟨hf.1, _, hr⟩) fun r' _ hr' => ?_
  obtain rfl : r.withPayload payload = r' := Data.request.inj (hr.symm.trans hr')
  refine (dumpAdbPacket_spec hs hp hf).andThen fun _ z ⟨hz, hq⟩ => ?_
  have halive : κ.fail ∨ z.conn.destroyed = false :=
    hf.imp_right fun hf => by rw [hq.conn]; exact hf.1
  have hbz : z.conn.buffer = some b := by rw [hq.conn, hb]
  refine getBuffer_rule hz.holds halive fun _ =>
    deref_rule hz.holds (.inr (by simp [hbz])) fun b' hb' => ?_
  obtain rfl : b = b' := Option.some.inj (hbz.symm.trans hb')
  refine setBuffer_rule _ hz.holds halive fun _ hx => ?_
  obtain ⟨hk, hq'⟩ := hok z hq hx
  exact .pure hk hq'

theorem adbParseAdbPayload_rule (hs : κ.keep s) {r : Request} (hr : s.conn.data = .request r)
    (hb : s.conn.buffer = some b) (hp : r.p.payload.Ok)
    (hf : κ.fail ∨ s.Usable ∧ b.Ok ∧ 2 * (bufSize r.p.payload + bufSize b) < 2^32)
    (hset : κ.assume (s.appending b) → Settled κ (s.appending b))
    (hcopy : ∀ payload t, Copied s r b payload → Quiet ((s.appending b).withRequest
      (r.withPayload payload)) t → κ.assume t → κ.keep t)
    (hok : ∀ payload t, Copied s r b payload → Quiet ((s.appending b).withRequest
      (r.withPayload payload)) t →
      κ.assume (t.withBuffer { b with pos := b.pos + r.p.header.dlen.toNat }) →
      κ.keep (t.withBuffer { b with pos := b.pos + r.p.header.dlen.toNat }) ∧
        Q .ok (t.withBuffer { b with pos := b.pos + r.p.header.dlen.toNat })) :
    Prog.Ensures Slot.exec κ Q adbParseAdbPayload s := by
  have halive := hf.imp_right fun hf => hf.1.alive
  have htail : ∀ payload y, Copied s r b payload →
      Quiet ((s.appending b).withRequest (r.withPayload payload)) y → κ.assume y →
      Prog.Ensures Slot.exec κ Q _ y := fun payload y hc hq ha =>
    dumpPayload_rule ⟨ha, fun u hu hau => hcopy payload u hc (hq.trans hu) hau⟩
      (by rw [hq.conn]; rfl) (by rw [hq.conn]; exact hb) hc.ok
      (hf.imp_right fun hf => ⟨by rw [hq.conn]; exact hf.1.alive, hq.allocsSucceed hf.1.allocs,
        hc.dumpable hp hf.2.1 hf.2.2⟩)
      fun z hz => hok payload z hc (hq.trans hz)
  unfold adbParseAdbPayload bufAppendBuf
  refine getRequest_rule hs (halive.imp_right fun h => ⟨h, r, hr⟩) fun r' _ hr' => ?_
  obtain rfl : r = r' := Data.request.inj (hr.symm.trans hr')
  refine getBuffer_rule hs halive fun _ => deref_rule hs (.inr (by simp [hb])) fun b' hb' => ?_
  obtain rfl : b = b' := Option.some.inj (hb.symm.trans hb')
  rw [bind_assoc]
  refine note_rule _ hs fun hx => ?_
  have hfit := hf.imp_right fun hf => And.intro hf.1.alive (append_fits hp hf.2.1 hf.2.2)
  refine (bufAppendMem_spec (hset hx) hp (Src.ofBuf b) (sizeT (bufSize b)) hfit).andThen
    fun res t ht => ?_
  cases res with
  | none =>
    -- without memory the payload stays as it was
    refine htail r.p.payload t ⟨hp, .inr ⟨rfl, fun h => ?_⟩⟩ ?_ ht.settled.assume
    · refine absurd rfl (ht.succeeds h.1 ?_)
      rw [Src.take_length]
      exact h.2
    · rw [show r.withPayload r.p.payload = r from rfl, Slot.withRequest_self hr]
      exact ht.quiet
  | some payload =>
    refine setRequest_rule _ ht.settled.holds (halive.imp_right fun h => ?_) fun _ hy => ?_
    · rw [ht.quiet.conn]
      exact h
    · exact htail payload _ ⟨ht.ok payload rfl, .inl (ht.live payload rfl)⟩
        (ht.quiet.withRequest (r.withPayload payload)) hy

end

/-! ## A new packet -/

/-- A request as it is created, with the memory `m` for its payload. -/
def Request.fresh (m : Mem) : Request :=
  ⟨Header.zero, ⟨Header.zero, ⟨m, adbMaxPacketSize, 0, 0⟩⟩, none⟩

lemma adbCreateRequest_spec (h : Settled κ s) (hf : κ.fail ∨ s.conn.destroyed = false) :
    Prog.Ensures Slot.exec κ (fun r t => Allocated κ 4 s t r.isSome ∧
      ∀ r', r = some r' → ∃ m, r' = .fresh m) adbCreateRequest s := by
  unfold adbCreateRequest
  refine (palloc_allocated h hf (by decide)).andThen fun m t ht => ?_
  cases m with
  | none => exact .pure ht.settled.holds ⟨ht.mono (by omega), fun b hb => by cases hb⟩
  | some m =>
    refine (palloc_allocated ht.settled (ht.quiet.alive hf) (by decide)).andThen fun m' u hu => ?_
    have hsu := ht.next hu
    cases m' with
    | none => exact .pure hu.settled.holds ⟨hsu.mono (by omega), fun b hb => by cases hb⟩
    | some m' =>
      refine (createBuf_spec hu.settled (hsu.quiet.alive hf) (by decide)).andThen
        fun p v ⟨hv, hp⟩ => ?_
      cases p with
      | none => exact .pure hv.settled.holds ⟨hsu.next hv, fun b hb => by cases hb⟩
      | some p =>
        refine .pure hv.settled.holds ⟨hsu.next hv, fun r hr => ?_⟩
        cases hr
        obtain ⟨m'', rfl⟩ := hp p rfl
        exact ⟨m'', rfl⟩

lemma sizeT_small {n m : ℤ} (hn : -2 ≤ n ∧ n < 2^32) (hm : -2 ≤ m ∧ m < 2^32) :
    sizeT n = sizeT m ↔ n = m := by
  unfold sizeT
  omega

/-- `xdbd_adb_wait_apacket_handler` from the call of `c->recv` on. -/
def receiveApacket (b : Buf) : Code Unit := do
  let n ← recv 0 b.cap
  if sizeT n = sizeT xdbdErr then closeConnection
  else if sizeT n = sizeT xdbdAgain then
    match ← handleReadEvent 0 with
    | .ok => return ()
    | _ => closeConnection
  else if sizeT n = 0 then closeConnection
  else
    let b ← deref (← getBuffer)
    setBuffer { b with last := b.last + n }
    match ← adbCreateRequest with
    | none =>
      setData none
      closeConnection
    | some r =>
      setData (some r)
      setHandler .adbProcessAdbHeader
      adbProcessAdbHeader

lemma waitApacket_eq (b : Buf) :
    waitApacket b = (do setBuffer (resetBuf b); receiveApacket (resetBuf b)) := rfl

/-- The receive buffer is empty and a request is made for what arrives. -/
theorem receiveApacket_rule {Q : Unit → Slot → Prop} (hs : κ.keep s)
    (hb : s.conn.buffer = some b) (hlast : b.last = 0) (hcap : b.cap < 2^32)
    (hactive : s.read.active = true) (hf : κ.fail ∨ s.Usable)
    (hfetch : κ.assume (s.fetched b) → κ.keep (s.fetched b))
    (hagain : κ.assume (s.fetched b) → (s.taken b).n = xdbdAgain → Q () (s.fetched b))
    (hclose : (s.taken b).n = 0 ∨ (s.taken b).n = xdbdErr → κ.assume (s.fetched b).closed →
      κ.keep (s.fetched b).closed ∧ Q () (s.fetched b).closed)
    (hbytes : 0 < (s.taken b).bytes.length → (s.taken b).n = (s.taken b).bytes.length →
      κ.assume (s.advanced b) → Settled κ (s.advanced b))
    (hnone : ∀ t, Allocated κ 4 (s.advanced b) t false →
      Prog.Ensures Slot.exec κ Q (do setData none; Code.closeConnection) t)
    (hrequest : ∀ t m, Allocated κ 4 (s.advanced b) t true → 0 < (s.taken b).bytes.length →
      (s.taken b).n = (s.taken b).bytes.length → κ.assume (t.withRequest (.fresh m)) →
      κ.keep (t.withRequest (.fresh m)) ∧
        (κ.assume ((t.withRequest (.fresh m)).handledBy .adbProcessAdbHeader) →
          Prog.Ensures Slot.exec κ Q adbProcessAdbHeader
            ((t.withRequest (.fresh m)).handledBy .adbProcessAdbHeader))) :
    Prog.Ensures Slot.exec κ Q (receiveApacket b) s := by
  have halive := hf.imp_right Slot.Usable.alive
  have hwin : b.window = b.cap := by
    have : (b.window : ℤ) = b.cap - b.last := sizeT_of_nat (by omega) (by omega)
    omega
  have hx : s.received b 0 b.cap = s.fetched b := by
    unfold Slot.fetched
    rw [hlast, hwin]
  have hn : (unixRecv s.read b.cap s.wire.recvs) = s.taken b := by
    unfold Slot.taken
    rw [hwin]
  unfold receiveApacket
  have hfits : (unixRecv s.read b.cap s.wire.recvs).bytes.length ≤ b.cap := unixRecv_length _ _ _
  refine recv_rule 0 b.cap hs (hf.imp_right fun hf => ⟨hf.alive, hf.unixIo, b, hb, fun _ =>
    ⟨le_rfl, by omega⟩⟩) fun b' _ hb' _ hax => ?_
  obtain rfl := Option.some.inj (hb.symm.trans hb')
  rw [hx] at hax ⊢
  rw [hn] at hfits ⊢
  have hkx := hfetch hax
  have husable := hf.imp_right fun hf => hf.fetched b
  by_cases h0 : (s.taken b).n = 0 ∨ (s.taken b).n = xdbdErr
  · have hclosed : Prog.Ensures Slot.exec κ Q Code.closeConnection (s.fetched b) :=
      .of_bind_pure (closeConnection_rule hkx (husable.imp_right fun hf => ⟨hf.listening, hf.fd⟩)
        fun ht => .pure (hclose h0 ht).1 (hclose h0 ht).2)
    rcases h0 with h | h
    · rw [h, if_neg (by decide), if_neg (by decide), if_pos (by decide)]
      exact hclosed
    · rw [h, if_pos rfl]
      exact hclosed
  rcases s.taken_cases b h0 with h | ⟨hpos, hlen⟩
  · rw [h, if_neg (by decide), if_pos rfl]
    exact handleReadEvent_rule hkx ((Slot.fetched_active b).trans hactive)
      (.pure hkx (hagain hax h))
  · have hne : ∀ m : ℤ, -2 ≤ m ∧ m ≤ 0 → sizeT (s.taken b).n ≠ sizeT m := fun m hm he => by
      have := (sizeT_small (by omega) (by omega)).mp he
      omega
    rw [if_neg (hne _ (by decide)), if_neg (hne _ (by decide)),
      if_neg (show sizeT (s.taken b).n ≠ 0 from hne 0 (by decide))]
    refine getBuffer_rule hkx halive fun _ => deref_rule hkx (.inr (by simp [Slot.fetched,
      Slot.received, Slot.log])) fun b' hb' => ?_
    obtain rfl := Option.some.inj hb'
    refine setBuffer_rule _ hkx halive fun _ hy => ?_
    have hset : Settled κ (s.advanced b) := hbytes hpos hlen hy
    refine (adbCreateRequest_spec hset halive).andThen fun r t hrt => ?_
    obtain ⟨ht, hr⟩ := hrt
    cases r with
    | none => exact hnone t ht
    | some r =>
      obtain ⟨m, rfl⟩ := hr r rfl
      have hdt : t.conn.destroyed = s.conn.destroyed := by rw [ht.quiet.conn]; rfl
      refine setData_rule _ ht.settled.holds (halive.imp_right fun h => hdt.trans h) fun _ hz => ?_
      obtain ⟨hk, hnext⟩ := hrequest t m ht hpos hlen hz
      exact setHandler_rule _ hk hnext

end Xdbd
