import Xdbd.Framing
import Xdbd.Coalescing
import Xdbd.Conversation
import Xdbd.Paused

/-!
# The streams of a connection

The packets that are dispatched, each with its header, are what has arrived, byte for byte, as long
as no read of a payload would block. So the packets are those of the adb format if each of them came
with its payload.
-/
namespace Xdbd
open Interaction Code

variable {s t u : Slot} {b : Buf} {r : Request} {bs c : List UInt8} {k : ℕ}

/-! ## The format -/

lemma headerOf_append (hbs : headerSize ≤ bs.length) (c : List UInt8) :
    headerOf (bs ++ c) = headerOf bs := by
  rw [headerOf, headerOf, List.take_append_of_le_length hbs]

lemma headerOf_encode (q : Header × List UInt8) (l : List UInt8) :
    headerOf (encode q ++ l) = q.1 := by
  have hlen := q.1.bytes_length
  rw [encode, List.append_assoc, headerOf_append (by rw [hlen]), headerOf,
    List.take_of_length_le (by rw [hlen])]
  simpa using q.1.ofBytes_bytes []

lemma headerOf_bytes (hbs : headerSize ≤ bs.length) :
    (headerOf bs).bytes = bs.take headerSize := by
  rw [headerOf, Header.bytes_ofBytes (by simpa using hbs), List.take_take, min_self]

/-- The first packet in the stream: a header, and as many bytes as it announces. -/
def decodePacket (bs : List UInt8) : Option ((Header × List UInt8) × List UInt8) :=
  if bs.length < headerSize + (headerOf bs).dlen.toNat then none
  else some ((headerOf bs, (bs.drop headerSize).take (headerOf bs).dlen.toNat),
    bs.drop (headerSize + (headerOf bs).dlen.toNat))

lemma encode_ne_nil (q : Header × List UInt8) : encode q ≠ [] := fun hn => by
  have hlen := congrArg List.length hn
  rw [encode, List.length_append, Header.bytes_length, List.length_nil, headerSize] at hlen
  omega

lemma decodePacket_encode {q : Header × List UInt8} (hq : q.2.length = q.1.dlen.toNat)
    (l : List UInt8) : decodePacket (encode q ++ l) = some (q, l) := by
  have hlen := q.1.bytes_length
  have hdrop : ∀ n, (encode q ++ l).drop (headerSize + n) = (q.2 ++ l).drop n := fun n => by
    rw [encode, List.append_assoc, ← hlen, List.drop_length_add_append]
  have hskip := hdrop 0
  rw [decodePacket, headerOf_encode, if_neg (by simp [encode, hq]), hdrop, ← hq]
  simp only [Nat.add_zero, List.drop_zero] at hskip
  simp [hskip]

lemma encode_decodePacket {q : Header × List UInt8} {rest : List UInt8}
    (ha : decodePacket bs = some (q, rest)) :
    q.2.length = q.1.dlen.toNat ∧ encode q ++ rest = bs := by
  unfold decodePacket at ha
  split_ifs at ha with hshort
  obtain ⟨rfl, rfl⟩ := Prod.mk.inj (Option.some.inj ha)
  have hle : headerSize + (headerOf bs).dlen.toNat ≤ bs.length := not_lt.mp hshort
  refine ⟨by simp; omega, ?_⟩
  rw [encode, headerOf_bytes (by omega), List.append_assoc, ← List.drop_drop, List.take_append_drop,
    List.take_append_drop]

def adbFormat : Framing.Format (Header × List UInt8) UInt8 where
  encode := encode
  Valid q := q.2.length = q.1.dlen.toNat
  decode := decodePacket
  encode_ne_nil q _ := encode_ne_nil q
  decode_encode _ hq l := decodePacket_encode hq l
  encode_decode _ _ _ ha := encode_decodePacket ha

lemma adbFormat_short (hbs : bs.length < headerSize) : adbFormat.decode bs = none :=
  if_pos (by omega)

/-! ## What has arrived and what was dispatched -/

/-- The packets dispatched and then `bs` are what has arrived. -/
def Divided (s : Slot) (bs : List UInt8) : Prop :=
  arrived s.wire.history = (dispatches s.wire.history).flatMap encode ++ bs

/-- What was dispatched has arrived, in this order and without anything between. -/
def Conserved (s : Slot) : Prop :=
  (dispatches s.wire.history).flatMap encode <+: arrived s.wire.history

lemma Obs.Inner.bytes {o : Obs} (ho : o.Inner) : o.bytes = [] := by
  rcases ho with hq | ⟨bs, rfl⟩
  · cases o <;> first | rfl | exact hq.elim
  · rfl

lemma arrived_inner {h : List Obs} (hin : ∀ o ∈ h, o.Inner) : arrived h = [] :=
  List.flatMap_eq_nil_iff.mpr fun o ho => (hin o ho).bytes

namespace Divided

lemma conserved (h : Divided s bs) : Conserved s := ⟨bs, h.symm⟩

lemma grow {new : List Obs} (h : Divided s bs) (hnew : t.wire.history = s.wire.history ++ new)
    (hd : dispatches new = []) (ha : arrived new = c) : Divided t (bs ++ c) := by
  unfold Divided at h ⊢
  rw [hnew, arrived_append, dispatches_append, hd, ha, h, List.append_nil, List.append_assoc]

lemma still {new : List Obs} (h : Divided s bs) (hnew : t.wire.history = s.wire.history ++ new)
    (hin : ∀ o ∈ new, o.Inner) : Divided t bs := by
  have hgrow := h.grow hnew (dispatches_inner hin) (arrived_inner hin)
  rwa [List.append_nil] at hgrow

lemma quiet (h : Divided s bs) (hq : Quiet s t) : Divided t bs := by
  obtain ⟨new, hnew, hn⟩ := hq.history
  exact h.still hnew fun o ho => .inl (hn o ho)

lemma working {e : List UInt8} (h : Divided s bs) (hw : Working s e t) : Divided t bs := by
  obtain ⟨new, hnew, hin, -⟩ := hw.held
  exact h.still hnew hin

lemma fetched (h : Divided s bs) (b : Buf) : Divided (s.fetched b) (bs ++ (s.taken b).bytes) :=
  h.grow rfl rfl (List.append_nil _)

lemma dispatching (h : Divided s bs) (hr : encode (r.p.header, r.p.payload.live) = bs) :
    Divided (s.dispatching r) [] := by
  have ha : arrived (s.dispatching r).wire.history = arrived s.wire.history :=
    (arrived_append _ _).trans (List.append_nil _)
  have hd : dispatches (s.dispatching r).wire.history =
      dispatches s.wire.history ++ [(r.p.header, r.p.payload.live)] := dispatches_append _ _
  unfold Divided at h ⊢
  rw [ha, hd, h, List.flatMap_append, ← hr]
  simp

end Divided

/-! ## Between two operations -/

/-- As long as no read of a payload would block, nothing is lost, not even by a fault. -/
def conserving : Prog.Contract Slot := ⟨fun s => Unblocked s.wire.history, Conserved, True⟩

/-- Between two operations of a handler, when `bs` are not dispatched. -/
structure Sure (s : Slot) (bs : List UInt8) : Prop where
  timeout : s.read.timeout = false
  cap : ∀ b, s.conn.buffer = some b → b.cap = adbMaxPacketSize
  past : Unblocked s.wire.history
  divided : Divided s bs

/-- A packet is collected: `bs` are in the receive buffer, and `k` of them were taken out. -/
structure Assembling (s : Slot) (r : Request) (b : Buf) (bs : List UInt8) (k : ℕ) : Prop where
  data : s.conn.data = .request r
  out : r.out = none
  payload : r.p.payload.Holds [] 0
  buffer : s.conn.buffer = some b
  holds : b.Holds bs k

/-- Between two read events. No payload is collected, since a packet is complete after the event
that has brought its header, unless a read would block. -/
structure Calm (s : Slot) : Prop where
  timeout : s.read.timeout = false
  cap : ∀ b, s.conn.buffer = some b → b.cap = adbMaxPacketSize
  payload : s.conn.destroyed = false → s.read.handler ≠ some (.adb .adbProcessAdbPayload)
  rest : ∃ bs, Divided s bs ∧ (s.conn.destroyed = false →
    if s.read.handler = some (.adb .adbProcessAdbHeader) then
      bs.length < headerSize ∧ ∃ r b, Assembling s r b bs 0
    else bs = [])

lemma Slot.taken_again (hn : (s.taken b).n = xdbdAgain) : (s.taken b).bytes = [] := by
  rcases unixRecv_cases s.read b.window s.wire.recvs with h | h | h | h
  · exact h.2
  · exact h.2
  · exact h.2
  · exact absurd (h.1.symm.trans hn) count_ne_again

lemma Unblocked.inner {h new : List Obs} (hu : Unblocked h) (hn : ∀ c, .recv c ∉ new) :
    Unblocked (h ++ new) := fun c hc =>
  hu c ((List.mem_append.mp hc).resolve_right (hn c))

namespace Sure

lemma conserved (h : Sure s bs) : Conserved s := h.divided.conserved

lemma quiet (h : Sure s bs) (hq : Quiet s t) : Sure t bs where
  timeout := by rw [hq.read]; exact h.timeout
  cap b hb := h.cap b (by rw [← hq.conn]; exact hb)
  past := by
    obtain ⟨new, hnew, hn⟩ := hq.history
    rw [hnew]
    exact h.past.inner (Obs.Quiet.not_recv hn)
  divided := h.divided.quiet hq

lemma settled (h : Sure s bs) : Settled conserving s :=
  ⟨h.past, fun _ hq _ => (h.quiet hq).conserved⟩

lemma working {e : List UInt8} (h : Sure s bs) (hw : Working s e t) : Sure t bs where
  timeout := by rw [hw.same]; exact h.timeout
  cap b hb := h.cap b (by rw [hw.same] at hb; exact hb)
  past := by
    obtain ⟨new, hnew, hn, -⟩ := hw.held
    rw [hnew]
    exact h.past.inner (Obs.Inner.not_recv hn)
  divided := h.divided.working hw

lemma withBuffer (h : Sure s bs) (hb : b.cap = adbMaxPacketSize) :
    Sure (s.withBuffer b) bs where
  timeout := h.timeout
  cap b' hb' := by
    rw [← Option.some.inj hb']
    exact hb
  past := h.past
  divided := h.divided

lemma withData (h : Sure s bs) (d : Data) :
    Sure { s with conn := { s.conn with data := d } } bs where
  timeout := h.timeout
  cap := h.cap
  past := h.past
  divided := h.divided

lemma handledBy (h : Sure s bs) (hd : AdbHandler) : Sure (s.handledBy hd) bs where
  timeout := h.timeout
  cap := h.cap
  past := h.past
  divided := h.divided

lemma log (h : Sure s bs) {o : Obs} (ho : ∀ call, o ≠ .recv call) (hd : Divided (s.log o) c) :
    Sure (s.log o) c where
  timeout := h.timeout
  cap := h.cap
  past := h.past.inner fun call hc => ho call (List.mem_singleton.mp hc).symm
  divided := hd

lemma appending (h : Sure s bs) (b : Buf) : Sure (s.appending b) bs := by
  have hgrow : Divided (s.appending b) (bs ++ []) := h.divided.grow rfl rfl rfl
  exact h.log (by simp) (by rwa [List.append_nil] at hgrow)

lemma dispatching (h : Sure s bs) (hr : encode (r.p.header, r.p.payload.live) = bs) :
    Sure (s.dispatching r) [] :=
  (h.handledBy .adbBlockReading).log (by simp) (h.divided.dispatching hr)

lemma fetched (h : Sure s bs) (hb : s.conn.buffer = some b)
    (hx : Unblocked (s.fetched b).wire.history) :
    Sure (s.fetched b) (bs ++ (s.taken b).bytes) where
  timeout := by
    show (unixRecv s.read b.window s.wire.recvs).rev.timeout = _
    rw [unixRecv_rev]
    exact h.timeout
  cap b' hb' := by
    rw [← Option.some.inj hb']
    exact h.cap b hb
  past := hx
  divided := h.divided.fetched b

lemma advanced (h : Sure s bs) (hb : s.conn.buffer = some b)
    (hx : Unblocked (s.advanced b).wire.history) :
    Sure (s.advanced b) (bs ++ (s.taken b).bytes) :=
  (h.fetched hb hx).withBuffer (h.cap b hb)

lemma calm (h : Sure s []) (hh : s.read.handler ≠ some (.adb .adbProcessAdbHeader))
    (hp : s.read.handler ≠ some (.adb .adbProcessAdbPayload)) : Calm s :=
  ⟨h.timeout, h.cap, fun _ => hp, [], h.divided, fun _ => by rw [if_neg hh]⟩

lemma closed (h : Sure s bs) : Calm s.closed where
  timeout := h.timeout
  cap := h.cap
  payload hc := absurd hc (by simp [Slot.closed])
  rest := ⟨bs, h.divided, fun hc => absurd hc (by simp [Slot.closed])⟩

lemma waiting (h : Sure s []) : Calm (s.handledBy .adbWaitApacketHandler) :=
  (h.handledBy _).calm (by simp [Slot.handledBy]) (by simp [Slot.handledBy])

lemma close (h : Sure s bs) :
    Prog.Ensures Slot.exec conserving (fun _ => Calm) Code.closeConnection s :=
  .of_bind_pure (closeConnection_rule (κ := conserving) h.conserved (.inl trivial)
    fun _ => .pure h.conserved h.closed)

end Sure

/-! ## The payload -/

lemma bufAppendMem_fits {b : Buf} {src : Src} {len : ℕ} (hfit : len ≤ sizeT (b.cap - b.last)) :
    bufAppendMem b src len = (do return some (← cpymem b src len)) := if_neg (by omega)

namespace Assembling
variable {κ : Prog.Contract Slot} {Q : Rc → Slot → Prop}

lemma room (h : Assembling s r b bs k) :
    sizeT (bufSize b) ≤ sizeT (r.p.payload.cap - r.p.payload.last) := by
  have hsize := h.holds.sizeT
  have hfits := h.holds.fits
  have hfree : (sizeT (r.p.payload.cap - r.p.payload.last) : ℤ) = adbMaxPacketSize := by
    rw [h.payload.cap, h.payload.last]
    exact sizeT_of_nat (by simp) (by decide)
  omega

/-- `xdbd_adb_parse_adb_payload`: what is behind the header becomes the payload. There is always
room for it. -/
theorem parsePayload (h : Assembling s r b bs k) (hs : κ.keep s) (hf : κ.fail)
    (hset : κ.assume (s.appending b) → Settled κ (s.appending b))
    (hcopy : ∀ payload t, payload.live = bs.drop k → Quiet ((s.appending b).withRequest
      (r.withPayload payload)) t → κ.assume t → κ.keep t)
    (hok : ∀ payload t, payload.live = bs.drop k → Quiet ((s.appending b).withRequest
      (r.withPayload payload)) t →
      κ.assume (t.withBuffer { b with pos := b.pos + r.p.header.dlen.toNat }) →
      κ.keep (t.withBuffer { b with pos := b.pos + r.p.header.dlen.toNat }) ∧
        Q .ok (t.withBuffer { b with pos := b.pos + r.p.header.dlen.toNat })) :
    Prog.Ensures Slot.exec κ Q adbParseAdbPayload s := by
  unfold adbParseAdbPayload bufAppendBuf
  refine getRequest_rule hs (.inl hf) fun r' _ hr' => ?_
  obtain rfl : r = r' := Data.request.inj (h.data.symm.trans hr')
  refine getBuffer_rule hs (.inl hf) fun _ =>
    deref_rule hs (.inr (by simp [h.buffer])) fun b' hb' => ?_
  obtain rfl : b = b' := Option.some.inj (h.buffer.symm.trans hb')
  rw [bind_assoc]
  refine note_rule _ hs fun hx => ?_
  rw [bufAppendMem_fits h.room, bind_assoc]
  refine (cpymem_spec (hset hx) h.payload.ok (Src.ofBuf b) _ (.inl hf)).andThen
    fun payload t ⟨ht, hpayload, hpok⟩ => ?_
  rw [ht]
  have hlive : payload.live = bs.drop k := by
    have hempty : r.p.payload.live = [] := h.payload.live
    have hcopied := Buf.live_append h.payload.ok b.appended
    rw [hempty, List.nil_append, h.holds.appended] at hcopied
    rw [hpayload, ← hcopied, ← h.holds.appended]
    rfl
  refine setRequest_rule _ (hset hx).holds (.inl hf) fun _ hy => ?_
  have hsettled : Settled κ ((s.appending b).withRequest (r.withPayload payload)) :=
    ⟨hy, fun u hu hau => hcopy payload u hlive hu hau⟩
  refine getRequest_rule hsettled.holds (.inl hf) fun r' _ hr' => ?_
  obtain rfl : r.withPayload payload = r' := Data.request.inj hr'
  refine (dumpAdbPacket_spec (p := (r.withPayload payload).p) hsettled hpok (.inl hf)).andThen
    fun _ z ⟨hz, hqz⟩ => ?_
  have hbz : z.conn.buffer = some b := by
    rw [hqz.conn]
    exact h.buffer
  refine getBuffer_rule hz.holds (.inl hf) fun _ =>
    deref_rule hz.holds (.inr (by simp [hbz])) fun b' hb' => ?_
  obtain rfl : b = b' := Option.some.inj (hbz.symm.trans hb')
  refine setBuffer_rule _ hz.holds (.inl hf) fun _ hx => ?_
  obtain ⟨hk, hq⟩ := hok payload z hlive hqz hx
  exact .pure hk hq

end Assembling

/-! ## One read event -/

lemma sends_calm (h : Sure s []) (hb : s.read.handler = some (.adb .adbBlockReading))
    (hdr : Header) : Sends conserving s hdr Calm := by
  refine ⟨fun u hu => ?_, fun u hw _ _ => ?_, fun u hw _ _ => ?_⟩
  · cases hu with
    | refused _ hw _ =>
      have hblock : u.read.handler = some (.adb .adbBlockReading) := by
        rw [hw.same]
        exact hb
      exact (h.working hw).calm (by rw [hblock]; decide) (by rw [hblock]; decide)
    | closed _ hw _ _ => exact (h.working hw).closed
  · have hu := h.working hw
    exact ⟨hu.conserved, hu.waiting⟩
  · have hu := h.working hw
    have hd : Divided (u.sentOut u.held) [] := hu.divided.grow rfl rfl rfl
    have hsent : Calm ((u.sentOut u.held).handledBy .adbWaitApacketHandler) :=
      ⟨hu.timeout, hu.cap, fun _ he => by simp [Slot.handledBy] at he, [], hd,
        fun _ => by simp [Slot.handledBy]⟩
    exact ⟨hd.conserved, fun _ => ⟨hd.conserved, hsent⟩⟩

structure Holding (s : Slot) (r : Request) (b : Buf) (bs : List UInt8) (k : ℕ) : Prop
    extends Assembling s r b bs k where
  sure : Sure s bs

lemma Holding.takePayload (h : Holding s r b bs headerSize) (hhdr : r.p.header = headerOf bs) :
    Prog.Ensures Slot.exec conserving (fun _ => Calm) takePayload s := by
  have hcap := h.sure.cap b h.buffer
  have happ := h.sure.appending b
  have hcopied : ∀ payload y, Quiet ((s.appending b).withRequest (r.withPayload payload)) y →
      Sure y bs := fun payload _ hq =>
    (happ.withData (.request (r.withPayload payload))).quiet hq
  refine .bind (h.parsePayload (κ := conserving) h.sure.conserved trivial
    (fun _ => happ.settled) (fun payload y _ hq _ => (hcopied payload y hq).conserved)
    fun payload y hlive hq _ => ?_)
  have hy := (hcopied payload y hq).withBuffer
    (b := { b with pos := b.pos + r.p.header.dlen.toNat }) hcap
  have hdata : y.conn.data = .request (r.withPayload payload) := by
    rw [hq.conn]
    rfl
  refine ⟨hy.conserved, dispatchPayload_spec (κ := conserving) (fun r' hr' => ?_) hy.conserved
    (fun _ => hy.conserved) (fun r' hr' _ => ?_) (.inl trivial)⟩
  · rw [← Data.request.inj (hdata.symm.trans hr')]
    exact h.out
  · obtain rfl := Data.request.inj (hdata.symm.trans hr')
    have hwhole : encode ((r.withPayload payload).p.header,
      (r.withPayload payload).p.payload.live) =
        bs := by
      show r.p.header.bytes ++ payload.live = bs
      rw [hhdr, headerOf_bytes h.holds.le, hlive, List.take_append_drop]
    have hd := hy.dispatching hwhole
    exact ⟨⟨hd.past, fun _ _ hw _ => (hd.working hw).conserved,
      fun _ hw _ => (hd.working hw).conserved⟩, sends_calm hd rfl _⟩

structure Collects (s : Slot) (r : Request) (b : Buf) (bs : List UInt8) (k : ℕ) : Prop
    extends Holding s r b bs k where
  active : s.read.active = true
  ready : s.read.ready = true

namespace Collects

lemma gathering (h : Collects s r b bs k) : Gathering s r b where
  active := h.active
  ready := h.ready
  data := h.data
  buffer := h.buffer
  cap := h.holds.ok.cap
  size := by
    have := h.holds.ok.bufSize_le
    have := h.holds.ok.cap
    omega

lemma advanced (h : Collects s r b bs k) (hin : s.Stores b)
    (hpos : 0 < (s.taken b).bytes.length) (hn : (s.taken b).n = (s.taken b).bytes.length)
    (hx : Unblocked (s.advanced b).wire.history) :
    Collects (s.advanced b) r (b.advance (s.taken b).bytes (s.taken b).n)
      (bs ++ (s.taken b).bytes) k := by
  have hread := Slot.advanced_read hpos
  have hfits := hin.fits hpos
  have hlast := h.holds.last
  have hcap := h.holds.cap
  refine ⟨⟨⟨h.data, h.out, h.payload, rfl, ?_⟩, h.sure.advanced h.buffer hx⟩, hread ▸ h.active,
    hread ▸ h.ready⟩
  rw [hn]
  apply h.holds.advance
  omega

lemma headed (h : Collects s r b bs 0) (hle : headerSize ≤ bs.length) :
    Collects ((s.headed r b).handledBy .adbProcessAdbPayload) (r.withHeader b.header)
      { b with pos := b.pos + headerSize } bs headerSize := by
  have hskip := h.holds.skip (k := headerSize) (by omega)
  rw [Nat.zero_add] at hskip
  refine ⟨⟨⟨rfl, h.out, h.payload, rfl, hskip⟩, ?_⟩, h.active, h.ready⟩
  exact ((h.sure.withData (.request (r.withHeader b.header))).withBuffer
    (b := { b with pos := b.pos + headerSize }) (h.sure.cap b h.buffer)).handledBy _

theorem processPayload (h : Collects s r b bs headerSize) (hhdr : r.p.header = headerOf bs)
    (hhd : s.read.handler = some (.adb .adbProcessAdbPayload)) :
    Prog.Ensures Slot.exec conserving (fun _ => Calm) adbProcessAdbPayload s := by
  refine processPayload_rule (κ := conserving) h.gathering h.sure.conserved
    (.inl trivial) (fun ht => absurd (h.sure.timeout.symm.trans ht) (by simp))
    (fun _ => h.takePayload hhdr) (fun _ hx => (h.sure.fetched h.buffer hx).conserved)
    (fun _ _ hx => ?_) (fun _ hn hx => ?_) fun _ hin hpos hn hx => ?_
  · have hf := h.sure.fetched h.buffer hx
    exact ⟨hf.conserved, hf.closed⟩
  · -- this call is one that would block
    exact absurd hn (hx _ (List.mem_append_right _ (List.mem_singleton_self _)) hhd)
  · have ha := h.advanced hin hpos hn hx
    exact ⟨ha.sure.conserved, ha.takePayload (by rw [headerOf_append h.holds.le, hhdr])⟩

lemma takeHeader (h : Collects s r b bs 0)
    (hhd : s.read.handler = some (.adb .adbProcessAdbHeader)) :
    Prog.Ensures Slot.exec conserving (fun _ => Calm) takeHeader s := by
  have hsize := h.holds.sizeT
  refine takeHeader_rule (κ := conserving) h.data h.buffer h.sure.conserved (.inl trivial)
    (fun hlt => ?_) (fun _ _ => h.sure.conserved) fun hle _ => ⟨h.sure.conserved, fun _ => ?_⟩
  · refine ⟨h.sure.timeout, h.sure.cap, fun _ => ?_, bs, h.sure.divided, fun _ => ?_⟩
    · rw [hhd]
      decide
    · rw [if_pos hhd]
      exact ⟨by omega, r, b, h.toAssembling⟩
  · have hbs : headerSize ≤ bs.length := by omega
    exact (h.headed hbs).processPayload (h.holds.header hbs) rfl

theorem processHeader (h : Collects s r b bs 0)
    (hhd : s.read.handler = some (.adb .adbProcessAdbHeader)) :
    Prog.Ensures Slot.exec conserving (fun _ => Calm) adbProcessAdbHeader s := by
  have hsize := h.holds.sizeT
  refine processHeader_rule (κ := conserving) h.gathering h.holds.ok.bufSize_nonneg
    h.sure.conserved (.inl trivial)
    (fun ht => absurd (h.sure.timeout.symm.trans ht) (by simp)) (fun _ => h.takeHeader hhd)
    (fun _ hx => (h.sure.fetched h.buffer hx).conserved) (fun hlt hn hx => ?_)
    (fun _ _ hx => ?_) fun _ hin hlen hn hx => ?_
  · have hnone := Slot.taken_again hn
    have hf := h.sure.fetched h.buffer hx
    rw [hnone, List.append_nil] at hf
    have hhd' : (s.fetched b).read.handler = some (.adb .adbProcessAdbHeader) :=
      (s.fetched_handler b).trans hhd
    have hbuf : (s.fetched b).conn.buffer = some b := by
      show some { b with mem := Block.write b.mem b.last.toNat (s.taken b).bytes } = some b
      rw [hnone, Block.write_nil]
    refine ⟨hf.timeout, hf.cap, fun _ => ?_, bs, hf.divided, fun _ => ?_⟩
    · rw [hhd']
      decide
    · rw [if_pos hhd']
      exact ⟨by omega, r, b, h.data, h.out, h.payload, hbuf, h.holds⟩
  · have hf := h.sure.fetched h.buffer hx
    exact ⟨hf.conserved, hf.closed⟩
  · have ha := h.advanced hin hlen hn hx
    exact ⟨ha.sure.conserved,
      ha.takeHeader ((congrArg Event.handler (Slot.advanced_read hlen)).trans hhd)⟩

end Collects

lemma receiveApacket_calm (h : Sure s []) (hb : s.conn.buffer = some b) (hh : b.Holds [] 0)
    (hactive : s.read.active = true) (hready : s.read.ready = true)
    (hhd : s.read.handler = some (.adb .adbWaitApacketHandler)) :
    Prog.Ensures Slot.exec conserving (fun _ => Calm) (receiveApacket b) s := by
  have hadv : ∀ {t ok}, Allocated conserving 4 (s.advanced b) t ok →
      Sure t (s.taken b).bytes := fun ht => by
    obtain ⟨new, hnew, -⟩ := ht.quiet.history
    have hpast : Unblocked _ := ht.settled.assume
    rw [hnew] at hpast
    exact (h.advanced hb hpast.of_append).quiet ht.quiet
  refine receiveApacket_rule (κ := conserving) h.conserved hb hh.last hh.ok.cap hactive
    (.inl trivial) (fun hx => (h.fetched hb hx).conserved) (fun hx hn => ?_) (fun _ hx => ?_)
    (fun _ _ hx => (h.advanced hb hx).settled)
    (fun t ht => ?_) fun t m ht hlen hn _ => ?_
  · have hhd' : (s.fetched b).read.handler = some (.adb .adbWaitApacketHandler) :=
      (s.fetched_handler b).trans hhd
    have hf := h.fetched hb hx
    rw [Slot.taken_again hn] at hf
    exact hf.calm (by rw [hhd']; decide) (by rw [hhd']; decide)
  · have hf := h.fetched hb hx
    exact ⟨hf.conserved, hf.closed⟩
  · -- without memory for the request
    have ht' := hadv ht
    exact setData_rule (κ := conserving) none ht'.conserved (.inl trivial)
      fun _ _ => (ht'.withData .null).close
  · have ht' := hadv ht
    have hread : t.read = s.read := ht.quiet.read.trans (Slot.advanced_read hlen)
    have hbuf : t.conn.buffer = some (b.advance (s.taken b).bytes (s.taken b).n) := by
      rw [ht.quiet.conn]
      rfl
    have hfit : (s.taken b).bytes.length ≤ b.window := unixRecv_length _ _ _
    have hwindow := hh.window
    have hholds := hh.advance (c := (s.taken b).bytes) (by rw [List.length_nil] at *; omega)
    have hsure := (ht'.withData (.request (.fresh m))).handledBy .adbProcessAdbHeader
    refine ⟨ht'.conserved, fun _ => Collects.processHeader
      (s := (t.withRequest (.fresh m)).handledBy .adbProcessAdbHeader) (r := .fresh m)
      ⟨⟨⟨rfl, rfl, Buf.holds_new _, hbuf, ?_⟩, hsure⟩, ?_, ?_⟩ rfl⟩
    · rw [hn]
      exact hholds
    · show t.read.active = true
      rw [hread]
      exact hactive
    · show t.read.ready = true
      rw [hread]
      exact hready

theorem waitApacketHandler_calm (h : Sure s []) (hactive : s.read.active = true)
    (hready : s.read.ready = true)
    (hhd : s.read.handler = some (.adb .adbWaitApacketHandler)) :
    Prog.Ensures Slot.exec conserving (fun _ => Calm) adbWaitApacketHandler s := by
  refine waitApacketHandler_rule h.settled (.inl trivial) (fun b hb _ => ?_)
    (fun t _ ht => (h.quiet ht.quiet).close) fun t m _ ht _ => ?_
  · exact receiveApacket_calm (h.withBuffer (b := resetBuf b) (h.cap b hb)) rfl
      (Buf.holds_nil (h.cap b hb)) hactive hready hhd
  · have hread : t.read = s.read := ht.quiet.read
    have ht' := (h.quiet ht.quiet).withBuffer (b := ⟨m, adbMaxPacketSize, 0, 0⟩) rfl
    exact ⟨ht'.conserved, receiveApacket_calm ht' rfl (Buf.holds_new m) (hread ▸ hactive)
      (hread ▸ hready) (hread ▸ hhd)⟩

lemma Calm.congr (h : Calm s) (hc : t.conn = s.conn) (hh : t.read.handler = s.read.handler)
    (ht : t.read.timeout = s.read.timeout) (hw : t.wire.history = s.wire.history) : Calm t where
  timeout := ht.trans h.timeout
  cap b hb := h.cap b (hc ▸ hb)
  payload := by
    rw [hc, hh]
    exact h.payload
  rest := by
    obtain ⟨bs, hd, hrest⟩ := h.rest
    refine ⟨bs, ?_, ?_⟩
    · rw [Divided, hw]
      exact hd
    · rw [hc, hh]
      intro halive
      have hs := hrest halive
      split_ifs at hs ⊢
      · obtain ⟨hlt, r, b, ha⟩ := hs
        exact ⟨hlt, r, b, hc ▸ ha.data, ha.out, ha.payload, hc ▸ ha.buffer, ha.holds⟩
      · exact hs

lemma Calm.conserved (h : Calm s) : Conserved s := by
  obtain ⟨bs, hd, -⟩ := h.rest
  exact hd.conserved

lemma blockReading_calm (h : Calm s) :
    Prog.Ensures Slot.exec conserving (fun _ => Calm) adbBlockReading s := by
  unfold adbBlockReading
  refine readEvent_rule (κ := conserving) h.conserved ?_
  split_ifs
  · have hdel : Calm s.delRead.2 := by
      unfold Slot.delRead
      split_ifs
      · exact h
      · exact h.congr rfl rfl rfl rfl
    exact delReadEvent_rule (κ := conserving) h.conserved fun _ => .pure hdel.conserved hdel
  · exact .pure h.conserved h

theorem Calm.handled (h : Calm s) (hs : s.Open) (hu : Unblocked s.wire.history)
    {hd : AdbHandler} (hhd : s.read.handler = some (.adb hd))
    (hready : s.read.ready = true) :
    Prog.Ensures Slot.exec conserving (fun _ => Calm) (code hd) s := by
  obtain ⟨bs, hdiv, hrest⟩ := h.rest
  have hcase := hrest hs.alive
  have hsure : Sure s bs := ⟨h.timeout, h.cap, hu, hdiv⟩
  rw [hhd] at hcase
  cases hd with
  | adbWaitApacketHandler =>
    rw [if_neg (by decide)] at hcase
    exact waitApacketHandler_calm (hcase ▸ hsure) hs.active hready hhd
  | adbProcessAdbHeader =>
    rw [if_pos rfl] at hcase
    obtain ⟨-, r, b, ha⟩ := hcase
    exact Collects.processHeader ⟨⟨ha, hsure⟩, hs.active, hready⟩ hhd
  | adbProcessAdbPayload => exact absurd hhd (h.payload hs.alive)
  | adbBlockReading => exact blockReading_calm h
  | adbEmptyHandler => exact .pure h.conserved h

theorem calm_invariant : PeerInvariant Unblocked Calm Conserved where
  closed := by
    rintro h h' ⟨new, rfl⟩ hu
    exact hu.of_append
  accepted s ls p q k :=
    ⟨rfl, fun _ hb => (nomatch hb), fun _ he => (nomatch he), [], rfl, fun _ => rfl⟩
  feed _ hs := hs.congr rfl rfl rfl rfl
  flags _ _ hs := hs.congr rfl rfl rfl rfl
  keep hs := hs.conserved
  run hu hs ho hhd hr := hs.handled ho hu hhd hr

/-! ## Runs -/

section
open World Dialogue
variable {boot : Boot} {v w : World} {i : ℕ}

/-- In every state of a run, also inside the handlers: nothing that has arrived on a connection is
lost, repeated or moved before it is dispatched, unless a read of a payload would block. -/
theorem Moment.stream_conserved (h : Moment boot v) (hp : v.Peer i)
    (hu : Unblocked (v.slots i).wire.history) : Conserved (v.slots i) :=
  calm_invariant.moment h i hp hu

def Obs.stalls : Obs → Bool
  | .recv c => c.handler = some (.adb .adbProcessAdbPayload) ∧ c.result = xdbdAgain
  | _ => false

lemma unblocked_iff {h : List Obs} : Unblocked h ↔ ∀ o ∈ h, o.stalls = false := by
  refine ⟨fun hu o ho => ?_, fun ha c hc hh hr => ?_⟩
  · cases o with
    | recv c => exact decide_eq_false fun hc => hu c ho hc.1 hc.2
    | _ => rfl
  · exact absurd (ha _ hc) (by simp [Obs.stalls, hh, hr])

lemma unblocked_okeyed : Unblocked (okeyed.slots 1).wire.history := unblocked_iff.mpr (by decide)

theorem Moment.stream_conserved_okeyed : Conserved (okeyed.slots 1) :=
  @Moment.stream_conserved (.single 2 3) okeyed 1 (.top run_okeyed)
    ⟨by decide, by decide, by decide⟩
    unblocked_okeyed

/-- The packets dispatched on an open connection are those that the adb format finds in what has
arrived, exactly if each of them has the payload that its header announces. -/
theorem Run.framed_iff (h : Run boot w) (hp : w.Peer i) (hopen : (w.slots i).conn.destroyed = false)
    (hu : Unblocked (w.slots i).wire.history) :
    (Framing.split adbFormat (arrived (w.slots i).wire.history)).1 =
        dispatches (w.slots i).wire.history ↔
      ∀ q ∈ dispatches (w.slots i).wire.history, q.2.length = q.1.dlen.toNat := by
  obtain ⟨bs, hd, hrest⟩ := (calm_invariant.rest h i hp hu).rest
  have hshort : bs.length < headerSize := by
    have hcase := hrest hopen
    split_ifs at hcase
    · exact hcase.1
    · rw [hcase]
      decide
  have ha : arrived (w.slots i).wire.history =
      (dispatches (w.slots i).wire.history).flatMap adbFormat.encode ++ bs := hd
  rw [ha]
  exact Framing.split_eq_iff adbFormat (adbFormat_short hshort)

theorem Run.framed_iff_okeyed :
    (Framing.split adbFormat (arrived (okeyed.slots 1).wire.history)).1 =
        dispatches (okeyed.slots 1).wire.history ↔
      ∀ q ∈ dispatches (okeyed.slots 1).wire.history, q.2.length = q.1.dlen.toNat :=
  @Run.framed_iff (.single 2 3) okeyed 1 run_okeyed ⟨by decide, by decide, by decide⟩ (by decide)
    unblocked_okeyed

/-! ## What the client reads -/

lemma accepted_whole {h : List Obs} (hw : WholeSends h) :
    accepted h = (replies (conversation h)).flatten := by
  induction h with
  | nil => rfl
  | cons o h ih =>
    have hi := ih fun o' ho => hw o' (List.mem_cons_of_mem o ho)
    have ho := hw o List.mem_cons_self
    cases o with
    | send bs n =>
      have hn : n = bs.length := ho
      show bs.take n.toNat ++ accepted h = bs ++ (replies (conversation h)).flatten
      rw [hi, hn, Int.toNat_natCast, List.take_length]
    | _ => exact hi

/-- The reply to a packet with the header `h`, as a packet. -/
def Header.replyPacket (h : Header) : Header × List UInt8 :=
  (.filled h.replyCommand h.replyPayload.length, h.replyPayload)

lemma Header.replyPacket_valid (h : Header) : adbFormat.Valid h.replyPacket := by
  have hlen := h.replyPayload_length
  show h.replyPayload.length = (UInt32.ofNat h.replyPayload.length).toNat
  rw [UInt32.toNat_ofNat']
  omega

/-- In every state of a run: a client that reads what the kernel has accepted from the daemon finds
packets of the adb format and nothing else, the replies to its packets in their order. -/
theorem Moment.replies_framed (h : Moment boot v) (hp : v.Peer i)
    (hw : WholeSends (v.slots i).wire.history) : ∃ answered,
      Framing.split adbFormat (accepted (v.slots i).wire.history) =
          (answered.map fun q => q.1.replyPacket, []) ∧
        (dispatches (v.slots i).wire.history = answered ∨
          ∃ q, dispatches (v.slots i).wire.history = answered ++ [q]) := by
  obtain ⟨answered, hreplies, hlast⟩ := h.replies_in_order hp
  rw [questions_conversation] at hlast
  refine ⟨answered, ?_, hlast⟩
  have hvalid : ∀ q ∈ answered.map fun q : Header × List UInt8 => q.1.replyPacket,
      adbFormat.Valid q := by
    intro q hq
    obtain ⟨p, -, rfl⟩ := List.mem_map.mp hq
    exact p.1.replyPacket_valid
  have hsplit := Framing.split_flatMap adbFormat hvalid (@adbFormat_short [] (by decide))
  rw [List.append_nil, List.flatMap_map] at hsplit
  rw [accepted_whole hw, hreplies, ← List.flatMap_def]
  exact hsplit

theorem Moment.replies_framed_okeyed : ∃ answered,
    Framing.split adbFormat (accepted (okeyed.slots 1).wire.history) =
        (answered.map fun q => q.1.replyPacket, []) ∧
      (dispatches (okeyed.slots 1).wire.history = answered ∨
        ∃ q, dispatches (okeyed.slots 1).wire.history = answered ++ [q]) :=
  @Moment.replies_framed (.single 2 3) okeyed 1 (.top run_okeyed)
    ⟨by decide, by decide, by decide⟩ (by unfold WholeSends; decide)

end

end Xdbd
