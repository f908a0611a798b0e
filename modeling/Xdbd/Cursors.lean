import Xdbd.Phases
import Xdbd.Progress

/-!
# The cursors of the buffers

The receive buffer and the buffers of the current request keep their cursors in order as long
as every read of the payload handler completes the payload, and a would-block result there finds
two bytes to take back. Each window given to `recv` is then the free part of the buffer, and each
append copies what is between the cursors.
-/
namespace Xdbd
open Interaction Code World

variable {boot : Boot} {s t u : Slot} {b : Buf}

/-- A window that is the free part of a buffer, and an append of what is between the cursors. -/
def Obs.Sound : Obs → Prop
  | .recv c => 0 ≤ c.pos ∧ c.pos ≤ c.last ∧ c.last ≤ c.cap ∧ c.off = c.last ∧
      (c.size : ℤ) = c.cap - c.last
  | .append pos last len => pos ≤ last ∧ (len : ℤ) = last - pos
  | _ => True

/-- A read of the payload handler completes the payload, and a would-block result finds two bytes
behind `pos`. -/
def Obs.Fits : Obs → Prop
  | .recv c => c.handler = some (.adb .adbProcessAdbPayload) →
      (c.result = xdbdAgain → c.pos + 2 ≤ c.last) ∧
        (0 < c.result → (c.dlen : ℤ) ≤ c.last - c.pos + c.result)
  | _ => True

def FittingReads (h : List Obs) : Prop := ∀ o ∈ h, o.Fits

/-- The buffers of an open connection have their cursors in order, and so had all reads and
appends. -/
structure Cursors (s : Slot) : Prop where
  buffer : s.conn.destroyed = false → ∀ b, s.conn.buffer = some b → b.Ok
  request : s.conn.destroyed = false → ∀ r, s.conn.data = .request r →
    r.p.payload.Ok ∧ ∀ o, r.out = some o → o.Ok
  sound : ∀ o ∈ s.wire.history, o.Sound

lemma Obs.Quiet.sound {o : Obs} (h : o.Quiet) : o.Sound := by
  cases o with
  | alloc _ _ => trivial
  | append pos last len => exact ⟨h.2.1, h.2.2⟩
  | _ => exact h.elim

lemma sound_append {h new : List Obs} (hh : ∀ o ∈ h, o.Sound) (hn : ∀ o ∈ new, o.Sound) :
    ∀ o ∈ h ++ new, o.Sound := fun o ho => (List.mem_append.mp ho).elim (hh o) (hn o)

namespace Cursors

lemma quiet (h : Cursors s) (hq : Quiet s t) : Cursors t where
  buffer := by
    rw [hq.conn]
    exact h.buffer
  request := by
    rw [hq.conn]
    exact h.request
  sound := by
    obtain ⟨new, hnew, hqn⟩ := hq.history
    rw [hnew]
    exact sound_append h.sound fun o ho => (hqn o ho).sound

lemma fetched (h : Cursors s) (hb : b.Ok) : Cursors (s.fetched b) where
  buffer _ b' hb' := by
    obtain rfl := Option.some.inj hb'
    exact ⟨hb.pos, hb.size, hb.last, hb.cap⟩
  request := h.request
  sound := by
    refine sound_append h.sound fun o ho => ?_
    rw [List.mem_singleton.mp ho]
    exact ⟨hb.pos, hb.size, hb.last, rfl, hb.window⟩

lemma withBuffer (h : Cursors s) (hb : b.Ok) : Cursors (s.withBuffer b) where
  buffer _ _ hb' := Option.some.inj hb' ▸ hb
  request := h.request
  sound := h.sound

lemma withRequest (h : Cursors s) {r : Request} (hp : r.p.payload.Ok)
    (ho : ∀ o, r.out = some o → o.Ok) : Cursors (s.withRequest r) where
  buffer := h.buffer
  request _ _ hr' := Data.request.inj hr' ▸ ⟨hp, ho⟩
  sound := h.sound

lemma closed (h : Cursors s) : Cursors s.closed where
  buffer hc := absurd hc (by simp [Slot.closed])
  request hc := absurd hc (by simp [Slot.closed])
  sound := h.sound

lemma log (h : Cursors s) {o : Obs} (ho : o.Sound) : Cursors (s.log o) where
  buffer := h.buffer
  request := h.request
  sound := sound_append h.sound fun o' ho' => by rw [List.mem_singleton.mp ho']; exact ho

lemma handledBy (h : Cursors s) (hd : AdbHandler) : Cursors (s.handledBy hd) :=
  ⟨h.buffer, h.request, h.sound⟩

lemma sentOut (h : Cursors s) (bs : List UInt8) : Cursors (s.sentOut bs) where
  buffer := h.buffer
  request := h.request
  sound := sound_append h.sound fun o ho => by rw [List.mem_singleton.mp ho]; trivial

lemma working {e : List UInt8} (h : Cursors s) (hw : Working s e t) : Cursors t := by
  have hdead : t.conn.destroyed = s.conn.destroyed := by rw [hw.same]
  have hbuf : t.conn.buffer = s.conn.buffer := by rw [hw.same]
  obtain ⟨r, out, new, hr, ht, hnew, hin, hok, -⟩ := hw.request
  refine ⟨?_, fun hd r' hr' => ?_, ?_⟩
  · rw [hdead, hbuf]
    exact h.buffer
  · obtain rfl := Data.request.inj (ht.symm.trans hr')
    exact ⟨(h.request (hdead ▸ hd) r hr).1, hok⟩
  · rw [hnew]
    refine sound_append h.sound fun o ho => ?_
    rcases hin o ho with hq | ⟨bs, rfl⟩
    · exact hq.sound
    · trivial

end Cursors

/-- Between the calls of the handlers: the cursors are in order, and a packet that is being
collected has a request and a buffer. -/
structure Collected (s : Slot) : Prop where
  cursors : Cursors s
  stage : s.conn.destroyed = false →
    s.read.handler = some (.adb .adbProcessAdbHeader) ∨
      s.read.handler = some (.adb .adbProcessAdbPayload) →
    ∃ r b, s.conn.data = .request r ∧ r.out = none ∧ s.conn.buffer = some b ∧
      (s.read.handler = some (.adb .adbProcessAdbPayload) → r.p.header = r.h)

lemma Collected.closed (h : Cursors s) : Collected s.closed :=
  ⟨h.closed, fun hc => absurd hc (by simp [Slot.closed])⟩

lemma Collected.waiting (h : Cursors s) : Collected (s.handledBy .adbWaitApacketHandler) :=
  ⟨h.handledBy _, fun _ hh => by rcases hh with hh | hh <;> cases hh⟩

def cursorContract : Prog.Contract Slot := ⟨fun s => FittingReads s.wire.history, Cursors, True⟩

/-! ## The payload handler -/

lemma sends_collected (hs : Cursors s) (hb : s.read.handler = some (.adb .adbBlockReading))
    (h : Header) : Sends cursorContract s h Collected := by
  refine ⟨fun u hu => ?_, fun u hw _ _ => ?_, fun u hw _ _ => ?_⟩
  · cases hu with
    | refused _ hw _ =>
      have hblock : u.read.handler = some (.adb .adbBlockReading) := by
        rw [hw.same]
        exact hb
      exact ⟨hs.working hw, fun _ hh => by rw [hblock] at hh; rcases hh with hh | hh <;> cases hh⟩
    | closed _ hw _ _ => exact .closed (hs.working hw)
  · exact ⟨(hs.working hw).handledBy _, .waiting (hs.working hw)⟩
  · have hsent := (hs.working hw).sentOut u.held
    exact ⟨hsent, fun _ => ⟨hsent.handledBy _, .waiting hsent⟩⟩

lemma parsePayload_collected (hc : Cursors t) (halive : t.conn.destroyed = false) {r : Request}
    (hr : t.conn.data = .request r) (hout : r.out = none) (hb : t.conn.buffer = some b)
    (hdlen : (r.p.header.dlen.toNat : ℤ) ≤ bufSize b) :
    Prog.Ensures Slot.exec cursorContract (fun _ => Collected) takePayload t := by
  have hok := hc.buffer halive b hb
  obtain ⟨hp, -⟩ := hc.request halive r hr
  have happ : Cursors (t.appending b) := hc.log ⟨hok.size, hok.sizeT⟩
  have hcopied : ∀ payload y, Copied t r b payload →
      Quiet ((t.appending b).withRequest (r.withPayload payload)) y → Cursors y :=
    fun payload y hcp hq => (@Cursors.withRequest _ happ (r.withPayload payload) hcp.ok fun o ho =>
      absurd (hout.symm.trans ho) nofun).quiet hq
  refine .bind (adbParseAdbPayload_rule hc hr hb hp (.inl trivial)
    (fun hx => ⟨hx, fun y hq _ => happ.quiet hq⟩)
      (fun payload y hcp hq _ => hcopied payload y hcp hq)
    fun payload y hcp hq _ => ?_)
  have hpos : Buf.Ok { b with pos := b.pos + r.p.header.dlen.toNat } := by
    have := hok.pos
    have hsize : bufSize b = b.last - b.pos := rfl
    refine ⟨?_, ?_, hok.last, hok.cap⟩
    · show 0 ≤ b.pos + _
      omega
    · show b.pos + _ ≤ b.last
      omega
  have hcy := (hcopied payload y hcp hq).withBuffer hpos
  refine ⟨hcy, ?_⟩
  refine dispatchPayload_spec (fun r' hr' => ?_) hcy (fun _ => hcy.handledBy _)
    (fun r' hr' hd => ?_) (.inl trivial)
  · have hdata : y.conn.data = .request (r.withPayload payload) := by
      rw [hq.conn]
      rfl
    obtain rfl := Data.request.inj (hdata.symm.trans hr')
    exact hout
  · have hcd : Cursors (Slot.dispatching _ r') := (hcy.handledBy .adbBlockReading).log trivial
    exact ⟨⟨hd, fun e x hw _ => hcd.working hw, fun x hw _ => (hcd.working hw).closed⟩,
      sends_collected hcd rfl r'.p.header⟩

lemma finish_collected {c : Code Unit} (hc : c = (do setTimeout; adbCloseRequest) ∨
    c = Code.closeConnection) (h : Cursors t) :
    Prog.Ensures Slot.exec cursorContract (fun _ => Collected) c t := by
  have hclose : ∀ x, Cursors x →
      Prog.Ensures Slot.exec cursorContract (fun _ => Collected) Code.closeConnection x :=
        fun x hx =>
    .of_bind_pure (closeConnection_rule hx (.inl trivial) fun _ => .pure hx.closed (.closed hx))
  rcases hc with rfl | rfl
  · exact setTimeout_rule h fun _ => hclose _ ⟨h.buffer, h.request, h.sound⟩
  · exact hclose t h

/-- A packet is being collected: its request has no reply buffer. -/
structure Stage (s : Slot) (r : Request) (b : Buf) : Prop where
  cursors : Cursors s
  alive : s.conn.destroyed = false
  active : s.read.active = true
  ready : s.read.ready = true
  data : s.conn.data = .request r
  out : r.out = none
  buffer : s.conn.buffer = some b

lemma Stage.ok {r : Request} (h : Stage s r b) : b.Ok := h.cursors.buffer h.alive b h.buffer

lemma Stage.dlen {r : Request} (h : Stage s r b) : s.dlen = r.h.dlen.toNat := by
  unfold Slot.dlen
  rw [h.data]

lemma FittingReads.fetched (h : FittingReads (s.fetched b).wire.history)
    (hh : s.read.handler = some (.adb .adbProcessAdbPayload)) :
    ((s.taken b).n = xdbdAgain → b.pos + 2 ≤ b.last) ∧
      (0 < (s.taken b).n → (s.dlen : ℤ) ≤ b.last - b.pos + (s.taken b).n) := by
  have := h (.recv ⟨s.read.handler, s.dlen, b.pos, b.last, b.cap, b.last, b.window, (s.taken b).n,
    (s.taken b).bytes⟩) (List.mem_append_right _ (List.mem_singleton_self _))
  exact this hh

lemma Buf.Ok.advance (hb : b.Ok) {bs : List UInt8} {n : ℤ} (hlow : b.pos ≤ b.last + n)
    (hhigh : b.last + n ≤ b.cap) : (b.advance bs n).Ok := ⟨hb.pos, hlow, hhigh, hb.cap⟩

lemma Slot.taken_fits (hb : b.Ok) : b.last + (s.taken b).bytes.length ≤ b.cap := by
  have hw := hb.window
  have hl := hb.last
  have hlen : (s.taken b).bytes.length ≤ b.window := unixRecv_length _ _ _
  omega

lemma Stage.gathering {r : Request} (h : Stage s r b) : Gathering s r b where
  active := h.active
  ready := h.ready
  data := h.data
  buffer := h.buffer
  cap := h.ok.cap
  size := by
    have := h.ok.bufSize_le
    have := h.ok.cap
    omega

lemma Stage.advanced {r : Request} (h : Stage s r b) (hpos : 0 < (s.taken b).bytes.length)
    (hn : (s.taken b).n = (s.taken b).bytes.length) :
    Stage (s.advanced b) r (b.advance (s.taken b).bytes (s.taken b).n) := by
  have hok := h.ok
  have hroom := s.taken_fits hok
  have hsize := hok.size
  have hread := Slot.advanced_read hpos
  exact ⟨(h.cursors.fetched hok).withBuffer (hok.advance (by omega) (by omega)), h.alive,
    hread ▸ h.active, hread ▸ h.ready, h.data, h.out, rfl⟩

theorem processPayload_collected {r : Request} (h : Stage s r b) (hh : r.p.header = r.h)
    (hhd : s.read.handler = some (.adb .adbProcessAdbPayload)) :
    Prog.Ensures Slot.exec cursorContract (fun _ => Collected) adbProcessAdbPayload s := by
  have hok := h.ok
  have hcf := h.cursors.fetched hok
  refine processPayload_rule h.gathering h.cursors (.inl trivial)
    (fun _ => finish_collected (.inl rfl) h.cursors)
    (fun henough => parsePayload_collected h.cursors h.alive h.data h.out h.buffer (hh ▸ henough))
    (fun _ _ => hcf) (fun _ _ _ => ⟨hcf.closed, .closed hcf⟩) (fun _ hn hx => ?_)
    fun _ _ hpos hn hx => ?_
  · have hback := (FittingReads.fetched (show FittingReads (s.fetched b).wire.history from hx)
      hhd).1 hn
    have hlast := hok.last
    have hca : Cursors (s.advanced b) := hcf.withBuffer (hok.advance (by
      rw [hn, xdbdAgain]
      omega) (by
      rw [hn, xdbdAgain]
      omega))
    exact ⟨hca, hca, fun _ _ => ⟨r, _, h.data, h.out, rfl, fun _ => hh⟩⟩
  · have hst := h.advanced hpos hn
    refine ⟨hst.cursors, parsePayload_collected hst.cursors h.alive h.data h.out rfl ?_⟩
    have hfull :=
      (FittingReads.fetched (show FittingReads (s.fetched b).wire.history from hx) hhd).2 (by omega)
    rw [hh, ← h.dlen]
    show _ ≤ b.last + (s.taken b).n - b.pos
    omega

/-! ## The header handler and the waiting handler -/

lemma parseHeader_collected {r : Request} (h : Stage s r b)
    (hhd : s.read.handler = some (.adb .adbProcessAdbHeader)) :
    Prog.Ensures Slot.exec cursorContract (fun _ => Collected) takeHeader s := by
  have hok := h.ok
  obtain ⟨hp, -⟩ := h.cursors.request h.alive r h.data
  have hno : ∀ o, r.out = some o → o.Ok := fun o ho => absurd (h.out.symm.trans ho) nofun
  have hreq := @Cursors.withRequest _ h.cursors (r.withHeader b.header) hp hno
  refine takeHeader_rule h.data h.buffer h.cursors (.inl trivial) (fun _ => ?_) (fun _ _ => hreq)
    fun hle _ => ?_
  · refine ⟨h.cursors, fun _ _ => ⟨r, b, h.data, h.out, h.buffer, fun hc => ?_⟩⟩
    rw [hhd] at hc
    cases hc
  · have hlen := hok.sizeT
    have hsize : bufSize b = b.last - b.pos := rfl
    have hpos := hok.pos
    have hbuf : Buf.Ok { b with pos := b.pos + headerSize } := by
      refine ⟨?_, ?_, hok.last, hok.cap⟩
      · show 0 ≤ b.pos + _
        omega
      · show b.pos + (headerSize : ℤ) ≤ b.last
        omega
    have hcy := hreq.withBuffer hbuf
    exact ⟨hcy, fun _ => processPayload_collected
      ⟨hcy.handledBy _, h.alive, h.active, h.ready, rfl, h.out, rfl⟩ rfl rfl⟩

theorem processHeader_collected {r : Request} (h : Stage s r b)
    (hhd : s.read.handler = some (.adb .adbProcessAdbHeader)) :
    Prog.Ensures Slot.exec cursorContract (fun _ => Collected) adbProcessAdbHeader s := by
  have hok := h.ok
  have hcf := h.cursors.fetched hok
  refine processHeader_rule h.gathering hok.bufSize_nonneg h.cursors (.inl trivial)
    (fun _ => finish_collected (.inl rfl) h.cursors) (fun _ => parseHeader_collected h hhd)
    (fun _ _ => hcf) (fun _ _ _ => ⟨hcf, fun _ _ => ⟨r, _, h.data, h.out, rfl, fun hc => ?_⟩⟩)
    (fun _ _ _ => ⟨hcf.closed, .closed hcf⟩) fun _ _ hpos hn _ => ?_
  · rw [s.fetched_handler, hhd] at hc
    cases hc
  · have hst := h.advanced hpos hn
    exact ⟨hst.cursors, parseHeader_collected hst
      ((congrArg Event.handler (Slot.advanced_read hpos)).trans hhd)⟩

lemma receiveApacket_collected (h : Cursors s) (halive : s.conn.destroyed = false)
    (hactive : s.read.active = true) (hready : s.read.ready = true)
    (hhd : s.read.handler = some (.adb .adbWaitApacketHandler)) (hb : s.conn.buffer = some b)
    (hlast : b.last = 0) :
    Prog.Ensures Slot.exec cursorContract (fun _ => Collected) (receiveApacket b) s := by
  have hok := h.buffer halive b hb
  have hcf := h.fetched hok
  have hpos' := hok.pos
  have hsize := hok.size
  have hroom := s.taken_fits hok
  have hadv : (s.taken b).n = (s.taken b).bytes.length → Cursors (s.advanced b) := fun hn =>
    hcf.withBuffer (hok.advance (by omega) (by omega))
  refine receiveApacket_rule h hb hlast hok.cap hactive (.inl trivial) (fun _ => hcf)
    (fun _ _ => ⟨hcf, fun _ hh => ?_⟩) (fun _ _ => ⟨hcf.closed, .closed hcf⟩)
    (fun _ hn ha => ⟨ha, fun t hq _ => (hadv hn).quiet hq⟩) (fun t ht => ?_)
    fun t m ht hpos hn ha => ?_
  · rw [s.fetched_handler, hhd] at hh
    rcases hh with hh | hh <;> cases hh
  · have hct := ht.settled.holds
    refine setData_rule _ hct (.inl trivial) fun _ _ => finish_collected (.inr rfl) ?_
    exact ⟨hct.buffer, fun _ r hr => (nomatch hr), hct.sound⟩
  · have hct : Cursors t := ht.settled.holds
    have hreq : Cursors (t.withRequest (.fresh m)) :=
      hct.withRequest (Buf.ok_of_new (by norm_num [adbMaxPacketSize])) fun o ho => (nomatch ho)
    have hread : t.read = s.read := ht.quiet.read.trans (Slot.advanced_read hpos)
    refine ⟨hreq, fun _ => ?_⟩
    have hconn := ht.quiet.conn
    refine @processHeader_collected _ (b.advance (s.taken b).bytes (s.taken b).n) (.fresh m)
      ⟨hreq.handledBy _, ?_, ?_, ?_, rfl, rfl, ?_⟩ rfl
    · show t.conn.destroyed = false
      rw [hconn]
      exact halive
    · show t.read.active = true
      rw [hread]
      exact hactive
    · show t.read.ready = true
      rw [hread]
      exact hready
    · show t.conn.buffer = _
      rw [hconn]
      rfl

theorem waitApacketHandler_collected (h : Cursors s) (halive : s.conn.destroyed = false)
    (hactive : s.read.active = true) (hready : s.read.ready = true)
    (hhd : s.read.handler = some (.adb .adbWaitApacketHandler)) (ha : FittingReads s.wire.history) :
    Prog.Ensures Slot.exec cursorContract (fun _ => Collected) adbWaitApacketHandler s := by
  refine waitApacketHandler_rule ⟨ha, fun t hq _ => h.quiet hq⟩ (.inl trivial) (fun b hb _ => ?_)
    (fun t _ ht => finish_collected (.inr rfl) ht.settled.holds) fun t m _ ht _ => ?_
  · have hok := h.buffer halive b hb
    have hreset : Cursors (s.withBuffer (resetBuf b)) :=
      h.withBuffer ⟨le_rfl, le_rfl, Int.natCast_nonneg _, hok.cap⟩
    exact receiveApacket_collected hreset halive hactive hready hhd rfl rfl
  · have hnew : Cursors (t.withBuffer ⟨m, adbMaxPacketSize, 0, 0⟩) :=
      Cursors.withBuffer ht.settled.holds (Buf.ok_of_new (by norm_num [adbMaxPacketSize]))
    have hread : t.read = s.read := ht.quiet.read
    refine ⟨hnew, receiveApacket_collected hnew ?_ (hread ▸ hactive) (hread ▸ hready) (hread ▸ hhd)
      rfl rfl⟩
    show t.conn.destroyed = false
    rw [ht.quiet.conn]
    exact halive

/-! ## Every connection -/

lemma Cursors.congr (h : Cursors s) (hc : t.conn = s.conn)
    (hw : t.wire.history = s.wire.history) : Cursors t where
  buffer := hc ▸ h.buffer
  request := hc ▸ h.request
  sound := hw ▸ h.sound

lemma blockReading_collected (h : Collected s) :
    Prog.Ensures Slot.exec cursorContract (fun _ => Collected) adbBlockReading s := by
  unfold adbBlockReading
  refine readEvent_rule h.cursors ?_
  split_ifs
  · have hdel : Collected s.delRead.2 := by
      unfold Slot.delRead
      split_ifs
      · exact h
      · exact ⟨h.cursors.congr rfl rfl, h.stage⟩
    exact delReadEvent_rule h.cursors fun _ => .pure hdel.cursors hdel
  · exact .pure h.cursors h

theorem collected_invariant : PeerInvariant FittingReads Collected Cursors where
  closed hp hf o ho := hf o (hp.subset ho)
  accepted s ls p q k := ⟨⟨fun _ _ hb => (nomatch hb), fun _ _ hr => (nomatch hr),
    fun _ ho => (nomatch ho)⟩, fun _ hh => by rcases hh with hh | hh <;> cases hh⟩
  feed _ hs := ⟨hs.cursors.congr rfl rfl, hs.stage⟩
  flags _ _ hs := ⟨hs.cursors.congr rfl rfl, hs.stage⟩
  keep hs := hs.cursors
  run {s hd} ha hs hopen hhd hready := by
    cases hd with
    | adbWaitApacketHandler =>
      exact waitApacketHandler_collected hs.cursors hopen.alive hopen.active hready hhd ha
    | adbProcessAdbHeader =>
      obtain ⟨r, b, hr, hout, hb, -⟩ := hs.stage hopen.alive (.inl hhd)
      exact processHeader_collected
        ⟨hs.cursors, hopen.alive, hopen.active, hready, hr, hout, hb⟩ hhd
    | adbProcessAdbPayload =>
      obtain ⟨r, b, hr, hout, hb, hsame⟩ := hs.stage hopen.alive (.inr hhd)
      exact processPayload_collected
        ⟨hs.cursors, hopen.alive, hopen.active, hready, hr, hout, hb⟩ (hsame hhd) hhd
    | adbBlockReading => exact blockReading_collected hs
    | adbEmptyHandler => exact .pure hs.cursors hs

/-- In every state of a run, also inside the handlers, for every accepted connection whose payload
reads fit. -/
theorem Moment.cursors_ordered {v : World} (h : Moment boot v) {i : ℕ} (hp : v.Peer i)
    (ha : FittingReads (v.slots i).wire.history) : Cursors (v.slots i) := by
  have hk := collected_invariant.moment h i hp ha
  refine ⟨hk.buffer, fun hd r hr => hk.request hd r ?_, hk.sound⟩
  show (v.slots i).conn.data.norm = _
  rw [hr]
  rfl

instance (o : Obs) : Decidable o.Fits := by
  cases o <;> unfold Obs.Fits <;> infer_instance

set_option maxRecDepth 4000 in
theorem Moment.cursors_ordered_okeyed : Cursors (okeyed.slots 1) :=
  @Moment.cursors_ordered (.single 2 3) okeyed (.top run_okeyed) 1
    ⟨by decide, by decide, by decide⟩ (by unfold FittingReads; decide)

/-- A header that announces four bytes arrives without its payload. -/
def retreated : World :=
  (oneClient ⟨[.bytes (Header.bytes ⟨pcmdOkay, 7, 9, 4, 0, ~~~pcmdOkay⟩)], [], [], []⟩).afterTurn
    {4}

lemma run_retreated : Run (.single 2 3) retreated :=
  (run_oneClient _).step (.reporting {4} (by decide) (by decide) rfl)

/-- The would-block result -2 was added to `last`, which is now two bytes before `pos`. -/
theorem cursors_crossed_retreated :
    ¬ ∀ (boot : Boot) (v : World) (i : ℕ), Moment boot v → v.Peer i → Cursors (v.slots i) :=
  fun h => by
  have hc := h _ retreated 1 (.top run_retreated) ⟨by decide, by decide, by decide⟩
  have hpos : (retreated.slots 1).conn.buffer.map (fun b => (b.pos, b.last)) = some (24, 22) := by
    decide
  obtain ⟨b, hb, hpl⟩ := Option.map_eq_some_iff.mp hpos
  have hok := (hc.buffer (by decide) b hb).size
  obtain ⟨h1, h2⟩ := Prod.ext_iff.mp hpl
  dsimp only at h1 h2
  omega

end Xdbd
