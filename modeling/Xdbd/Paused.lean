import Xdbd.ReadEvents

/-!
# Between two read events

What every accepted connection looks like between the calls of its handlers, whatever its peer sent
and whatever memory it found: where the cursors of the receive buffer are while a packet is
collected, and which windows were offered to `recv`.
-/
namespace Xdbd
open Interaction Code

variable {s t u : Slot} {b : Buf} {r : Request} {h : List Obs} {F : Prop}

/-! ## Windows -/

/-- No call of `recv` by the payload handler would block. -/
def Unblocked (h : List Obs) : Prop :=
  ∀ c, .recv c ∈ h → c.handler = some (.adb .adbProcessAdbPayload) → c.result ≠ xdbdAgain

/-- A call by the header handler offers a window that is not empty, and so does one by the payload
handler for a packet that is not larger than the receive buffer. -/
structure RecvCall.Offers (c : RecvCall) : Prop where
  header : c.handler = some (.adb .adbProcessAdbHeader) → 0 < c.size
  payload : c.handler = some (.adb .adbProcessAdbPayload) →
    headerSize + c.dlen ≤ adbMaxPacketSize → 0 < c.size

/-- As long as no read of a payload would block, all windows are offered so. -/
def Windowed (h : List Obs) : Prop := Unblocked h → ∀ c, .recv c ∈ h → c.Offers

lemma Unblocked.of_append {new : List Obs} (hu : Unblocked (h ++ new)) : Unblocked h := fun c hc =>
  hu c (List.mem_append_left _ hc)

lemma Windowed.append {new : List Obs} (hw : Windowed h) (hn : ∀ c, .recv c ∉ new) :
    Windowed (h ++ new) := fun hu c hc =>
  hw hu.of_append c ((List.mem_append.mp hc).resolve_right (hn c))

lemma Windowed.recv (hw : Windowed h) {c : RecvCall} (hc : Unblocked h → c.Offers) :
    Windowed (h ++ [.recv c]) := fun hu c' hc' => by
  rcases List.mem_append.mp hc' with hc' | hc'
  · exact hw hu.of_append c' hc'
  · obtain rfl := Obs.recv.inj (List.mem_singleton.mp hc')
    exact hc hu.of_append

lemma Obs.Quiet.not_recv {new : List Obs} (hq : ∀ o ∈ new, o.Quiet) (c : RecvCall) :
    .recv c ∉ new :=
  fun hc => hq _ hc

lemma Obs.Inner.not_recv {new : List Obs} (hq : ∀ o ∈ new, o.Inner) (c : RecvCall) :
    .recv c ∉ new :=
  fun hc => by
    rcases hq _ hc with hq | ⟨bs, hq⟩
    · exact hq
    · cases hq

/-! ## Connections at rest -/

/-- The receive buffer has the size of the largest packet, and no timer has expired. -/
structure Plain (s : Slot) : Prop where
  timeout : s.read.timeout = false
  cap : ∀ b, s.conn.buffer = some b → b.cap = adbMaxPacketSize
  windows : Windowed s.wire.history

/-- The current request has no reply buffer and no payload yet. -/
structure Slot.Asks (s : Slot) (r : Request) (b : Buf) : Prop where
  data : s.conn.data = .request r
  out : r.out = none
  payload : r.p.payload.Holds [] 0
  buffer : s.conn.buffer = some b

/-- Between two read events: a header that is collected is not complete, and neither is a payload,
for which a read would have blocked. -/
structure Paused (s : Slot) : Prop extends Plain s where
  header : s.conn.destroyed = false → s.read.handler = some (.adb .adbProcessAdbHeader) →
    ∃ r b, s.Asks r b ∧ b.pos = 0 ∧ 0 ≤ b.last ∧ b.last < headerSize
  payload : s.conn.destroyed = false → s.read.handler = some (.adb .adbProcessAdbPayload) →
    ¬ Unblocked s.wire.history ∧ ∃ r b, s.Asks r b ∧ b.pos = headerSize ∧ b.last ≤ b.cap ∧
      bufSize b < r.h.dlen.toNat

/-- What is read next into `b` ends behind `pos`, although a read that would have blocked may have
moved `last` before it. -/
def Slot.Reaches (s : Slot) (b : Buf) : Prop :=
  (s.taken b).bytes ≠ [] → 0 ≤ b.last ∧ b.pos ≤ b.last + (s.taken b).n

/-- So it is for a payload that is collected. -/
def Slot.CatchesUp (s : Slot) : Prop :=
  s.read.handler = some (.adb .adbProcessAdbPayload) → ∀ b, s.conn.buffer = some b → s.Reaches b

/-- What the handlers keep; only `F` is a reason for a fault. -/
def windowing (F : Prop) : Prog.Contract Slot :=
  ⟨fun _ => True, fun s => Windowed s.wire.history, F⟩

namespace Plain

lemma congr (h : Plain s) (hr : t.read.timeout = s.read.timeout)
    (hb : t.conn.buffer = s.conn.buffer)
    (hw : Windowed t.wire.history) : Plain t where
  timeout := hr.trans h.timeout
  cap b hb' := h.cap b (hb ▸ hb')
  windows := hw

lemma paused (h : Plain s) (hh : s.read.handler ≠ some (.adb .adbProcessAdbHeader))
    (hp : s.read.handler ≠ some (.adb .adbProcessAdbPayload)) : Paused s :=
  ⟨h, fun _ he => absurd he hh, fun _ he => absurd he hp⟩

end Plain

/-- Between two operations of a handler. -/
structure Firm (F : Prop) (s : Slot) : Prop extends Plain s where
  able : F ∨ s.Usable

namespace Firm

lemma alive (h : Firm F s) : F ∨ s.conn.destroyed = false := h.able.imp_right Slot.Usable.alive

lemma withBuffer (h : Firm F s) (hb : b.cap = adbMaxPacketSize) : Firm F (s.withBuffer b) where
  timeout := h.timeout
  cap b' hb' := by
    rw [← Option.some.inj hb']
    exact hb
  windows := h.windows
  able := h.able.imp_right fun hs => ⟨hs.alive, hs.unixIo, hs.listening, hs.fd, hs.allocs⟩

lemma withData (h : Firm F s) (d : Data) : Firm F { s with conn := { s.conn with data := d } } where
  timeout := h.timeout
  cap := h.cap
  windows := h.windows
  able := h.able.imp_right fun hs => ⟨hs.alive, hs.unixIo, hs.listening, hs.fd, hs.allocs⟩

lemma handledBy (h : Firm F s) (hd : AdbHandler) : Firm F (s.handledBy hd) where
  timeout := h.timeout
  cap := h.cap
  windows := h.windows
  able := h.able.imp_right fun hs => ⟨hs.alive, hs.unixIo, hs.listening, hs.fd, hs.allocs⟩

lemma log (h : Firm F s) {o : Obs} (ho : ∀ c, o ≠ .recv c) : Firm F (s.log o) where
  timeout := h.timeout
  cap := h.cap
  windows := h.windows.append fun c hc => ho c (List.mem_singleton.mp hc).symm
  able := h.able.imp_right fun hs => ⟨hs.alive, hs.unixIo, hs.listening, hs.fd, hs.allocs⟩

lemma quiet (h : Firm F s) (hq : Quiet s t) : Firm F t where
  toPlain := by
    obtain ⟨new, hnew, hn⟩ := hq.history
    refine h.toPlain.congr (by rw [hq.read]) (by rw [hq.conn]) ?_
    rw [hnew]
    exact h.windows.append (Obs.Quiet.not_recv hn)
  able := h.able.imp_right fun hs => hs.quiet hq

lemma settled (h : Firm F s) : Settled (windowing F) s :=
  ⟨trivial, fun _ hq _ => (h.quiet hq).windows⟩

lemma working {e : List UInt8} (h : Firm F s) (hw : Working s e t) : Firm F t where
  toPlain := by
    obtain ⟨new, hnew, hn, -⟩ := hw.held
    refine h.toPlain.congr (by rw [hw.same]) (by rw [hw.same]) ?_
    rw [hnew]
    exact h.windows.append (Obs.Inner.not_recv hn)
  able := h.able.imp_right fun hs => hs.working hw

lemma sentOut (h : Firm F s) (bs : List UInt8) : Firm F (s.sentOut bs) where
  timeout := h.timeout
  cap := h.cap
  windows := h.windows.append fun c hc => by cases List.mem_singleton.mp hc
  able := h.able.imp_right fun hs => ⟨hs.alive, hs.unixIo, hs.listening, hs.fd, hs.allocs⟩

lemma fetched (h : Firm F s) (hb : s.conn.buffer = some b)
    (hheader : s.read.handler = some (.adb .adbProcessAdbHeader) → 0 < b.window)
    (hpayload : Unblocked s.wire.history → s.read.handler = some (.adb .adbProcessAdbPayload) →
      headerSize + s.dlen ≤ adbMaxPacketSize → 0 < b.window) : Firm F (s.fetched b) where
  timeout := by
    show (unixRecv s.read b.window s.wire.recvs).rev.timeout = _
    rw [unixRecv_rev]
    exact h.timeout
  cap b' hb' := by
    rw [← Option.some.inj hb']
    exact h.cap b hb
  windows := h.windows.recv fun hu => ⟨hheader, hpayload hu⟩
  able := h.able.imp_right fun hs => hs.fetched b

lemma advanced (h : Firm F (s.fetched b)) (hb : b.cap = adbMaxPacketSize) : Firm F (s.advanced b) :=
  h.withBuffer hb

lemma closed (h : Firm F s) : Paused s.closed where
  timeout := h.timeout
  cap := h.cap
  windows := h.windows
  header hc := absurd hc (by simp [Slot.closed])
  payload hc := absurd hc (by simp [Slot.closed])

lemma waiting (h : Firm F s) : Paused (s.handledBy .adbWaitApacketHandler) :=
  (h.handledBy _).toPlain.paused (by simp [Slot.handledBy]) (by simp [Slot.handledBy])

lemma close (h : Firm F s) :
    Prog.Ensures Slot.exec (windowing F) (fun _ => Paused) Code.closeConnection s :=
  .of_bind_pure (closeConnection_rule (κ := windowing F) h.windows
    (h.able.imp_right fun hs => ⟨hs.listening, hs.fd⟩) fun _ => .pure h.windows h.closed)

end Firm

/-! ## The handlers -/

lemma sends_paused (hs : Firm F s) (hb : s.read.handler = some (.adb .adbBlockReading))
    (hdr : Header) :
    Sends (windowing F) s hdr Paused := by
  refine ⟨fun u hu => ?_, fun u hw _ _ => ⟨(hs.working hw).windows, (hs.working hw).waiting⟩,
    fun u hw _ _ => ?_⟩
  · cases hu with
    | refused _ hw _ =>
      have hblock : u.read.handler = some (.adb .adbBlockReading) := by
        rw [hw.same]
        exact hb
      exact (hs.working hw).toPlain.paused (by rw [hblock]; decide) (by rw [hblock]; decide)
    | closed _ hw _ _ => exact (hs.working hw).closed
  · have hsent := (hs.working hw).sentOut u.held
    exact ⟨hsent.windows, fun _ => ⟨hsent.windows, hsent.waiting⟩⟩

lemma takePayload_paused (hs : Firm F s) (h : s.Asks r b) (hok : F ∨ b.Ok) :
    Prog.Ensures Slot.exec (windowing F) (fun _ => Paused) takePayload s := by
  have hcap := hs.cap b h.buffer
  have happ : Firm F (s.appending b) := hs.log fun c hc => by cases hc
  have hcopied : ∀ payload y, Quiet ((s.appending b).withRequest (r.withPayload payload)) y →
      Firm F y := fun payload _ hq => (happ.withData (.request (r.withPayload payload))).quiet hq
  have hfits : F ∨ s.Usable ∧ b.Ok ∧ 2 * (bufSize r.p.payload + bufSize b) < 2^32 := by
    rcases hs.able, hok with ⟨hF | hu, hF' | hok⟩
    · exact .inl hF
    · exact .inl hF
    · exact .inl hF'
    · have hle := hok.bufSize_le
      have hnew := h.payload.bufSize
      have hmax : adbMaxPacketSize = 2^20 := rfl
      exact .inr ⟨hu, hok, by simp only [List.length_nil] at hnew; omega⟩
  refine .bind (adbParseAdbPayload_rule (κ := windowing F) hs.windows h.data h.buffer h.payload.ok
    hfits (fun _ => happ.settled) (fun payload y _ hq _ => (hcopied payload y hq).windows)
      fun payload y _ hq _ => ⟨(hcopied payload y hq).windows, ?_⟩)
  have hy := (hcopied payload y hq).withBuffer
    (b := { b with pos := b.pos + r.p.header.dlen.toNat }) hcap
  have hdata : y.conn.data = .request (r.withPayload payload) := by
    rw [hq.conn]
    rfl
  refine dispatchPayload_spec (fun r' hr' => ?_) hy.windows (fun _ => hy.windows) (fun r' _ _ => ?_)
    (hy.able.imp_right fun hs => ⟨hs, _, hdata⟩)
  · rw [← Data.request.inj (hdata.symm.trans hr')]
    exact h.out
  · have hd : Firm F (Slot.dispatching _ r') :=
      (hy.handledBy .adbBlockReading).log fun c hc => by cases hc
    exact ⟨⟨trivial, fun _ _ hw _ => (hd.working hw).windows,
      fun _ hw _ => (hd.working hw).windows⟩,
      sends_paused hd rfl r'.p.header⟩

/-- A read event of a packet that is collected. -/
structure Serves (F : Prop) (s : Slot) (r : Request) (b : Buf) : Prop extends s.Asks r b where
  firm : Firm F s
  active : s.read.active = true
  ready : s.read.ready = true

namespace Serves

lemma cap (h : Serves F s r b) : b.cap = 2^20 := h.firm.cap b h.buffer

lemma gathering (h : Serves F s r b) (hsize : bufSize b < 2^32) : Gathering s r b where
  active := h.active
  ready := h.ready
  data := h.data
  buffer := h.buffer
  cap := by
    rw [h.cap]
    decide
  size := hsize

lemma dlen (h : Serves F s r b) : s.dlen = r.h.dlen.toNat := by
  unfold Slot.dlen
  rw [h.data]

lemma noTimeout {Q : Prop} (h : Serves F s r b) (ht : s.read.timeout = true) : Q :=
  absurd (h.firm.timeout.symm.trans ht) (by simp)

lemma advanced (h : Serves F s r b) (hf : Firm F (s.fetched b))
    (hpos : 0 < (s.taken b).bytes.length) :
    Serves F (s.advanced b) r (b.advance (s.taken b).bytes (s.taken b).n) := by
  have hread := Slot.advanced_read hpos
  exact ⟨⟨h.data, h.out, h.payload, rfl⟩, hf.advanced (h.firm.cap b h.buffer), hread ▸ h.active,
    hread ▸ h.ready⟩

lemma headed (h : Serves F s r b) : Serves F ((s.headed r b).handledBy .adbProcessAdbPayload)
    (r.withHeader b.header) { b with pos := b.pos + headerSize } :=
  ⟨⟨rfl, h.out, h.payload, rfl⟩,
    ((h.firm.withData (.request (r.withHeader b.header))).withBuffer
      (b := { b with pos := b.pos + headerSize }) (h.firm.cap b h.buffer)).handledBy _,
    h.active, h.ready⟩

/-- The payload handler; unless a read has blocked before, it is called once the header is
parsed. -/
theorem processPayload (h : Serves F s r b)
    (hhd : s.read.handler = some (.adb .adbProcessAdbPayload)) (hpos : b.pos = headerSize)
    (hlast : b.last ≤ b.cap) (hfirst : Unblocked s.wire.history → 0 ≤ b.last)
    (hreach : F ∨ s.Reaches b) :
    Prog.Ensures Slot.exec (windowing F) (fun _ => Paused) adbProcessAdbPayload s := by
  have hb : bufSize b = b.last - b.pos := rfl
  have h24 : headerSize = 24 := rfl
  have hcap := h.cap
  have hmax : adbMaxPacketSize = 2^20 := rfl
  have hdlen := h.dlen
  have hfetched : bufSize b < r.h.dlen.toNat → Firm F (s.fetched b) := fun hlt =>
    h.firm.fetched h.buffer (fun he => absurd (hhd.symm.trans he) (by decide)) fun hu _ hfit => by
      have hnonneg := hfirst hu
      have hwin := Buf.window_eq hnonneg hlast (by omega)
      omega
  have hfetchable : F ∨ Fetchable s b := by
    rcases h.firm.able, hreach with ⟨hF | hu, hF' | hr⟩
    · exact .inl hF
    · exact .inl hF
    · exact .inl hF'
    · refine .inr ⟨hu, fun hne => ⟨(hr hne).1, ?_⟩⟩
      exact ((Fetchable.of_cursors hu (hr hne).1 hlast (by omega)).stores hne).2
  refine processPayload_rule (κ := windowing F) (h.gathering (by omega)) h.firm.windows hfetchable
    h.noTimeout (fun _ => takePayload_paused h.firm h.toAsks
      (.inr ⟨by omega, by omega, hlast, by omega⟩))
    (fun hlt _ => (hfetched hlt).windows)
    (fun hlt _ _ => ⟨(hfetched hlt).windows, (hfetched hlt).closed⟩)
    (fun hlt hn _ => ⟨(hfetched hlt).windows, ?_⟩)
    fun hlt hin hlen hn _ => ⟨(hfetched hlt).windows,
      takePayload_paused (h.advanced (hfetched hlt) hlen).firm
        (h.advanced (hfetched hlt) hlen).toAsks ?_⟩
  · have hhd' : (s.advanced b).read.handler = some (.adb .adbProcessAdbPayload) :=
      (s.fetched_handler b).trans hhd
    refine ⟨((hfetched hlt).advanced hcap).toPlain, fun _ he => ?_, fun _ _ => ⟨fun hu => ?_, r, _,
      ⟨h.data, h.out, h.payload, rfl⟩, hpos, ?_, ?_⟩⟩
    · rw [hhd'] at he
      cases he
    · exact hu _ (List.mem_append_right _ (List.mem_singleton_self _)) hhd hn
    · show b.last + (s.taken b).n ≤ b.cap
      rw [hn, xdbdAgain]
      omega
    · -- the code of the blocked call is taken for a byte count
      show b.last + (s.taken b).n - b.pos < _
      rw [hn, xdbdAgain]
      omega
  · refine hreach.imp_right fun hr => ?_
    have hreached := hr (List.ne_nil_of_length_pos hlen)
    have hfits := hin.fits hlen
    exact ⟨by show 0 ≤ b.pos; omega, hreached.2, by show b.last + (s.taken b).n ≤ b.cap; omega,
      by show b.cap < _; omega⟩

lemma takeHeader (h : Serves F s r b) (hpos : b.pos = 0) (hlast : 0 ≤ b.last)
    (hfits : b.last ≤ b.cap)
    (hhd : s.read.handler = some (.adb .adbProcessAdbHeader)) :
    Prog.Ensures Slot.exec (windowing F) (fun _ => Paused) takeHeader s := by
  have hb : bufSize b = b.last - b.pos := rfl
  have hcap := h.cap
  have hsize : (sizeT (bufSize b) : ℤ) = bufSize b := sizeT_of_nat (by omega) (by omega)
  refine takeHeader_rule (κ := windowing F) h.data h.buffer h.firm.windows h.firm.able
    (fun hlt => ?_) (fun _ _ => h.firm.windows) fun hle _ => ⟨h.firm.windows, fun _ =>
      h.headed.processPayload rfl ?_ hfits (fun _ => hlast) (.inr fun hne => ⟨hlast, ?_⟩)⟩
  · refine ⟨h.firm.toPlain, fun _ _ => ⟨r, b, h.toAsks, hpos, hlast, by omega⟩, fun _ he => ?_⟩
    rw [hhd] at he
    cases he
  · show b.pos + headerSize = _
    omega
  · -- the whole header is there, so the bytes come behind `pos`
    have hcount := Slot.taken_count hne
    show b.pos + headerSize ≤ b.last + _
    omega

theorem processHeader (h : Serves F s r b) (hpos : b.pos = 0) (hlast : 0 ≤ b.last)
    (hfits : b.last ≤ b.cap) (hhd : s.read.handler = some (.adb .adbProcessAdbHeader)) :
    Prog.Ensures Slot.exec (windowing F) (fun _ => Paused) adbProcessAdbHeader s := by
  have hb : bufSize b = b.last - b.pos := rfl
  have hmax := h.cap
  have h24 : headerSize = 24 := rfl
  have hsize : (sizeT (bufSize b) : ℤ) = bufSize b := sizeT_of_nat (by omega) (by omega)
  have hwin := Buf.window_eq hlast hfits (by omega)
  have hfetched : sizeT (bufSize b) < headerSize → Firm F (s.fetched b) := fun hlt =>
    h.firm.fetched h.buffer (fun _ => by omega) fun _ he => absurd (hhd.symm.trans he) (by decide)
  refine processHeader_rule (κ := windowing F) (h.gathering (by omega)) (by omega) h.firm.windows
    (h.firm.able.imp_right fun hu => .of_cursors hu hlast hfits (by omega)) h.noTimeout
    (fun _ => h.takeHeader hpos hlast hfits hhd) (fun hlt _ => (hfetched hlt).windows)
    (fun hlt _ _ => ?_) (fun hlt _ _ => ⟨(hfetched hlt).windows, (hfetched hlt).closed⟩)
    fun hlt hin hlen hn _ => ⟨(hfetched hlt).windows,
      (h.advanced (hfetched hlt) hlen).takeHeader hpos
      ?_ ?_ ((congrArg Event.handler (Slot.advanced_read hlen)).trans hhd)⟩
  · have hhd' : (s.fetched b).read.handler = some (.adb .adbProcessAdbHeader) :=
      (s.fetched_handler b).trans hhd
    refine ⟨(hfetched hlt).toPlain, fun _ _ =>
      ⟨r, _, ⟨h.data, h.out, h.payload, rfl⟩, hpos, hlast, ?_⟩,
      fun _ he => ?_⟩
    · show b.last < _
      omega
    · rw [hhd'] at he
      cases he
  · have hstored := hin.fits hlen
    show 0 ≤ b.last + (s.taken b).n
    omega
  · have hstored := hin.fits hlen
    show b.last + (s.taken b).n ≤ b.cap
    omega

end Serves

lemma receiveApacket_paused (hs : Firm F s) (hb : s.conn.buffer = some b) (hpos : b.pos = 0)
    (hlast : b.last = 0) (hactive : s.read.active = true) (hready : s.read.ready = true)
    (hhd : s.read.handler = some (.adb .adbWaitApacketHandler)) :
    Prog.Ensures Slot.exec (windowing F) (fun _ => Paused) (receiveApacket b) s := by
  have hcap := hs.cap b hb
  have hmax : adbMaxPacketSize = 2^20 := rfl
  have hf : Firm F (s.fetched b) := hs.fetched hb (fun he => absurd (hhd.symm.trans he) (by decide))
    fun _ he => absurd (hhd.symm.trans he) (by decide)
  have hadv : Firm F (s.advanced b) := hf.advanced hcap
  refine receiveApacket_rule (κ := windowing F) hs.windows hb hlast (by omega) hactive hs.able
    (fun _ => hf.windows) (fun _ _ => ?_) (fun _ _ => ⟨hf.windows, hf.closed⟩)
    (fun _ _ _ => hadv.settled) (fun t ht => ?_) fun t m ht hlen hn _ =>
      ⟨(hadv.quiet ht.quiet).windows, fun _ => ?_⟩
  · have hhd' : (s.fetched b).read.handler = some (.adb .adbWaitApacketHandler) :=
      (s.fetched_handler b).trans hhd
    exact hf.toPlain.paused (by rw [hhd']; decide) (by rw [hhd']; decide)
  · -- without memory for the request
    have ht' := hadv.quiet ht.quiet
    exact setData_rule (κ := windowing F) none ht'.windows ht'.alive fun _ _ =>
      (ht'.withData .null).close
  · have ht' := hadv.quiet ht.quiet
    have hread : t.read = s.read := ht.quiet.read.trans (Slot.advanced_read hlen)
    have hbuf : t.conn.buffer = some (b.advance (s.taken b).bytes (s.taken b).n) := by
      rw [ht.quiet.conn]
      rfl
    have hwin := Buf.window_eq (b := b) (by omega) (by omega) (by omega)
    have hle : (s.taken b).bytes.length ≤ b.window := unixRecv_length _ _ _
    refine Serves.processHeader (s := (t.withRequest (.fresh m)).handledBy .adbProcessAdbHeader)
      (b := b.advance (s.taken b).bytes (s.taken b).n) (r := .fresh m)
      ⟨⟨rfl, rfl, Buf.holds_new m, hbuf⟩, (ht'.withData (.request (.fresh m))).handledBy _, ?_, ?_⟩
      hpos ?_ ?_ rfl
    · show t.read.active = true
      rw [hread]
      exact hactive
    · show t.read.ready = true
      rw [hread]
      exact hready
    · show 0 ≤ b.last + (s.taken b).n
      omega
    · show b.last + (s.taken b).n ≤ b.cap
      omega

theorem waitApacketHandler_paused (hs : Firm F s) (hactive : s.read.active = true)
    (hready : s.read.ready = true)
    (hhd : s.read.handler = some (.adb .adbWaitApacketHandler)) :
    Prog.Ensures Slot.exec (windowing F) (fun _ => Paused) adbWaitApacketHandler s := by
  refine waitApacketHandler_rule hs.settled hs.alive (fun b hb _ => ?_)
    (fun t _ ht => (hs.quiet ht.quiet).close) fun t m _ ht _ =>
      ⟨(hs.quiet ht.quiet).windows, ?_⟩
  · exact receiveApacket_paused (hs.withBuffer (b := resetBuf b) (hs.cap b hb)) rfl rfl rfl hactive
      hready hhd
  · have hread : t.read = s.read := ht.quiet.read
    exact receiveApacket_paused ((hs.quiet ht.quiet).withBuffer rfl) rfl rfl rfl (hread ▸ hactive)
      (hread ▸ hready) (hread ▸ hhd)

lemma Paused.congr (h : Paused s) (hc : t.conn = s.conn) (hh : t.read.handler = s.read.handler)
    (ht : t.read.timeout = s.read.timeout) (hw : t.wire.history = s.wire.history) : Paused t where
  toPlain := h.toPlain.congr ht (by rw [hc]) (by rw [hw]; exact h.windows)
  header := by
    rw [hc, hh]
    intro hd he
    obtain ⟨r, b, ha, hb⟩ := h.header hd he
    exact ⟨r, b, ⟨by rw [hc]; exact ha.data, ha.out, ha.payload, by rw [hc]; exact ha.buffer⟩, hb⟩
  payload := by
    rw [hc, hh, hw]
    intro hd he
    obtain ⟨hu, r, b, ha, hb⟩ := h.payload hd he
    exact ⟨hu, r, b, ⟨by rw [hc]; exact ha.data, ha.out, ha.payload, by rw [hc]; exact ha.buffer⟩,
      hb⟩

lemma blockReading_paused (h : Paused s) :
    Prog.Ensures Slot.exec (windowing F) (fun _ => Paused) adbBlockReading s := by
  unfold adbBlockReading
  refine readEvent_rule (κ := windowing F) h.windows ?_
  split_ifs
  · have hdel : Paused s.delRead.2 := by
      unfold Slot.delRead
      split_ifs
      · exact h
      · exact h.congr rfl rfl rfl rfl
    exact delReadEvent_rule (κ := windowing F) h.windows fun _ => .pure hdel.windows hdel
  · exact .pure h.windows h

/-- One read event of an open connection. With memory it is no fault, as long as the bytes that come
for a payload reach behind `pos`. -/
theorem Paused.handled (h : Paused s) (hs : s.Open) (hF : F ∨ s.AllocsSucceed ∧ s.CatchesUp)
    {hd : AdbHandler} (hhd : s.read.handler = some (.adb hd)) (hready : s.read.ready = true) :
    Prog.Ensures Slot.exec (windowing F) (fun _ => Paused) (code hd) s := by
  have hfd := hs.fd
  have hfirm : Firm F s := ⟨h.toPlain, hF.imp_right fun ha =>
    ⟨hs.alive, hs.unixIo, hs.listening, by omega, ha.1⟩⟩
  cases hd with
  | adbWaitApacketHandler => exact waitApacketHandler_paused hfirm hs.active hready hhd
  | adbProcessAdbHeader =>
    obtain ⟨r, b, ha, hpos, hlast, hshort⟩ := h.header hs.alive hhd
    have hmax : b.cap = 2^20 := h.cap b ha.buffer
    have h24 : headerSize = 24 := rfl
    exact Serves.processHeader ⟨ha, hfirm, hs.active, hready⟩ hpos hlast (by omega) hhd
  | adbProcessAdbPayload =>
    obtain ⟨hu, r, b, ha, hpos, hlast, -⟩ := h.payload hs.alive hhd
    exact Serves.processPayload ⟨ha, hfirm, hs.active, hready⟩ hhd hpos hlast
      (fun hu' => absurd hu' hu) (hF.imp_right fun hc => hc.2 hhd b ha.buffer)
  | adbBlockReading => exact blockReading_paused h
  | adbEmptyHandler => exact .pure h.windows h

theorem paused_invariant : PeerInvariant (fun _ => True) Paused fun s =>
    Windowed s.wire.history where
  closed _ _ := trivial
  accepted s ls p q k := by
    refine Plain.paused ⟨rfl, fun _ hb => (nomatch hb), fun _ _ hc => (nomatch hc)⟩ ?_ ?_
      <;> exact nofun
  feed _ hs := hs.congr rfl rfl rfl rfl
  flags _ _ hs := hs.congr rfl rfl rfl rfl
  keep hs := hs.windows
  run _ hs hopen hhd hready := hs.handled hopen (.inl trivial) hhd hready

end Xdbd
