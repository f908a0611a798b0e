import Xdbd.Phases
import Xdbd.Reassembly

/-!
# Read events of one connection

The read events of an accepted connection one after the other, and how far the packet that is being
received has come after each.
-/
namespace Xdbd
open Interaction Code

variable {s t u : Slot} {b : Buf} {r : Request} {bs c : List UInt8} {ks : List RecvResult}
  {h : List Obs}

def Slot.readied (s : Slot) : Slot := { s with read := { s.read with ready := true } }

/-- A read event: nothing if it is not registered, and else a call of its handler. -/
def Slot.readEvent (s : Slot) : Except Fault Slot :=
  if s.read.index = none then .ok s
  else
    match s.read.handler with
    | some (.adb hd) => (Prog.run Slot.exec (code hd) s.readied).map Prod.snd
    | _ => .ok s

def Slot.readEvents : ℕ → Slot → Except Fault Slot
  | 0, s => .ok s
  | n + 1, s => s.readEvent.bind (Slot.readEvents n)

/-- Nothing is assumed and nothing kept, and faults are allowed if `p` is. -/
def calm (p : Prop) : Prog.Contract Slot := ⟨fun _ => True, fun _ => True, p⟩

lemma settled_calm {p : Prop} : Settled (calm p) s := ⟨trivial, fun _ _ _ => trivial⟩

/-! ## What was heard -/

def Obs.bytes : Obs → List UInt8
  | .recv call => call.bytes
  | _ => []

def arrived (h : List Obs) : List UInt8 := h.flatMap Obs.bytes

def Obs.packet : Obs → Option (Header × List UInt8)
  | .dispatch h payload => some (h, payload)
  | _ => none

/-- The packets for which `xdbd_process_packet` was called. -/
def dispatches (h : List Obs) : List (Header × List UInt8) := h.filterMap Obs.packet

lemma arrived_append (h h' : List Obs) : arrived (h ++ h') = arrived h ++ arrived h' :=
  List.flatMap_append

lemma dispatches_append (h h' : List Obs) : dispatches (h ++ h') = dispatches h ++ dispatches h' :=
  List.filterMap_append

lemma Obs.Inner.packet {o : Obs} (ho : o.Inner) : o.packet = none := by
  rcases ho with hq | ⟨bs, rfl⟩
  · cases o <;> first | rfl | exact hq.elim
  · rfl

lemma dispatches_inner (hin : ∀ o ∈ h, o.Inner) : dispatches h = [] :=
  List.filterMap_eq_nil_iff.mpr fun o ho => (hin o ho).packet

lemma arrived_quiet (hq : ∀ o ∈ h, o.Quiet) : arrived h = [] := by
  refine List.flatMap_eq_nil_iff.mpr fun o ho => ?_
  have := hq o ho
  cases o with
  | recv call => exact this.elim
  | _ => rfl

/-- Since the history was `h` the bytes `bs` have arrived, and nothing was dispatched. -/
def Heard (h : List Obs) (bs : List UInt8) (t : Slot) : Prop :=
  ∃ new, t.wire.history = h ++ new ∧ dispatches new = [] ∧ arrived new = bs

/-- Since the history was `h` one packet was dispatched, when the bytes `bs` had arrived. -/
def Dispatched (h : List Obs) (hdr : Header) (payload bs : List UInt8) (t : Slot) : Prop :=
  ∃ pre post, t.wire.history = h ++ pre ++ .dispatch hdr payload :: post ∧ dispatches pre = [] ∧
    dispatches post = [] ∧ arrived pre = bs

lemma Heard.quiet (hh : Heard h bs t) (hq : Quiet t u) : Heard h bs u := by
  obtain ⟨new, hnew, hd, ha⟩ := hh
  obtain ⟨new', hnew', hq'⟩ := hq.history
  refine ⟨new ++ new', ?_, ?_, ?_⟩
  · rw [hnew', hnew, List.append_assoc]
  · rw [dispatches_append, hd, dispatches_inner fun o ho => .inl (hq' o ho)]
    rfl
  · rw [arrived_append, ha, arrived_quiet hq', List.append_nil]

lemma Heard.fetched (hh : Heard h bs t) (b : Buf) :
    Heard h (bs ++ (t.taken b).bytes) (t.fetched b) := by
  obtain ⟨new, hnew, hd, ha⟩ := hh
  refine ⟨new ++ [.recv ⟨t.read.handler, t.dlen, b.pos, b.last, b.cap, b.last, b.window,
    (t.taken b).n, (t.taken b).bytes⟩], ?_, ?_, ?_⟩
  · show t.wire.history ++ _ = _
    rw [hnew, List.append_assoc]
    rfl
  · rw [dispatches_append, hd]
    rfl
  · rw [arrived_append, ha]
    simp [arrived, Obs.bytes]

lemma Dispatched.grow {hdr : Header} {payload : List UInt8} (hd : Dispatched h hdr payload bs t)
    {new : List Obs} (hnew : u.wire.history = t.wire.history ++ new) (hn : dispatches new = []) :
    Dispatched h hdr payload bs u := by
  obtain ⟨pre, post, ht, hpre, hpost, ha⟩ := hd
  refine ⟨pre, post ++ new, ?_, hpre, ?_, ha⟩
  · rw [hnew, ht, List.append_assoc, List.cons_append]
  · rw [dispatches_append, hpost, hn]
    rfl

/-! ## Results of `c->recv` -/

/-- The next result would block, and `ks` remain. -/
def Slot.Blocks (s : Slot) (ks : List RecvResult) : Prop :=
  s.wire.recvs = .again :: ks ∨ s.wire.recvs = [] ∧ ks = []

lemma Slot.Blocks.taken (hb : s.Blocks ks) (b : Buf) :
    s.taken b = ⟨{ s.read with ready := false }, xdbdAgain, [], ks⟩ := by
  unfold Slot.taken
  rcases hb with hb | ⟨hb, rfl⟩ <;> rw [hb] <;> rfl

lemma Slot.taken_bytes (hr : s.wire.recvs = .bytes c :: ks) (hc : 0 < c.length)
    (hfit : c.length ≤ b.window) : s.taken b = ⟨s.read, c.length, c, ks⟩ := by
  unfold Slot.taken
  rw [hr, unixRecv, List.take_of_length_le hfit, if_neg (by omega), undelivered,
    List.drop_of_length_le hfit, if_pos rfl]

/-! ## An open connection -/

/-- An accepted connection whose read event is registered. -/
structure Slot.Live (s : Slot) : Prop where
  usable : s.Usable
  active : s.read.active = true
  timeout : s.read.timeout = false
  index : s.read.index ≠ none

namespace Slot.Live

lemma congr (hs : s.Live)
    (hconn : t.conn = { s.conn with data := t.conn.data, sent := t.conn.sent,
                                    buffer := t.conn.buffer })
    (hread : t.read.active = s.read.active ∧ t.read.timeout = s.read.timeout ∧
      t.read.index = s.read.index)
    (hallocs : t.wire.allocs <:+ s.wire.allocs) : t.Live := by
  refine ⟨⟨?_, ?_, ?_, ?_, fun m hm => hs.usable.allocs m (hallocs.subset hm)⟩, ?_, ?_, ?_⟩
  · rw [hconn]
    exact hs.usable.alive
  · rw [hconn]
    exact hs.usable.unixIo
  · rw [hconn]
    exact hs.usable.listening
  · rw [hconn]
    exact hs.usable.fd
  · exact hread.1.trans hs.active
  · exact hread.2.1.trans hs.timeout
  · rw [hread.2.2]
    exact hs.index

lemma quiet (hs : s.Live) (hq : Quiet s t) : t.Live := by
  refine hs.congr ?_ ?_ hq.allocs
  · rw [hq.same]
  · rw [hq.read]
    exact ⟨rfl, rfl, rfl⟩

lemma fetched (hs : s.Live) (b : Buf) : (s.fetched b).Live := by
  refine hs.congr rfl ?_ List.suffix_rfl
  have hrev : (s.fetched b).read = _ := unixRecv_rev s.read b.window s.wire.recvs
  rw [hrev]
  exact ⟨rfl, rfl, rfl⟩

lemma withBuffer (hs : s.Live) (b : Buf) : (s.withBuffer b).Live :=
  hs.congr rfl ⟨rfl, rfl, rfl⟩ List.suffix_rfl

lemma withRequest (hs : s.Live) (r : Request) : (s.withRequest r).Live :=
  hs.congr rfl ⟨rfl, rfl, rfl⟩ List.suffix_rfl

lemma handledBy (hs : s.Live) (hd : AdbHandler) : (s.handledBy hd).Live :=
  hs.congr rfl ⟨rfl, rfl, rfl⟩ List.suffix_rfl

lemma readied (hs : s.Live) : s.readied.Live :=
  hs.congr rfl ⟨rfl, rfl, rfl⟩ List.suffix_rfl

end Slot.Live

/-! ## The dispatch -/

structure Slot.Waits (s : Slot) : Prop where
  live : s.Live
  handler : s.read.handler = some (.adb .adbWaitApacketHandler)
  cap : ∀ b, s.conn.buffer = some b → b.cap = adbMaxPacketSize

/-- A connection on which a packet was dispatched, with the results `ks` to come. -/
structure Rested (ks : List RecvResult) (t : Slot) : Prop where
  recvs : t.wire.recvs = ks
  rests : t.read.index = none ∨ t.read.handler = some (.adb .adbBlockReading) ∨ t.Waits

lemma Heard.dispatching (hh : Heard h bs t) (r : Request) :
    Dispatched h r.p.header r.p.payload.live bs (t.dispatching r) := by
  obtain ⟨new, hnew, hd, ha⟩ := hh
  refine ⟨new, [], ?_, hd, rfl, ha⟩
  show t.wire.history ++ _ = _
  rw [hnew]

lemma Slot.Live.working {e : List UInt8} (hs : s.Live) (hw : Working s e t) : t.Live := by
  refine hs.congr ?_ ?_ hw.allocs
  · rw [hw.same]
  · rw [hw.same]
    exact ⟨rfl, rfl, rfl⟩

lemma Dispatched.working {hdr : Header} {payload e : List UInt8}
    (hd : Dispatched h hdr payload bs s) (hw : Working s e t) : Dispatched h hdr payload bs t := by
  obtain ⟨new, hnew, hin, -⟩ := hw.held
  exact hd.grow hnew (dispatches_inner hin)

lemma sends_rested {p : Prop} (hs : s.Live) (hblock : s.read.handler = some (.adb .adbBlockReading))
    (hcap : ∀ b, s.conn.buffer = some b → b.cap = adbMaxPacketSize) {hdr : Header}
    {payload : List UInt8} (hd : Dispatched h hdr payload bs s) :
    Sends (calm p) s hdr fun u => Dispatched h hdr payload bs u ∧ Rested s.wire.recvs u := by
  have hrecvs : ∀ {u}, Working s [] u → u.wire.recvs = s.wire.recvs := fun hw => by rw [hw.same]
  have hbuffer : ∀ {u}, Working s [] u → ∀ b, u.conn.buffer = some b → b.cap = adbMaxPacketSize :=
    fun hw b hb => hcap b (by rw [hw.same] at hb; exact hb)
  refine ⟨fun u hu => ?_, fun u hw _ _ => ⟨trivial, ?_⟩, fun u hw _ _ =>
    ⟨trivial, fun _ => ⟨trivial, ?_⟩⟩⟩
  · cases hu with
    | refused _ hw _ =>
      refine ⟨hd.working hw, hrecvs hw, .inr (.inl ?_)⟩
      rw [hw.same]
      exact hblock
    | @closed v _ hw _ _ =>
      refine ⟨(hd.working hw).grow (List.append_nil _).symm rfl, ?_, .inl ?_⟩
      · exact @hrecvs v hw
      · exact if_pos (hs.working hw).active
  · refine ⟨(hd.working hw).grow (List.append_nil _).symm rfl, ?_,
      .inr (.inr ⟨(hs.working hw).handledBy _, rfl, ?_⟩)⟩
    · exact @hrecvs u hw
    · exact @hbuffer u hw
  · have hlive : (u.sentOut u.held).Live :=
      (hs.working hw).congr rfl ⟨rfl, rfl, rfl⟩ List.suffix_rfl
    refine ⟨@Dispatched.grow u _ bs h hdr payload (hd.working hw) [.send u.held (u.send u.held).1]
      rfl rfl, ?_, .inr (.inr ⟨hlive.handledBy _, rfl, ?_⟩)⟩
    · exact @hrecvs u hw
    · exact @hbuffer u hw

lemma dispatchPayload_dispatched {p : Prop} (ht : t.Live)
    (hcap : ∀ b, t.conn.buffer = some b → b.cap = adbMaxPacketSize)
    (hr : t.conn.data = .request r) (hout : r.out = none) (hh : Heard h bs t) :
    Prog.Ensures Slot.exec (calm p)
      (fun _ u => Dispatched h r.p.header r.p.payload.live bs u ∧ Rested t.wire.recvs u)
      dispatchPayload t := by
  refine dispatchPayload_spec (fun r' hr' => ?_) trivial (fun _ => trivial) (fun r' hr' _ => ?_)
    (.inr ⟨ht.usable, r, hr⟩)
  · rw [← Data.request.inj (hr.symm.trans hr')]
    exact hout
  · obtain rfl := Data.request.inj (hr.symm.trans hr')
    have hlive : (t.dispatching r).Live := ht.congr rfl ⟨rfl, rfl, rfl⟩ List.suffix_rfl
    exact ⟨⟨trivial, fun _ _ _ _ => trivial, fun _ _ _ => trivial⟩,
      sends_rested hlive rfl hcap (hh.dispatching r)⟩

/-- What is between the cursors of `b` is appended to the payload, and the packet is dispatched. -/
lemma takePayload_dispatched {p : Prop} (ht : t.Live) (hr : t.conn.data = .request r)
    (hb : t.conn.buffer = some b) (hcap : b.cap = adbMaxPacketSize) (hout : r.out = none)
    (hp : r.p.payload.Ok) (hh : Heard h bs t)
    (hf : p ∨ b.Ok ∧ 2 * (bufSize r.p.payload + bufSize b) < 2^32) :
    Prog.Ensures Slot.exec (calm p)
      (fun _ u => (∃ payload, Copied t r b payload ∧ Dispatched h r.p.header payload.live bs u) ∧
        Rested t.wire.recvs u) takePayload t := by
  refine .bind (adbParseAdbPayload_rule (κ := calm p) trivial hr hb hp
    (hf.imp_right fun hf => ⟨ht.usable, hf⟩) (fun _ => settled_calm) (fun _ _ _ _ _ => trivial)
    fun payload y hc hq _ => ⟨trivial, ?_⟩)
  have hlog : Heard h bs (t.appending b) := by
    obtain ⟨new, hnew, hd, ha⟩ := hh
    refine ⟨new ++ [.append b.pos b.last (sizeT (bufSize b))], ?_, ?_, ?_⟩
    · show t.wire.history ++ _ = _
      rw [hnew, List.append_assoc]
    · rw [dispatches_append, hd]
      rfl
    · rw [arrived_append, ha]
      exact List.append_nil _
  have hlive : ((t.appending b).withRequest (r.withPayload payload)).Live :=
    ht.congr rfl ⟨rfl, rfl, rfl⟩ List.suffix_rfl
  have hy : y.Live := hlive.quiet hq
  have hheard : Heard h bs ((t.appending b).withRequest (r.withPayload payload)) := hlog
  have hdata : y.conn.data = .request (r.withPayload payload) := by
    rw [hq.conn]
    rfl
  have hheard' : Heard h bs y := hheard.quiet hq
  have hdone : Heard h bs (y.withBuffer { b with pos := b.pos + r.p.header.dlen.toNat }) := hheard'
  refine (dispatchPayload_dispatched (p := p) (hy.withBuffer _) (fun b' hb' => ?_) hdata hout
    hdone).mono fun _ u ⟨hu, hres⟩ => ⟨⟨payload, hc, hu⟩, ?_⟩
  · rw [← Option.some.inj hb']
    exact hcap
  · have hrecvs : y.wire.recvs = t.wire.recvs := hq.recvs
    rw [← hrecvs]
    exact hres

/-! ## What is still to come -/

def RecvResult.data : RecvResult → List UInt8
  | .bytes bs => bs
  | _ => []

def pending (ks : List RecvResult) : List UInt8 := ks.flatMap RecvResult.data

/-- Results that would block or bring bytes, and all bytes fit behind the first `n`. -/
structure Supply (n : ℕ) (ks : List RecvResult) : Prop where
  kinds : ∀ k ∈ ks, k = .again ∨ ∃ c, 0 < c.length ∧ k = .bytes c
  fits : n + (pending ks).length ≤ adbMaxPacketSize

lemma Supply.cases {n : ℕ} (hs : Supply n ks) :
    (∃ ks', (ks = .again :: ks' ∨ ks = [] ∧ ks' = []) ∧ pending ks' = pending ks ∧ Supply n ks') ∨
      ∃ c ks', ks = .bytes c :: ks' ∧ 0 < c.length ∧ n + c.length ≤ adbMaxPacketSize ∧
        pending ks = c ++ pending ks' ∧ Supply (n + c.length) ks' := by
  cases ks with
  | nil => exact .inl ⟨[], .inr ⟨rfl, rfl⟩, rfl, hs⟩
  | cons k ks =>
    have hfits := hs.fits
    have hkinds : ∀ k ∈ ks, k = .again ∨ ∃ c, 0 < c.length ∧ k = .bytes c := fun k hk =>
      hs.kinds k (List.mem_cons_of_mem _ hk)
    rcases hs.kinds k List.mem_cons_self with rfl | ⟨c, hc, rfl⟩
    · exact .inl ⟨ks, .inl rfl, rfl, hkinds, hfits⟩
    · have hp : pending (.bytes c :: ks) = c ++ pending ks := rfl
      rw [hp, List.length_append] at hfits
      exact .inr ⟨c, ks, rfl, hc, by omega, hp, hkinds, by omega⟩

section
variable {n k : ℕ} {rev : Event}

lemma Supply.blocked (hs : Supply n t.wire.recvs) (hwin : b.window = adbMaxPacketSize - n)
    (hn : (t.taken b).n = xdbdAgain) :
    ∃ ks', t.Blocks ks' ∧ t.taken b = ⟨{ t.read with ready := false }, xdbdAgain, [], ks'⟩ := by
  rcases hs.cases with ⟨ks', hks, -, -⟩ | ⟨c, ks', hks, hc, hfit, -, -⟩
  · exact ⟨ks', hks, Slot.Blocks.taken (s := t) hks b⟩
  · rw [Slot.taken_bytes (s := t) hks hc (by omega)] at hn
    exact absurd hn count_ne_again

lemma Supply.brought (hs : Supply n t.wire.recvs) (hwin : b.window = adbMaxPacketSize - n)
    (hpos : 0 < (t.taken b).bytes.length) :
    ∃ c ks', t.wire.recvs = .bytes c :: ks' ∧ t.taken b = ⟨t.read, c.length, c, ks'⟩ ∧
      n + c.length ≤ adbMaxPacketSize ∧ Supply (n + c.length) ks' := by
  rcases hs.cases with ⟨ks', hks, -, -⟩ | ⟨c, ks', hks, hc, hfit, -, hsup⟩
  · rw [Slot.Blocks.taken (s := t) hks b] at hpos
    cases hpos
  · exact ⟨c, ks', hks, Slot.taken_bytes (s := t) hks hc (by omega), hfit, hsup⟩

lemma Supply.not_failed (hs : Supply n t.wire.recvs) (hwin : b.window = adbMaxPacketSize - n) :
    ¬ ((t.taken b).n = 0 ∨ (t.taken b).n = xdbdErr) := by
  rcases hs.cases with ⟨ks', hks, -, -⟩ | ⟨c, ks', hks, hc, hfit, -, -⟩
  · rw [Slot.Blocks.taken (s := t) hks b]
    exact again_not_failed
  · rw [Slot.taken_bytes (s := t) hks hc (by omega)]
    exact count_not_failed hc

lemma Heard.advanced (hh : Heard h bs t) (htaken : t.taken b = ⟨rev, c.length, c, ks⟩) :
    Heard h (bs ++ c) (t.advanced b) := by
  have := hh.fetched b
  rw [htaken] at this
  exact this

lemma Buf.Holds.advanced (hb : b.Holds bs k) (htaken : t.taken b = ⟨rev, c.length, c, ks⟩)
    (hfit : bs.length + c.length ≤ adbMaxPacketSize) :
    (b.advance (t.taken b).bytes (t.taken b).n).Holds (bs ++ c) k := by
  rw [htaken]
  exact hb.advance hfit

lemma Slot.advanced_recvs (htaken : t.taken b = ⟨rev, c.length, c, ks⟩) :
    (t.advanced b).wire.recvs = ks := congrArg Received.rest htaken

end

/-! ## A packet in parts -/

/-- Fewer than 24 bytes of a packet, `bs`, were received. -/
structure Gathered (h : List Obs) (bs : List UInt8) (ks : List RecvResult) (t : Slot) : Prop where
  live : t.Live
  handler : t.read.handler = some (.adb .adbProcessAdbHeader)
  held : ∃ b m, t.conn.buffer = some b ∧ b.Holds bs 0 ∧ t.conn.data = .request (.fresh m)
  short : bs.length < headerSize
  heard : Heard h bs t
  recvs : t.wire.recvs = ks

/-- The header `hdr` was received and the payload is not complete, and `last` is so far behind that
at most `n` bytes lie between the cursors. -/
structure Lagging (h : List Obs) (hdr : Header) (n : ℤ) (ks : List RecvResult) (t : Slot) :
    Prop where
  live : t.Live
  handler : t.read.handler = some (.adb .adbProcessAdbPayload)
  held : ∃ b r, t.conn.buffer = some b ∧ b.cap = adbMaxPacketSize ∧ b.pos = headerSize ∧
    bufSize b ≤ n ∧ t.conn.data = .request r ∧ r.h = hdr ∧ r.p.header = hdr ∧ r.out = none ∧
      r.p.payload.Ok ∧ r.p.payload.live = []
  some : 0 < hdr.dlen.toNat
  heard : ∃ bs, Heard h bs t
  recvs : t.wire.recvs = ks

/-- The packet was dispatched with the payload `payload` when `bs` had arrived. -/
structure Delivered (h : List Obs) (hdr : Header) (payload bs : List UInt8) (ks : List RecvResult)
    (t : Slot) : Prop where
  dispatched : Dispatched h hdr payload bs t
  rested : Rested ks t

/-- What becomes of a packet whose header `hdr` was read from the first of the bytes `bs`: it is
complete, or the next result completes it for the daemon, or that result would block. -/
inductive Opened (h : List Obs) (hdr : Header) (bs : List UInt8) (ks : List RecvResult) (t : Slot) :
    Prop
  | whole (enough : headerSize + hdr.dlen.toNat ≤ bs.length)
    (delivered : Delivered h hdr (bs.drop headerSize) bs ks t) : Opened h hdr bs ks t
  | joined {c : List UInt8} {ks' : List RecvResult} (recvs : ks = .bytes c :: ks')
    (short : bs.length < headerSize + hdr.dlen.toNat)
    (delivered : Delivered h hdr ((bs ++ c).drop headerSize) (bs ++ c) ks' t) : Opened h hdr bs ks t
  | lagging {ks' : List RecvResult} (recvs : ks = .again :: ks' ∨ ks = [] ∧ ks' = [])
    (short : bs.length < headerSize + hdr.dlen.toNat)
    (lags : Lagging h hdr (bs.length - headerSize - 2) ks' t) : Opened h hdr bs ks t

lemma Request.fresh_ok (m : Mem) : (Request.fresh m).p.payload.Ok :=
  Buf.ok_of_new (by norm_num [adbMaxPacketSize])

lemma Buf.Holds.fetchable {k : ℕ} (hb : b.Holds bs k) (hs : s.Usable) : Fetchable s b :=
  .of_cursors hs (hb.ok.pos.trans hb.ok.size) hb.ok.last hb.ok.cap

lemma Buf.Holds.gathering {k : ℕ} (hb : b.Holds bs k) (ht : t.Live) (hready : t.read.ready = true)
    (hr : t.conn.data = .request r) (hbuf : t.conn.buffer = some b) : Gathering t r b where
  active := ht.active
  ready := hready
  data := hr
  buffer := hbuf
  cap := hb.ok.cap
  size := by
    have := hb.ok.bufSize_le
    have := hb.ok.cap
    omega

lemma takePayload_delivered (ht : t.Live) {m : Mem} {hdr : Header}
    (hr : t.conn.data = .request ((Request.fresh m).withHeader hdr)) (hbuf : t.conn.buffer = some b)
    (hb : b.Holds bs headerSize) (hh : Heard h bs t) :
    Prog.Ensures Slot.exec (calm False)
      (fun _ u => Delivered h hdr (bs.drop headerSize) bs t.wire.recvs u) takePayload t := by
  have hle := hb.ok.bufSize_le
  have hcap := hb.cap
  have hzero : bufSize ((Request.fresh m).withHeader hdr).p.payload = 0 := rfl
  have hmax : adbMaxPacketSize = 2^20 := rfl
  refine (takePayload_dispatched (p := False) ht hr hbuf hb.cap rfl (Request.fresh_ok m) hh
    (.inr ⟨hb.ok, by omega⟩)).mono fun _ u ⟨⟨payload, hc, hd⟩, hrest⟩ => ⟨?_, hrest⟩
  have hlive : payload.live = bs.drop headerSize := by
    have hsize := hb.ok.sizeT
    rcases hc.live with hl | ⟨-, hn⟩
    · rw [hl, hb.appended]
      rfl
    · exact absurd ⟨ht.usable.allocs, by omega⟩ hn
  rw [← hlive]
  exact hd

lemma processPayload_opened (ht : t.Live) (hready : t.read.ready = true)
    (hhd : t.read.handler = some (.adb .adbProcessAdbPayload)) {m : Mem} {hdr : Header}
    (hr : t.conn.data = .request ((Request.fresh m).withHeader hdr)) (hbuf : t.conn.buffer = some b)
    (hb : b.Holds bs headerSize) (hh : Heard h bs t) (hs : Supply bs.length t.wire.recvs) :
    Prog.Ensures Slot.exec (calm False) (fun _ => Opened h hdr bs t.wire.recvs)
      adbProcessAdbPayload t := by
  have hle := hb.le
  have hsize := hb.bufSize
  have hwin := hb.window
  have hg := hb.gathering ht hready hr hbuf
  have hdl : ((Request.fresh m).withHeader hdr).h.dlen = hdr.dlen := rfl
  refine processPayload_rule hg trivial (.inr (hb.fetchable ht.usable))
    (fun hto => absurd hto (by simp [ht.timeout])) (fun henough => ?_) (fun _ _ => trivial)
    (fun _ h0 => absurd h0 (hs.not_failed hwin)) (fun hlt hn _ => ⟨trivial, ?_⟩)
    fun hlt _ hpos _ _ => ⟨trivial, ?_⟩
  · refine (takePayload_delivered ht hr hbuf hb hh).mono fun _ u hu => .whole ?_ hu
    rw [hdl] at henough
    omega
  · obtain ⟨ks', hks, htaken⟩ := hs.blocked hwin hn
    rw [hdl] at hlt
    refine .lagging hks (by omega) ⟨(ht.fetched b).withBuffer _, (t.fetched_handler b).trans hhd,
      ⟨_, _, rfl, hb.cap, hb.pos, ?_, hr, rfl, rfl, rfl, Request.fresh_ok m, rfl⟩, by omega,
      ⟨_, hh.fetched b⟩, congrArg Received.rest htaken⟩
    rw [hn]
    show b.last + xdbdAgain - b.pos ≤ _
    rw [hb.last, hb.pos, xdbdAgain]
    omega
  · obtain ⟨c, ks', hks, htaken, hfit, -⟩ := hs.brought hwin hpos
    rw [hdl] at hlt
    refine (takePayload_delivered ((ht.fetched b).withBuffer _) hr rfl (hb.advanced htaken hfit)
      (hh.advanced htaken)).mono fun _ u hu => .joined hks (by omega) ?_
    rw [← Slot.advanced_recvs htaken]
    exact hu

/-- The header in the first 24 of the bytes `bs`. -/
def headerOf (bs : List UInt8) : Header := Header.ofBytes (bs.take headerSize)

/-- What becomes of the bytes `bs` of a packet when its header is looked for. -/
inductive Headed (h : List Obs) (bs : List UInt8) (ks : List RecvResult) (t : Slot) : Prop
  | short (gathered : Gathered h bs ks t) : Headed h bs ks t
  | opened (long : headerSize ≤ bs.length) (opened : Opened h (headerOf bs) bs ks t) :
    Headed h bs ks t

/-- The bytes `bs` of a packet are in the buffer `b`, and a read event of it is served. -/
structure Filling (h : List Obs) (bs : List UInt8) (b : Buf) (m : Mem) (t : Slot) : Prop where
  live : t.Live
  ready : t.read.ready = true
  handler : t.read.handler = some (.adb .adbProcessAdbHeader)
  buffer : t.conn.buffer = some b
  holds : b.Holds bs 0
  data : t.conn.data = .request (.fresh m)
  heard : Heard h bs t
  supply : Supply bs.length t.wire.recvs

lemma takeHeader_headed {m : Mem} (ht : Filling h bs b m t) :
    Prog.Ensures Slot.exec (calm False) (fun _ => Headed h bs t.wire.recvs) takeHeader t := by
  have hsize := ht.holds.sizeT
  refine takeHeader_rule ht.data ht.buffer trivial (.inr ht.live.usable)
    (fun hlt => .short ⟨ht.live, ht.handler, ⟨b, m, ht.buffer, ht.holds, ht.data⟩, by omega,
      ht.heard,
      rfl⟩) (fun _ _ => trivial) fun hle _ => ⟨trivial, fun _ => ?_⟩
  have hlen : headerSize ≤ bs.length := by omega
  have hhdr : b.header = headerOf bs := ht.holds.header hlen
  have hskip := ht.holds.skip (k := headerSize) (by omega)
  rw [Nat.zero_add] at hskip
  refine (processPayload_opened (t := (t.headed (.fresh m) b).handledBy .adbProcessAdbPayload)
    (h := h) (m := m) ?_ ht.ready rfl ?_ rfl hskip ht.heard ht.supply).mono
      fun _ u hu => .opened hlen hu
  · exact ht.live.congr rfl ⟨rfl, rfl, rfl⟩ List.suffix_rfl
  · rw [← hhdr]
    rfl

/-- The next result of `c->recv` and what comes of it, while fewer than 24 bytes are there. -/
inductive Continued (h : List Obs) (bs : List UInt8) (ks : List RecvResult) (t : Slot) : Prop
  | blocked {ks' : List RecvResult} (recvs : ks = .again :: ks' ∨ ks = [] ∧ ks' = [])
    (gathered : Gathered h bs ks' t) : Continued h bs ks t
  | filled {c : List UInt8} {ks' : List RecvResult} (recvs : ks = .bytes c :: ks')
    (headed : Headed h (bs ++ c) ks' t) : Continued h bs ks t

lemma processHeader_continued {m : Mem} (ht : Filling h bs b m t) :
    Prog.Ensures Slot.exec (calm False)
      (fun _ u => headerSize ≤ bs.length ∧ Headed h bs t.wire.recvs u ∨
        bs.length < headerSize ∧ Continued h bs t.wire.recvs u) adbProcessAdbHeader t := by
  have hsize := ht.holds.sizeT
  have hwin := ht.holds.window
  have hg := ht.holds.gathering ht.live ht.ready ht.data ht.buffer
  have hpos := ht.holds.ok.bufSize_nonneg
  have henough : headerSize ≤ sizeT (bufSize b) → Prog.Ensures Slot.exec (calm False)
      (fun _ u => headerSize ≤ bs.length ∧ Headed h bs t.wire.recvs u ∨
        bs.length < headerSize ∧ Continued h bs t.wire.recvs u) takeHeader t := fun hle =>
    (takeHeader_headed ht).mono fun _ u hu => .inl ⟨by omega, hu⟩
  refine processHeader_rule hg hpos trivial (.inr (ht.holds.fetchable ht.live.usable))
    (fun hto => absurd hto (by simp [ht.live.timeout])) henough (fun _ _ => trivial)
    (fun hlt hn _ => ?_) (fun _ h0 => absurd h0 (ht.supply.not_failed hwin))
    fun hlt _ hlen _ _ => ⟨trivial, ?_⟩
  · obtain ⟨ks', hks, htaken⟩ := ht.supply.blocked hwin hn
    refine .inr ⟨by omega, .blocked hks ⟨ht.live.fetched b,
      (t.fetched_handler b).trans ht.handler, ⟨b, m, ?_, ht.holds, ht.data⟩, by omega, ?_,
        congrArg Received.rest htaken⟩⟩
    · show some { b with mem := Block.write b.mem _ (t.taken b).bytes } = _
      rw [htaken, Block.write_nil]
    · have := ht.heard.fetched b
      rw [htaken, List.append_nil] at this
      exact this
  · obtain ⟨c, ks', hks, htaken, hfit, hsup⟩ := ht.supply.brought hwin hlen
    have hread := Slot.advanced_read hlen
    have hrecvs : (t.advanced b).wire.recvs = ks' := Slot.advanced_recvs htaken
    have hfill : Filling h (bs ++ c) (b.advance (t.taken b).bytes (t.taken b).n) m (t.advanced b) :=
      ⟨(ht.live.fetched b).withBuffer _, by rw [hread]; exact ht.ready,
        by rw [hread]; exact ht.handler, rfl, ht.holds.advanced htaken hfit, ht.data,
        ht.heard.advanced htaken, by
          rw [hrecvs, List.length_append]
          exact hsup⟩
    refine (takeHeader_headed hfill).mono fun _ u hu => .inr ⟨by omega, .filled hks ?_⟩
    rw [← hrecvs]
    exact hu

/-! ## The start of a packet -/

/-- What a read event does to a connection that waits: nothing, or it starts a packet. -/
inductive Awaited (h : List Obs) (ks : List RecvResult) (t : Slot) : Prop
  | blocked {ks' : List RecvResult} (recvs : ks = .again :: ks' ∨ ks = [] ∧ ks' = [])
    (waits : t.Waits) (rest : t.wire.recvs = ks') (heard : Heard h [] t) : Awaited h ks t
  | started {c : List UInt8} {ks' : List RecvResult} (recvs : ks = .bytes c :: ks')
    (result : headerSize ≤ c.length ∧ Headed h c ks' t ∨ c.length < headerSize ∧
    Continued h c ks' t) :
    Awaited h ks t

lemma receiveApacket_awaited (ht : t.Live) (hready : t.read.ready = true)
    (hhd : t.read.handler = some (.adb .adbWaitApacketHandler)) (hbuf : t.conn.buffer = some b)
    (hb : b.Holds [] 0) (hh : Heard h [] t) (hs : Supply 0 t.wire.recvs) :
    Prog.Ensures Slot.exec (calm False) (fun _ => Awaited h t.wire.recvs) (receiveApacket b) t := by
  have hwin := hb.window
  have hlast : b.last = 0 := hb.last
  have hsucc : (t.advanced b).AllocsSucceed := ht.usable.allocs
  refine receiveApacket_rule (κ := calm False) trivial hbuf hlast hb.ok.cap ht.active
    (.inr ht.usable) (fun _ => trivial) (fun _ hn => ?_)
    (fun h0 => absurd h0 (hs.not_failed hwin)) (fun _ _ _ => settled_calm)
    (fun u hu => absurd (hu.succeeds hsucc) Bool.false_ne_true)
    fun u m hu hlen _ _ => ⟨trivial, fun _ => ?_⟩
  · obtain ⟨ks', hks, htaken⟩ := hs.blocked hwin hn
    refine .blocked hks ⟨ht.fetched b, (t.fetched_handler b).trans hhd, fun b' hb' => ?_⟩
      (congrArg Received.rest htaken) ?_
    · rw [← Option.some.inj hb']
      exact hb.cap
    · have := hh.fetched b
      rw [htaken] at this
      exact this
  · obtain ⟨c, ks', hks, htaken, hfit, hsup⟩ := hs.brought hwin hlen
    have hread : u.read = t.read := hu.quiet.read.trans (Slot.advanced_read hlen)
    have hrecvs : u.wire.recvs = ks' := hu.quiet.recvs.trans (Slot.advanced_recvs htaken)
    have hlive : u.Live := ((ht.fetched b).withBuffer _).quiet hu.quiet
    have hheard : Heard h c u := (hh.advanced htaken).quiet hu.quiet
    have hfill : Filling h c (b.advance (t.taken b).bytes (t.taken b).n) m
        ((u.withRequest (.fresh m)).handledBy .adbProcessAdbHeader) := by
      refine ⟨(hlive.withRequest _).handledBy _, ?_, rfl, ?_, hb.advanced htaken ?_, rfl, hheard,
        ?_⟩
      · show u.read.ready = true
        rw [hread]
        exact hready
      · show u.conn.buffer = _
        rw [hu.quiet.conn]
        rfl
      · rw [List.length_nil]
        exact hfit
      · show Supply c.length u.wire.recvs
        rw [hrecvs, ← Nat.zero_add c.length]
        exact hsup
    refine (processHeader_continued hfill).mono fun _ v hv => .started hks ?_
    have hrest : ((u.withRequest (.fresh m)).handledBy .adbProcessAdbHeader).wire.recvs = ks' :=
      hrecvs
    rwa [hrest] at hv

lemma waitApacketHandler_awaited (ht : t.Waits) (hready : t.read.ready = true) (hh : Heard h [] t)
    (hs : Supply 0 t.wire.recvs) :
    Prog.Ensures Slot.exec (calm False) (fun _ => Awaited h t.wire.recvs) adbWaitApacketHandler
    t := by
  refine waitApacketHandler_rule settled_calm (.inr ht.live.usable.alive) (fun b hb _ => ?_)
    (fun u _ hu => ?_) fun u m _ hu _ => ⟨trivial, ?_⟩
  · exact receiveApacket_awaited (t := t.withBuffer (resetBuf b)) (ht.live.withBuffer _) hready
      ht.handler rfl (Buf.holds_nil (ht.cap b hb)) hh hs
  · exact absurd (hu.succeeds ht.live.usable.allocs) Bool.false_ne_true
  · have hlive : u.Live := ht.live.quiet hu.quiet
    have hread : u.read = t.read := hu.quiet.read
    have hrecvs : u.wire.recvs = t.wire.recvs := hu.quiet.recvs
    have hheard : Heard h [] u := hh.quiet hu.quiet
    have hnew : Buf.Holds ⟨m, adbMaxPacketSize, 0, 0⟩ [] 0 :=
      ⟨rfl, rfl, rfl, le_rfl, Nat.zero_le _, rfl⟩
    have := receiveApacket_awaited (t := u.withBuffer ⟨m, adbMaxPacketSize, 0, 0⟩)
      (hlive.withBuffer _) (by rw [← hready, ← hread]; rfl) (by rw [← ht.handler, ← hread]; rfl) rfl
        hnew
        hheard (by rw [show (u.withBuffer _).wire.recvs = t.wire.recvs from hrecvs]; exact hs)
    rwa [show (u.withBuffer _).wire.recvs = t.wire.recvs from hrecvs] at this

/-! ## The events -/

lemma Slot.readEvent_eq (hi : s.read.index ≠ none) {hd : AdbHandler}
    (hhd : s.read.handler = some (.adb hd)) :
    s.readEvent = (Prog.run Slot.exec (code hd) s.readied).map Prod.snd := by
  unfold Slot.readEvent
  rw [if_neg hi, hhd]

lemma Slot.readEvent_outcome {p : Prop} {Q : Slot → Prop} (hi : s.read.index ≠ none)
    {hd : AdbHandler} (hhd : s.read.handler = some (.adb hd))
    (hp : Prog.Ensures Slot.exec (calm p) (fun _ => Q) (code hd) s.readied) :
    (∃ t, s.readEvent = .ok t ∧ Q t) ∨ p ∧ ∃ e, s.readEvent = .error e := by
  rw [Slot.readEvent_eq hi hhd]
  rcases hp.outcome fun _ => trivial with ⟨a, t, hrun, hq⟩ | ⟨hf, e, hrun⟩ <;> rw [hrun]
  · exact .inl ⟨t, rfl, hq⟩
  · exact .inr ⟨hf, e, rfl⟩

lemma Slot.Waits.readEvent (hw : s.Waits) (hh : Heard h [] s) (hs : Supply 0 s.wire.recvs) :
    ∃ t, s.readEvent = .ok t ∧ Awaited h s.wire.recvs t :=
  (Slot.readEvent_outcome hw.live.index hw.handler (waitApacketHandler_awaited
    ⟨hw.live.readied, hw.handler, hw.cap⟩ rfl hh hs)).resolve_right fun hn => hn.1

lemma Gathered.readEvent (hg : Gathered h bs ks s) (hs : Supply bs.length ks) :
    ∃ t, s.readEvent = .ok t ∧ Continued h bs ks t := by
  obtain ⟨b, m, hbuf, hb, hdata⟩ := hg.held
  have hrecvs := hg.recvs
  have hfill : Filling h bs b m s.readied :=
    ⟨hg.live.readied, rfl, hg.handler, hbuf, hb, hdata, hg.heard, by
      show Supply bs.length s.wire.recvs
      rw [hrecvs]
      exact hs⟩
  obtain ⟨t, ht, hres⟩ := (Slot.readEvent_outcome hg.live.index hg.handler
    (processHeader_continued hfill)).resolve_right fun hn => hn.1
  have hshort := hg.short
  rcases hres with ⟨hlen, -⟩ | ⟨-, hres⟩
  · omega
  · rw [show s.readied.wire.recvs = ks from hrecvs] at hres
    exact ⟨t, ht, hres⟩

lemma Delivered.readEvent {hdr : Header} {payload : List UInt8}
    (hd : Delivered h hdr payload bs ks s) (hs : ∀ k ∈ ks, k = .again) :
    ∃ t ks', s.readEvent = .ok t ∧ Delivered h hdr payload bs ks' t ∧ ∀ k ∈ ks', k = .again := by
  have hrecvs := hd.rested.recvs
  by_cases hi : s.read.index = none
  · exact ⟨s, ks, by rw [Slot.readEvent, if_pos hi], hd, hs⟩
  · rcases hd.rested.rests with hn | hblock | hw
    · exact absurd hn hi
    · -- reading is blocked: the event is taken out of the registry
      obtain ⟨t, ht, hq⟩ := (@Slot.readEvent_outcome s False (Delivered h hdr payload bs ks) hi _
        hblock (by
          refine readEvent_rule trivial ?_
          split_ifs
          · have hdel : s.readied.delRead =
                (.ok, { s with read := { s.read with ready := true, index := none } }) := if_neg hi
            refine delReadEvent_rule trivial fun _ => ?_
            rw [hdel]
            exact .pure trivial ⟨hd.dispatched.grow (List.append_nil _).symm rfl, hrecvs, .inl rfl⟩
          · exact .pure trivial ⟨hd.dispatched.grow (List.append_nil _).symm rfl, hrecvs,
              .inr (.inl hblock)⟩)).resolve_right fun hn => hn.1
      exact ⟨t, ks, ht, hq, hs⟩
    · have hpend : pending ks = [] := List.flatMap_eq_nil_iff.mpr fun k hk => by
        rw [hs k hk]
        rfl
      have hsup : Supply 0 s.wire.recvs := by
        rw [hrecvs]
        exact ⟨fun k hk => .inl (hs k hk), by rw [hpend]; exact Nat.zero_le _⟩
      obtain ⟨t, ht, hres⟩ := hw.readEvent (h := s.wire.history)
        ⟨[], (List.append_nil _).symm, rfl, rfl⟩ hsup
      rw [hrecvs] at hres
      cases hres with
      | @blocked ks' hks hwt hrest hh =>
        obtain ⟨new, hnew, hn, -⟩ := hh
        refine ⟨t, ks', ht, ⟨hd.dispatched.grow hnew hn, hrest, .inr (.inr hwt)⟩, fun k hk => ?_⟩
        rcases hks with rfl | ⟨-, rfl⟩
        · exact hs k (List.mem_cons_of_mem _ hk)
        · cases hk
      | started hks _ =>
        have := hs _ (hks ▸ List.mem_cons_self)
        cases this

end Xdbd
