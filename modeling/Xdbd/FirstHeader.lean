import Xdbd.OnePacket
import Xdbd.Insertions

/-!
# The first header

A connection waits, and any bytes come in any parts. Until 24 of them are there nothing is made of
them; then the payload handler is entered with the header that they hold.
-/
namespace Xdbd
open Interaction Code

variable {s t u : Slot} {b : Buf} {bs : List UInt8} {m : Mem}

/-- The states that a connection passes through in a read event. -/
def Slot.eventStates (s : Slot) : List Slot :=
  if s.read.index = none then []
  else
    match s.read.handler with
    | some (.adb hd) => Prog.states Slot.exec (code hd) s.readied
    | _ => []

/-- The states that it passes through in `n` read events. -/
def Slot.passed : ℕ → Slot → List Slot
  | 0, s => [s]
  | n + 1, s =>
    s :: (s.eventStates ++
      match s.readEvent with
      | .ok t => Slot.passed n t
      | .error _ => [])

def Slot.since (s t : Slot) : List UInt8 := arrived (t.wire.history.drop s.wire.history.length)

/-- `n` bytes from the start of the receive buffer on. -/
def Slot.stored (s : Slot) (n : ℕ) : List UInt8 :=
  match s.conn.buffer with
  | some b => Block.read b.mem 0 n
  | none => []

/-- `xdbd_adb_process_adb_payload` is called as soon as it is set as the handler. -/
def Slot.entered (s : Slot) : Bool := s.read.handler = some (.adb .adbProcessAdbPayload)

/-- An open connection that waits for a packet. Allocations may fail. -/
structure Slot.Waiting (s : Slot) : Prop where
  opened : s.Open
  timeout : s.read.timeout = false
  index : s.read.index ≠ none
  handler : s.read.handler = some (.adb .adbWaitApacketHandler)
  cap : ∀ b, s.conn.buffer = some b → b.cap = adbMaxPacketSize

/-- Too few bytes have arrived since `s` for a header: none was parsed, and the bytes are in order
at the start of the buffer, as long as the connection is open. Only a failed allocation closes
it. -/
structure Incomplete (s t : Slot) : Prop where
  outside : t.entered = false
  stream : s.since t <+: pending s.wire.recvs
  unparsed : ∀ r, t.conn.data = .request r →
    s.conn.data = .request r ∨ r.h = Header.zero ∧ r.p.header = Header.zero
  stored : t.conn.destroyed = false → t.stored (s.since t).length = s.since t
  alive : s.AllocsSucceed → t.conn.destroyed = false

/-- The request has the header that is in the first 24 bytes of the stream, and the other bytes
that have arrived since `s` are between the cursors. -/
structure Parsed (s t : Slot) : Prop where
  enough : headerSize ≤ (s.since t).length
  stream : s.since t <+: pending s.wire.recvs
  held : ∃ r b, t.conn.data = .request r ∧ t.conn.buffer = some b ∧
    r.h = headerOf (pending s.wire.recvs) ∧ r.p.header = headerOf (pending s.wire.recvs) ∧
      b.pos = headerSize ∧ b.last = (s.since t).length ∧ b.live = (s.since t).drop headerSize

/-! ## Up to the entry -/

/-- What a connection owes from `s` on until the payload handler is entered. -/
def owed (s : Slot) : Prog.Contract Slot where
  assume t := t.entered = true → ¬ Parsed s t
  keep t := t.entered = false ∧ ((s.since t).length < headerSize → Incomplete s t)
  fail := ¬ s.AllocsSucceed

/-- The bytes `bs` have arrived since `s`, and the connection is open unless an allocation
failed. -/
structure Arrives (s : Slot) (bs : List UInt8) (t : Slot) : Prop where
  live : s.AllocsSucceed → t.Live
  active : t.read.active = true
  timeout : t.read.timeout = false
  heard : Heard s.wire.history bs t
  kinds : ∀ k ∈ t.wire.recvs, k = .again ∨ ∃ c, 0 < c.length ∧ k = .bytes c
  stream : bs ++ pending t.wire.recvs = pending s.wire.recvs

lemma Heard.since (hh : Heard s.wire.history bs t) : s.since t = bs := by
  obtain ⟨new, hnew, -, ha⟩ := hh
  rw [Slot.since, hnew, List.drop_left, ha]

namespace Arrives

lemma able (ht : Arrives s bs t) : (owed s).fail ∨ t.Usable :=
  (em s.AllocsSucceed).symm.imp_right fun hs => (ht.live hs).usable

lemma stream_prefix (ht : Arrives s bs t) : s.since t <+: pending s.wire.recvs := by
  rw [ht.heard.since]
  exact ⟨_, ht.stream⟩

lemma quiet (ht : Arrives s bs t) (hq : Quiet t u) : Arrives s bs u where
  live hs := (ht.live hs).quiet hq
  active := by rw [hq.read, ht.active]
  timeout := by rw [hq.read, ht.timeout]
  heard := ht.heard.quiet hq
  kinds := by
    rw [hq.recvs]
    exact ht.kinds
  stream := by rw [hq.recvs, ht.stream]

lemma fetched (ht : Arrives s bs t) (b : Buf) :
    Arrives s (bs ++ (t.taken b).bytes) (t.fetched b) := by
  obtain ⟨hpend, hkinds⟩ := Slot.taken_pending ht.kinds rfl b
  have htimeout : (t.fetched b).read.timeout = t.read.timeout := by
    show (unixRecv t.read b.window t.wire.recvs).rev.timeout = _
    rw [unixRecv_rev]
  refine ⟨fun hs => (ht.live hs).fetched b, (Slot.fetched_active b).trans ht.active,
    htimeout.trans ht.timeout, ht.heard.fetched b, hkinds, ?_⟩
  rw [← ht.stream, hpend, List.append_assoc]
  rfl

lemma withBuffer (ht : Arrives s bs t) (b : Buf) : Arrives s bs (t.withBuffer b) :=
  ⟨fun hs => (ht.live hs).withBuffer b, ht.active, ht.timeout, ht.heard, ht.kinds, ht.stream⟩

lemma withRequest (ht : Arrives s bs t) (r : Request) : Arrives s bs (t.withRequest r) :=
  ⟨fun hs => (ht.live hs).withRequest r, ht.active, ht.timeout, ht.heard, ht.kinds, ht.stream⟩

lemma handledBy (ht : Arrives s bs t) (hd : AdbHandler) : Arrives s bs (t.handledBy hd) :=
  ⟨fun hs => (ht.live hs).handledBy hd, ht.active, ht.timeout, ht.heard, ht.kinds, ht.stream⟩

lemma readied (ht : Arrives s bs t) : Arrives s bs t.readied :=
  ⟨fun hs => (ht.live hs).readied, ht.active, ht.timeout, ht.heard, ht.kinds, ht.stream⟩

end Arrives

lemma Slot.stored_of_holds {k : ℕ} (hbuf : t.conn.buffer = some b) (hb : b.Holds bs k) :
    t.stored bs.length = bs := by
  unfold Slot.stored
  rw [hbuf]
  exact hb.bytes

lemma Slot.entered_of_handler {hd : AdbHandler} (hhd : t.read.handler = some (.adb hd))
    (hne : hd ≠ .adbProcessAdbPayload) : t.entered = false := by
  simp [Slot.entered, hhd, hne]

/-- What is owed as long as the bytes `bs` are there. -/
structure Kept (s : Slot) (bs : List UInt8) (t : Slot) : Prop where
  arrives : Arrives s bs t
  outside : t.entered = false
  unparsed : bs.length < headerSize → ∀ r, t.conn.data = .request r →
    s.conn.data = .request r ∨ r.h = Header.zero ∧ r.p.header = Header.zero
  stored : bs.length < headerSize → t.stored bs.length = bs

namespace Kept

lemma keep (ht : Kept s bs t) : (owed s).keep t := by
  have hsince := ht.arrives.heard.since
  refine ⟨ht.outside, fun hlt => ?_⟩
  rw [hsince] at hlt
  refine ⟨ht.outside, ht.arrives.stream_prefix, ht.unparsed hlt, fun _ => ?_, fun hs =>
    (ht.arrives.live hs).usable.alive⟩
  rw [hsince]
  exact ht.stored hlt

lemma assume (ht : Kept s bs t) : (owed s).assume t := fun he => by
  rw [ht.outside] at he
  cases he

lemma quiet (ht : Kept s bs t) (hq : Quiet t u) : Kept s bs u where
  arrives := ht.arrives.quiet hq
  outside := by
    unfold Slot.entered
    rw [hq.read]
    exact ht.outside
  unparsed := by
    rw [hq.conn]
    exact ht.unparsed
  stored := by
    unfold Slot.stored
    rw [hq.conn]
    exact ht.stored

lemma settled (ht : Kept s bs t) : Settled (owed s) t :=
  ⟨ht.assume, fun _ hq _ => (ht.quiet hq).keep⟩

lemma closed (ht : Kept s bs t) (hn : ¬ s.AllocsSucceed) : (owed s).keep t.closed := by
  have hheard : Heard s.wire.history bs t.closed := ht.arrives.heard
  have hout : t.closed.entered = false := ht.outside
  refine ⟨hout, fun _ => ⟨hout, ?_, ?_, ?_, fun hs => absurd hs hn⟩⟩
  · rw [hheard.since]
    exact ⟨_, ht.arrives.stream⟩
  · simp [Slot.closed]
  · simp [Slot.closed]

lemma withBuffer {k : ℕ} (ht : Kept s bs t) (hb : b.Holds bs k) : Kept s bs (t.withBuffer b) :=
  ⟨ht.arrives.withBuffer b, ht.outside, ht.unparsed, fun _ => Slot.stored_of_holds rfl hb⟩

lemma fetched (ht : Kept s bs t) (hb : b.Holds bs 0) :
    Kept s (bs ++ (t.taken b).bytes) (t.fetched b) ∧
      (b.advance (t.taken b).bytes (t.taken b).bytes.length).Holds (bs ++ (t.taken b).bytes) 0 := by
  have hwin := hb.window
  have hfits := hb.fits
  have hlen : (t.taken b).bytes.length ≤ b.window := unixRecv_length t.read b.window t.wire.recvs
  have hb' := hb.advance (c := (t.taken b).bytes) (by omega)
  refine ⟨⟨ht.arrives.fetched b, ?_, fun hlt => ht.unparsed ?_, fun _ => hb'.bytes⟩, hb'⟩
  · unfold Slot.entered
    rw [t.fetched_handler b]
    exact ht.outside
  · rw [List.length_append] at hlt
    omega

end Kept

/-- The bytes `bs` of a packet are in the buffer `b`, and no header was parsed. -/
structure Filled (s : Slot) (bs : List UInt8) (b : Buf) (m : Mem) (t : Slot) : Prop where
  arrives : Arrives s bs t
  handler : t.read.handler = some (.adb .adbProcessAdbHeader)
  buffer : t.conn.buffer = some b
  holds : b.Holds bs 0
  data : t.conn.data = .request (.fresh m)

/-- Where a connection is between two read events until the payload handler is entered. -/
inductive HeaderStage (s t : Slot) : Prop
  | waiting (arrives : Arrives s [] t)
    (handler : t.read.handler = some (.adb .adbWaitApacketHandler))
    (data : t.conn.data = s.conn.data)
    (cap : ∀ b, t.conn.buffer = some b → b.cap = adbMaxPacketSize)
  | filling {bs : List UInt8} {b : Buf} {m : Mem} (filled : Filled s bs b m t)
    (short : bs.length < headerSize)
  | closed (failed : ¬ s.AllocsSucceed) (keep : (owed s).keep t) (index : t.read.index = none)

lemma Arrives.taken (ht : Arrives s bs t) (hwin : 0 < b.window) :
    (t.taken b).n = xdbdAgain ∧ (t.taken b).bytes = [] ∨
      (t.taken b).n = (t.taken b).bytes.length ∧ 0 < (t.taken b).bytes.length := by
  unfold Slot.taken
  cases hks : t.wire.recvs with
  | nil => exact .inl ⟨rfl, rfl⟩
  | cons k ks =>
    rcases ht.kinds k (by simp [hks]) with rfl | ⟨c, hc, rfl⟩
    · exact .inl ⟨rfl, rfl⟩
    · have hpos : 0 < (c.take b.window).length := by
        rw [List.length_take]
        omega
      rw [unixRecv, if_neg hpos.ne']
      exact .inr ⟨rfl, hpos⟩

/-! ## The handlers -/

namespace Filled

lemma kept (ht : Filled s bs b m t) : Kept s bs t where
  arrives := ht.arrives
  outside := Slot.entered_of_handler ht.handler (by decide)
  unparsed _ r hr := by
    obtain rfl := Data.request.inj (ht.data.symm.trans hr)
    exact .inr ⟨rfl, rfl⟩
  stored _ := Slot.stored_of_holds ht.buffer ht.holds

lemma takeHeader (ht : Filled s bs b m t) :
    Prog.Ensures Slot.exec (owed s) (fun _ => HeaderStage s) takeHeader t := by
  have hsize := ht.holds.sizeT
  have hlong : ∀ {u : Slot}, headerSize ≤ sizeT (bufSize b) → Arrives s bs u →
      u.entered = false → (owed s).keep u := fun hle hu hout =>
    (Kept.mk hu hout (fun hlt => by omega) fun hlt => by omega).keep
  refine takeHeader_rule ht.data ht.buffer ht.kept.keep ht.arrives.able
    (fun hlt => .filling ht (by omega))
    (fun hle _ => hlong hle (ht.arrives.withRequest _) ht.kept.outside)
    fun hle _ => ⟨hlong hle ((ht.arrives.withRequest _).withBuffer _) ht.kept.outside, fun hx => ?_⟩
  have hlen : headerSize ≤ bs.length := by omega
  have hheader : b.header = headerOf (pending s.wire.recvs) := by
    rw [ht.holds.header hlen, ← ht.arrives.stream, headerOf, List.take_append_of_le_length hlen]
  have hskip := ht.holds.skip (k := headerSize) (by omega)
  rw [Nat.zero_add] at hskip
  have harr : Arrives s bs ((t.headed (.fresh m) b).handledBy .adbProcessAdbPayload) :=
    ((ht.arrives.withRequest _).withBuffer _).handledBy _
  have hsince := harr.heard.since
  refine absurd ⟨?_, harr.stream_prefix, _, _, rfl, rfl, hheader, hheader, hskip.pos, ?_, ?_⟩
    (hx rfl)
  · rw [hsince]
    exact hlen
  · rw [hsince]
    exact hskip.last
  · rw [hsince]
    exact hskip.live

lemma blocked (ht : Filled s bs b m t) (hn : (t.taken b).bytes = []) :
    Filled s bs b m (t.fetched b) := by
  have harr := ht.arrives.fetched b
  rw [hn, List.append_nil] at harr
  refine ⟨harr, (t.fetched_handler b).trans ht.handler, ?_, ht.holds, ht.data⟩
  show some { b with mem := Block.write b.mem _ (t.taken b).bytes } = _
  rw [hn, Block.write_nil]

lemma processHeader (ht : Filled s bs b m t) (hready : t.read.ready = true) :
    Prog.Ensures Slot.exec (owed s) (fun _ => HeaderStage s) adbProcessAdbHeader t := by
  have hok := ht.holds.ok
  have hle := hok.bufSize_le
  have hcap := hok.cap
  have hsize := ht.holds.sizeT
  have hwin := ht.holds.window
  have hroom : adbMaxPacketSize = 2^20 ∧ headerSize = 24 := ⟨rfl, rfl⟩
  obtain ⟨hkept, hholds⟩ := ht.kept.fetched ht.holds
  refine processHeader_rule ⟨ht.arrives.active, hready, ht.data, ht.buffer, hcap, by omega⟩
    hok.bufSize_nonneg ht.kept.keep (ht.arrives.able.imp_right ht.holds.fetchable)
    (fun hto => absurd hto (by simp [ht.arrives.timeout])) (fun _ => ht.takeHeader)
    (fun _ _ => hkept.keep) (fun hlt hn _ => ?_) (fun hlt h0 => ?_) fun hlt _ hpos hn _ => ?_
  · rcases ht.arrives.taken (b := b) (by omega) with ⟨-, hnil⟩ | ⟨hlen, hpos⟩
    · exact .filling (ht.blocked hnil) (by omega)
    · exact absurd (hlen.symm.trans hn) count_ne_again
  · rcases ht.arrives.taken (b := b) (by omega) with ⟨hn, -⟩ | ⟨hlen, hpos⟩
    · rw [hn] at h0
      exact absurd h0 again_not_failed
    · rw [hlen] at h0
      exact absurd h0 (count_not_failed hpos)
  · have hfill : Filled s (bs ++ (t.taken b).bytes) _ m (t.advanced b) :=
      ⟨hkept.arrives.withBuffer _, (t.fetched_handler b).trans ht.handler, rfl, by rwa [hn],
        ht.data⟩
    exact ⟨hfill.kept.keep, hfill.takeHeader⟩

end Filled

lemma Kept.close (ht : Kept s bs t) (hn : ¬ s.AllocsSucceed) :
    Prog.Ensures Slot.exec (owed s) (fun _ => HeaderStage s) Code.closeConnection t :=
  .of_bind_pure (closeConnection_rule ht.keep (.inl hn) fun _ =>
    .pure (ht.closed hn) (.closed hn (ht.closed hn) (if_pos ht.arrives.active)))

lemma Arrives.failed {κ : Prog.Contract Slot} {k : ℕ} (ht : Arrives s bs t)
    (hu : Allocated κ k t u false) : ¬ s.AllocsSucceed := fun hs =>
  Bool.false_ne_true (hu.succeeds (ht.live hs).usable.allocs)

lemma Arrives.kept (ht : Arrives s [] t)
    (hhd : t.read.handler = some (.adb .adbWaitApacketHandler))
    (hdata : t.conn.data = s.conn.data) :
    Kept s [] t := by
  refine ⟨ht, Slot.entered_of_handler hhd (by decide), fun _ r hr => .inl (hdata.symm.trans hr), ?_⟩
  unfold Slot.stored
  cases t.conn.buffer <;> simp [Block.read]

/-- A connection waits, and the receive buffer `b` is empty. -/
structure Emptied (s : Slot) (b : Buf) (t : Slot) : Prop where
  arrives : Arrives s [] t
  handler : t.read.handler = some (.adb .adbWaitApacketHandler)
  data : t.conn.data = s.conn.data
  buffer : t.conn.buffer = some b
  holds : b.Holds [] 0

namespace Emptied

lemma kept (ht : Emptied s b t) : Kept s [] t := ht.arrives.kept ht.handler ht.data

lemma receiveApacket (ht : Emptied s b t) (hready : t.read.ready = true) :
    Prog.Ensures Slot.exec (owed s) (fun _ => HeaderStage s) (receiveApacket b) t := by
  have hwin := ht.holds.window
  have hroom : adbMaxPacketSize = 2^20 ∧ ([] : List UInt8).length = 0 := ⟨rfl, rfl⟩
  have htaken := ht.arrives.taken (b := b) (by omega)
  obtain ⟨hkept, hholds⟩ := ht.kept.fetched ht.holds
  have hadv : Kept s (t.taken b).bytes (t.advanced b) := by
    rcases htaken with ⟨-, hnil⟩ | ⟨hn, -⟩
    · refine ⟨hkept.arrives.withBuffer _, hkept.outside, hkept.unparsed, fun _ => ?_⟩
      rw [hnil]
      rfl
    · unfold Slot.advanced
      rw [hn]
      exact hkept.withBuffer hholds
  refine receiveApacket_rule ht.kept.keep ht.buffer ht.holds.last ht.holds.ok.cap ht.arrives.active
    ht.arrives.able (fun _ => hkept.keep) (fun _ hn => ?_) (fun h0 => ?_)
    (fun _ _ _ => hadv.settled) (fun u hu => ?_) fun u m hu hpos hn _ => ?_
  · rcases htaken with ⟨-, hnil⟩ | ⟨hlen, hpos⟩
    · have harr := ht.arrives.fetched b
      rw [hnil] at harr
      refine .waiting harr ((t.fetched_handler b).trans ht.handler) ht.data fun b' hb' => ?_
      rw [← Option.some.inj hb']
      exact ht.holds.cap
    · exact absurd (hlen.symm.trans hn) count_ne_again
  · rcases htaken with ⟨hn, -⟩ | ⟨hlen, hpos⟩
    · rw [hn] at h0
      exact absurd h0 again_not_failed
    · rw [hlen] at h0
      exact absurd h0 (count_not_failed hpos)
  · have hn := hadv.arrives.failed hu
    have hu' := hadv.quiet hu.quiet
    have hnull : Kept s (t.taken b).bytes { u with conn := { u.conn with data := .null } } :=
      ⟨⟨fun hs => absurd hs hn, hu'.arrives.active, hu'.arrives.timeout, hu'.arrives.heard,
        hu'.arrives.kinds, hu'.arrives.stream⟩, hu'.outside, by simp, hu'.stored⟩
    exact setData_rule none hu'.keep (.inl hn) fun _ _ => hnull.close hn
  · have hu' := hadv.quiet hu.quiet
    have hread : u.read = t.read := hu.quiet.read.trans (Slot.advanced_read hpos)
    have hbuf : u.conn.buffer = some (b.advance (t.taken b).bytes (t.taken b).n) := by
      rw [hu.quiet.conn]
      rfl
    rw [hn] at hbuf
    have hfresh : Kept s (t.taken b).bytes (u.withRequest (.fresh m)) :=
      ⟨hu'.arrives.withRequest _, hu'.outside, fun _ r hr => ?_, hu'.stored⟩
    · have hfill : Filled s (t.taken b).bytes _ m
          ((u.withRequest (.fresh m)).handledBy .adbProcessAdbHeader) :=
        ⟨hfresh.arrives.handledBy _, rfl, hbuf, hholds, rfl⟩
      refine ⟨hfresh.keep, fun _ => hfill.processHeader ?_⟩
      exact (congrArg Event.ready hread).trans hready
    · obtain rfl := Data.request.inj hr
      exact .inr ⟨rfl, rfl⟩

end Emptied

lemma Arrives.waitApacketHandler (ht : Arrives s [] t) (hready : t.read.ready = true)
    (hhd : t.read.handler = some (.adb .adbWaitApacketHandler)) (hdata : t.conn.data = s.conn.data)
    (hcap : ∀ b, t.conn.buffer = some b → b.cap = adbMaxPacketSize) :
    Prog.Ensures Slot.exec (owed s) (fun _ => HeaderStage s) adbWaitApacketHandler t := by
  have hkept := ht.kept hhd hdata
  refine waitApacketHandler_rule hkept.settled (ht.able.imp_right Slot.Usable.alive)
    (fun b hb _ => ?_)
    (fun u _ hu => (hkept.quiet hu.quiet).close (ht.failed hu)) fun u m _ hu _ => ?_
  · exact Emptied.receiveApacket ⟨ht.withBuffer _, hhd, hdata, rfl, Buf.holds_nil (hcap b hb)⟩
      hready
  · have hnew : Buf.Holds ⟨m, adbMaxPacketSize, 0, 0⟩ [] 0 :=
      ⟨rfl, rfl, rfl, le_rfl, Nat.zero_le _, rfl⟩
    have hempty : Emptied s _ (u.withBuffer ⟨m, adbMaxPacketSize, 0, 0⟩) :=
      ⟨(ht.quiet hu.quiet).withBuffer _, (congrArg Event.handler hu.quiet.read).trans hhd,
        (congrArg Connection.data hu.quiet.conn).trans hdata, rfl, hnew⟩
    exact ⟨hempty.kept.keep, hempty.receiveApacket
      ((congrArg Event.ready hu.quiet.read).trans hready)⟩

/-! ## The events -/

namespace HeaderStage

lemma keep (ht : HeaderStage s t) : (owed s).keep t := by
  cases ht with
  | waiting arrives handler data cap =>
    exact (arrives.kept handler data).keep
  | filling filled short => exact filled.kept.keep
  | closed _ keep _ => exact keep

theorem event (ht : HeaderStage s t) :
    Prog.Until (owed s).keep (fun u => ¬ (owed s).assume u) t.eventStates ∧
      ((∀ u ∈ t.eventStates, (owed s).assume u) → (∃ u, t.readEvent = .ok u ∧ HeaderStage s u) ∨
        ¬ s.AllocsSucceed ∧ ∃ e, t.readEvent = .error e) := by
  by_cases hi : t.read.index = none
  · have hstates : t.eventStates = [] := if_pos hi
    rw [hstates, Slot.readEvent, if_pos hi]
    exact ⟨trivial, fun _ => .inl ⟨t, rfl, ht⟩⟩
  · obtain ⟨hd, hhd, hev⟩ : ∃ hd, t.read.handler = some (.adb hd) ∧
        Prog.Ensures Slot.exec (owed s) (fun _ => HeaderStage s) (code hd) t.readied := by
      cases ht with
      | waiting arrives handler data cap =>
        exact ⟨_, handler, arrives.readied.waitApacketHandler rfl handler data cap⟩
      | filling filled short =>
        have hfill : Filled s _ _ _ t.readied :=
          ⟨filled.arrives.readied, filled.handler, filled.buffer, filled.holds, filled.data⟩
        exact ⟨_, filled.handler, hfill.processHeader rfl⟩
      | closed _ _ index => exact absurd index hi
    have hstates : t.eventStates = Prog.states Slot.exec (code hd) t.readied := by
      unfold Slot.eventStates
      rw [if_neg hi, hhd]
    rw [hstates]
    refine ⟨hev.until, fun ha => ?_⟩
    rw [Slot.readEvent_eq hi hhd]
    rcases hev.completes ha with ⟨a, u, hrun, hu⟩ | ⟨hn, e, hrun⟩ <;> rw [hrun]
    · exact .inl ⟨u, rfl, hu⟩
    · exact .inr ⟨hn, e, rfl⟩

end HeaderStage

lemma Slot.passed_succ (hs : s.readEvent = .ok t) (n : ℕ) :
    s.passed (n + 1) = s :: (s.eventStates ++ t.passed n) := by
  rw [Slot.passed, hs]

lemma Slot.passed_error {e : Fault} (hs : s.readEvent = .error e) (n : ℕ) :
    s.passed (n + 1) = s :: (s.eventStates ++ []) := by
  rw [Slot.passed, hs]

theorem HeaderStage.passed (ht : HeaderStage s t) (n : ℕ) :
    Prog.Until (owed s).keep (fun u => ¬ (owed s).assume u) (t.passed n) ∧
      ((∀ u ∈ t.passed n, (owed s).assume u) → s.AllocsSucceed →
        ∃ u, t.readEvents n = .ok u ∧ HeaderStage s u) := by
  induction n generalizing t with
  | zero => exact ⟨.inr ⟨ht.keep, trivial⟩, fun _ _ => ⟨t, rfl, ht⟩⟩
  | succ n ih =>
    obtain ⟨huntil, hnext⟩ := ht.event
    cases hev : t.readEvent with
    | error e =>
      rw [Slot.passed_error hev]
      refine ⟨.inr ⟨ht.keep, huntil.append fun _ => trivial⟩, fun ha hs => ?_⟩
      rcases hnext fun u hu => ha u (by simp [hu]) with ⟨u, hu, -⟩ | ⟨hn, -⟩
      · rw [hev] at hu
        cases hu
      · exact absurd hs hn
    | ok u =>
      have hstage : (∀ v ∈ t.eventStates, (owed s).assume v) → HeaderStage s u := fun ha => by
        rcases hnext ha with ⟨v, hv, hstage⟩ | ⟨-, e, he⟩
        · rw [hev] at hv
          cases hv
          exact hstage
        · rw [hev] at he
          cases he
      rw [Slot.passed_succ hev]
      refine ⟨.inr ⟨ht.keep, huntil.append fun ha =>
        (ih (hstage fun v hv => not_not.mp (ha v hv))).1⟩,
        fun ha hs => ?_⟩
      rw [Slot.readEvents, hev]
      exact (ih (hstage fun v hv => ha v (by simp [hv]))).2 (fun v hv => ha v (by simp [hv])) hs

/-! ## The header -/

lemma HeaderStage.short (ht : HeaderStage s t) (hs : s.AllocsSucceed) :
    (s.since t).length < headerSize := by
  cases ht with
  | waiting arrives _ _ _ => simp [arrives.heard.since, headerSize]
  | filling filled short => rwa [filled.arrives.heard.since]
  | closed failed _ _ => exact absurd hs failed

/-- The history of `u` begins with that of `t`. -/
def Slot.Earlier (t u : Slot) : Prop := t.wire.history <+: u.wire.history

lemma Slot.since_length (h : t.Earlier u) : (s.since t).length ≤ (s.since u).length := by
  obtain ⟨new, hnew⟩ := h.drop s.wire.history.length
  rw [Slot.since, Slot.since, ← hnew, arrived_append, List.length_append]
  exact Nat.le_add_right _ _

lemma Slot.eventStates_earlier (s : Slot) :
    s.eventStates.Pairwise Slot.Earlier ∧ (∀ t ∈ s.eventStates, s.Earlier t) ∧
      ∀ u, s.readEvent = .ok u → ∀ t ∈ s.eventStates, t.Earlier u := by
  have hrefl : ∀ t : Slot, t.Earlier t := fun _ => List.prefix_rfl
  have htrans : ∀ {t u v : Slot}, t.Earlier u → u.Earlier v → t.Earlier v := List.IsPrefix.trans
  have hexec : ∀ (op : Op) (t : Slot) (r : op.Res) (u : Slot), Slot.exec op t = .ok (r, u) →
      t.Earlier u := fun _ _ _ _ => Slot.exec_history
  unfold Slot.eventStates
  split_ifs with hi
  · simp
  · split
    · rename_i hd hhd
      obtain ⟨hpair, hfrom⟩ := Prog.states_pairwise hrefl htrans hexec (code hd) s.readied
      refine ⟨hpair, hfrom, fun u hu => ?_⟩
      rw [Slot.readEvent_eq hi hhd] at hu
      cases hrun : Prog.run Slot.exec (code hd) s.readied with
      | error e =>
        rw [hrun] at hu
        cases hu
      | ok x =>
        rw [hrun] at hu
        cases hu
        exact Prog.states_result hrefl htrans hexec hrun
    · simp

lemma Slot.passed_earlier (n : ℕ) (s : Slot) :
    (s.passed n).Pairwise Slot.Earlier ∧ ∀ t ∈ s.passed n, s.Earlier t := by
  induction n generalizing s with
  | zero => simp [Slot.passed, Slot.Earlier]
  | succ n ih =>
    obtain ⟨hpair, hfrom, hto⟩ := s.eventStates_earlier
    cases hev : s.readEvent with
    | error e =>
      rw [Slot.passed_error hev, List.append_nil]
      exact ⟨List.pairwise_cons.mpr ⟨hfrom, hpair⟩, List.forall_mem_cons.mpr
        ⟨List.prefix_rfl, hfrom⟩⟩
    | ok u =>
      obtain ⟨hpair', hfrom'⟩ := ih u
      have hlater : ∀ t ∈ u.passed n, s.Earlier t := fun t ht =>
        (Slot.readEvent_history hev).trans (hfrom' t ht)
      have hall : ∀ t ∈ s.eventStates ++ u.passed n, s.Earlier t :=
        List.forall_mem_append.mpr ⟨hfrom, hlater⟩
      rw [Slot.passed_succ hev]
      refine ⟨List.pairwise_cons.mpr ⟨hall, List.pairwise_append.mpr ⟨hpair, hpair', ?_⟩⟩,
        List.forall_mem_cons.mpr ⟨List.prefix_rfl, hall⟩⟩
      exact fun t ht v hv => (hto u hev t ht).trans (hfrom' v hv)

lemma Slot.Waiting.stage (hw : s.Waiting)
    (hk : ∀ k ∈ s.wire.recvs, k = .again ∨ ∃ c, 0 < c.length ∧ k = .bytes c) : HeaderStage s s := by
  have ho := hw.opened
  have hfd : s.conn.fd ≠ -1 := by
    have := ho.fd
    omega
  refine .waiting ⟨fun hs => ?_, ho.active, hw.timeout, ?_, hk, rfl⟩ hw.handler rfl hw.cap
  · exact ⟨⟨ho.alive, ho.unixIo, ho.listening, hfd, hs⟩, ho.active, hw.timeout, hw.index⟩
  · exact ⟨[], (List.append_nil _).symm, rfl, rfl⟩

theorem Run.waiting {boot : Boot} {w : World} (h : Run boot w) {i : ℕ} (hp : w.Peer i)
    (hopen : (w.slots i).conn.destroyed = false) (hi : (w.slots i).norm.read.index ≠ none)
    (hhd : (w.slots i).read.handler = some (.adb .adbWaitApacketHandler)) :
    (w.slots i).norm.Waiting := by
  obtain ⟨ho, hpaused⟩ := h.steady hp hopen
  exact ⟨ho, hpaused.timeout, hi, hhd, hpaused.cap⟩

/-- Any bytes come to a connection that waits, in any parts. Until 24 of them have arrived no header
is parsed and they are kept in order, and then the payload handler is entered with their header. -/
theorem Slot.Waiting.header_reassembled (hw : s.Waiting)
    (hk : ∀ k ∈ s.wire.recvs, k = .again ∨ ∃ c, 0 < c.length ∧ k = .bytes c) (n : ℕ) :
    (∀ t ∈ s.passed n, (s.since t).length < headerSize → Incomplete s t) ∧
      (∀ t, (s.passed n).find? Slot.entered = some t → Parsed s t) ∧
      (s.AllocsSucceed → (s.passed n).find? Slot.entered = none →
        ∃ t, s.readEvents n = .ok t ∧ (s.since t).length < headerSize) := by
  obtain ⟨huntil, hnext⟩ := (hw.stage hk).passed n
  have hentry : ∀ t, ¬ (owed s).assume t → t.entered = true ∧ Parsed s t := fun t ht => by
    simpa [owed] using ht
  refine ⟨?_, fun t ht => ?_, fun hs hnone => ?_⟩
  · refine huntil.lasting (s.passed_earlier n).1 (fun t ht => ht.2) (fun t ht hlt => ?_)
      fun t u ht hu hlt => ?_
    · have := (hentry t ht).2.enough
      omega
    · have := (hentry t ht).2.enough
      have := Slot.since_length (s := s) hu
      omega
  · exact (hentry t (huntil.first (fun u hu => hu.1) (fun u hu => (hentry u hu).1) ht)).2
  · have hall : ∀ u ∈ s.passed n, (owed s).assume u := fun u hu he =>
      absurd he (List.find?_eq_none.mp hnone u hu)
    obtain ⟨t, ht, hstage⟩ := hnext hall hs
    exact ⟨t, ht, hstage.short hs⟩

/-- A header in two parts, with a pause between them and more bytes behind. -/
def pausedHeader : Slot :=
  waitingSlot [.bytes (List.replicate 10 1), .again, .bytes (List.replicate 20 2)]

lemma waiting_pausedHeader : pausedHeader.Waiting where
  opened := ⟨rfl, rfl, by simp [pausedHeader, waitingSlot], by decide, rfl⟩
  timeout := rfl
  index := by simp [pausedHeader, waitingSlot]
  handler := rfl
  cap b hb := by cases hb

lemma entered_pausedHeader : ((pausedHeader.passed 2).find? Slot.entered).isSome = true := by
  decide +kernel

theorem Slot.Waiting.header_reassembled_paused :
    ∃ t, (pausedHeader.passed 2).find? Slot.entered = some t ∧ Parsed pausedHeader t := by
  have hk : ∀ k ∈ pausedHeader.wire.recvs, k = .again ∨ ∃ c, 0 < c.length ∧ k = .bytes c := by
    simp [pausedHeader, waitingSlot]
  obtain ⟨t, ht⟩ := Option.isSome_iff_exists.mp entered_pausedHeader
  exact ⟨t, ht, (waiting_pausedHeader.header_reassembled hk 2).2.1 t ht⟩

end Xdbd
