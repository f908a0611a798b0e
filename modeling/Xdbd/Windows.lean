import Xdbd.Paused
import Xdbd.Progress

/-!
# The windows offered to recv

A payload is received into the buffer that still holds its header, so that a packet of the largest
size does not fit: once the buffer is full, the payload handler offers an empty window, and its
result is taken for the end of the stream.
-/
namespace Xdbd
open Interaction Code World

variable {s t u : Slot} {b : Buf} {h : List Obs} {bs rest : List UInt8}

lemma unixRecv_zero {rev : Event} {size : ℕ} (hsize : 0 < size) {ks : List RecvResult}
    (hn : (unixRecv rev size ks).n = 0) : .bytes [] ∈ ks := by
  induction ks with
  | nil => cases hn
  | cons k ks ih =>
    cases k with
    | bytes bs =>
      by_cases h0 : (bs.take size).length = 0
      · have hnil : bs = [] := by
          rw [List.length_take] at h0
          exact List.length_eq_zero_iff.mp (by omega)
        rw [hnil]
        exact List.mem_cons_self
      · rw [unixRecv, if_neg h0] at hn
        have : ((bs.take size).length : ℤ) = 0 := hn
        omega
    | again | fail => cases hn
    | intr => exact List.mem_cons_of_mem _ (ih hn)

/-- In every state of a run in which no read of a payload would block: a call of `recv` by the
header handler, or by the payload handler for a packet with `dlen` bytes of payload, offers a window
that is not empty, and 0 is its result at the end of the stream only. -/
def Receivable (dlen : UInt32) : Prop :=
  ∀ (boot : Boot) (v : World) (i : ℕ) (c : RecvCall), Moment boot v → v.Peer i →
    Unblocked (v.slots i).wire.history → .recv c ∈ (v.slots i).wire.history →
      c.handler = some (.adb .adbProcessAdbHeader) ∨
        c.handler = some (.adb .adbProcessAdbPayload) ∧ c.dlen = dlen.toNat →
      0 < c.size ∧ ∀ rev ks, (unixRecv rev c.size ks).n = 0 → .bytes [] ∈ ks

lemma receivable_of_fits {dlen : UInt32} (hfit : headerSize + dlen.toNat ≤ adbMaxPacketSize) :
    Receivable dlen := fun _ v i c hm hp hu hc hh => by
  have hoffers : c.Offers := paused_invariant.moment hm i hp trivial hu c hc
  have hsize : 0 < c.size := by
    rcases hh with hh | ⟨hh, hd⟩
    · exact hoffers.header hh
    · exact hoffers.payload hh (hd ▸ hfit)
  exact ⟨hsize, fun _ _ hn => unixRecv_zero hsize hn⟩

/-! ## A full buffer -/

/-- The payload handler was called with a full buffer and has closed the connection. -/
structure Refused (dlen : ℕ) (t : Slot) : Prop where
  unblocked : Unblocked t.wire.history
  call : ∃ c, .recv c ∈ t.wire.history ∧ c.handler = some (.adb .adbProcessAdbPayload) ∧
    c.dlen = dlen ∧ c.size = 0
  closed : t.conn.destroyed = true

lemma Unblocked.append {new : List Obs} (hu : Unblocked h) (hn : ∀ c, .recv c ∉ new) :
    Unblocked (h ++ new) := fun c hc =>
  hu c ((List.mem_append.mp hc).resolve_right (hn c))

lemma Unblocked.recv (hu : Unblocked h) {c : RecvCall} (hc : c.result ≠ xdbdAgain) :
    Unblocked (h ++ [.recv c]) := fun c' hc' hh => by
  rcases List.mem_append.mp hc' with hc' | hc'
  · exact hu c' hc' hh
  · obtain rfl := Obs.recv.inj (List.mem_singleton.mp hc')
    exact hc

lemma Unblocked.quiet (hu : Unblocked s.wire.history) (hq : Quiet s t) :
    Unblocked t.wire.history := by
  obtain ⟨new, hnew, hn⟩ := hq.history
  rw [hnew]
  exact hu.append (Obs.Quiet.not_recv hn)

/-- The buffer is full, and `rest` is still to come. -/
structure Full (s : Slot) (bs rest : List UInt8) (b : Buf) (k : ℕ) : Prop where
  live : s.Live
  ready : s.read.ready = true
  recvs : s.wire.recvs = [.bytes rest]
  full : bs.length = adbMaxPacketSize
  holds : b.Holds bs k
  buffer : s.conn.buffer = some b
  unblocked : Unblocked s.wire.history

lemma Full.gathering {k : ℕ} (hf : Full s bs rest b k) {r : Request}
    (hr : s.conn.data = .request r) : Gathering s r b :=
  hf.holds.gathering hf.live hf.ready hr hf.buffer

lemma Full.processPayload (hf : Full s bs rest b headerSize) {r : Request}
    (hr : s.conn.data = .request r) (hhd : s.read.handler = some (.adb .adbProcessAdbPayload))
    (hlarge : adbMaxPacketSize < headerSize + r.h.dlen.toNat) :
    Prog.Ensures Slot.exec (calm False) (fun _ => Refused r.h.dlen.toNat) adbProcessAdbPayload
    s := by
  have hsize := hf.holds.bufSize
  have hfull := hf.full
  have hwin : b.window = 0 := by
    have := hf.holds.window
    omega
  have htaken : s.taken b = ⟨{ s.read with ready := false, eof := true }, 0, [],
      undelivered rest 0 []⟩ := by
    unfold Slot.taken
    rw [hf.recvs, hwin, unixRecv, List.take_zero, if_pos List.length_nil]
  refine processPayload_rule (hf.gathering hr) trivial (.inr (hf.holds.fetchable hf.live.usable))
    (fun ht => absurd ht (by simp [hf.live.timeout])) (fun henough => ?_) (fun _ _ => trivial)
    (fun _ _ _ => ⟨trivial, ?_, ?_, rfl⟩) (fun _ hn => ?_) fun _ _ hpos => ?_
  · omega
  · exact hf.unblocked.recv (by
      show (s.taken b).n ≠ xdbdAgain
      rw [htaken]
      exact (by decide : (0 : ℤ) ≠ xdbdAgain))
  · refine ⟨_, List.mem_append_right _ (List.mem_singleton_self _), hhd, ?_, hwin⟩
    show s.dlen = _
    unfold Slot.dlen
    rw [hr]
  · rw [htaken] at hn
    exact absurd hn (show (0 : ℤ) ≠ xdbdAgain by decide)
  · rw [htaken] at hpos
    cases hpos

lemma Full.processHeader (hf : Full s bs rest b 0) {m : Mem}
    (hr : s.conn.data = .request (.fresh m))
    (hlarge : adbMaxPacketSize < headerSize + (headerOf bs).dlen.toNat) :
    Prog.Ensures Slot.exec (calm False) (fun _ => Refused (headerOf bs).dlen.toNat)
      adbProcessAdbHeader s := by
  have hsize := hf.holds.sizeT
  have hfull := hf.full
  have hmax : adbMaxPacketSize = 2^20 := rfl
  have h24 : headerSize = 24 := rfl
  have hle : headerSize ≤ sizeT (bufSize b) := by omega
  have hhdr : b.header = headerOf bs := hf.holds.header (by omega)
  have hskip := hf.holds.skip (k := headerSize) (by omega)
  rw [Nat.zero_add] at hskip
  have hheader : Prog.Ensures Slot.exec (calm False) (fun _ => Refused (headerOf bs).dlen.toNat)
      takeHeader s := by
    refine takeHeader_rule hr hf.buffer trivial (.inr hf.live.usable) (fun hlt => by omega)
      (fun _ _ => trivial) fun _ _ => ⟨trivial, fun _ => ?_⟩
    exact Full.processPayload (s := (s.headed (.fresh m) b).handledBy .adbProcessAdbPayload)
      (r := (Request.fresh m).withHeader (headerOf bs))
      ⟨hf.live.congr rfl ⟨rfl, rfl, rfl⟩ List.suffix_rfl, hf.ready, hf.recvs, hf.full, hskip, rfl,
        hf.unblocked⟩ (by rw [← hhdr]; rfl) rfl hlarge
  refine processHeader_rule (hf.gathering hr) (by have := hf.holds.bufSize; omega) trivial
    (.inr (hf.holds.fetchable hf.live.usable)) (fun ht => absurd ht (by simp [hf.live.timeout]))
    (fun _ => hheader) (fun _ _ => trivial) (fun hlt => by omega) (fun hlt => by omega)
    fun hlt => by omega

lemma Full.receiveApacket (hs : s.Live) (hready : s.read.ready = true) (hb : s.conn.buffer = some b)
    (hb0 : b.Holds [] 0) (hr : s.wire.recvs = [.bytes (bs ++ rest)]) (hrest : rest ≠ [])
    (hfull : bs.length = adbMaxPacketSize) (hu : Unblocked s.wire.history)
    (hlarge : adbMaxPacketSize < headerSize + (headerOf bs).dlen.toNat) :
    Prog.Ensures Slot.exec (calm False) (fun _ => Refused (headerOf bs).dlen.toNat)
      (receiveApacket b) s := by
  have hwin : b.window = bs.length := by
    have hw := hb0.window
    rw [List.length_nil] at hw
    omega
  have hmax : adbMaxPacketSize = 2^20 := rfl
  have htake : (bs ++ rest).take b.window = bs := by
    rw [hwin]
    exact List.take_left
  have hdrop : (bs ++ rest).drop b.window = rest := by
    rw [hwin]
    exact List.drop_left
  have htaken : s.taken b = ⟨s.read, bs.length, bs, [.bytes rest]⟩ := by
    unfold Slot.taken
    rw [hr, unixRecv, htake, if_neg (by omega), undelivered, hdrop, if_neg hrest]
  have hlen : 0 < bs.length := by omega
  have hadv : Unblocked (s.advanced b).wire.history := hu.recv (by
    show (s.taken b).n ≠ xdbdAgain
    rw [htaken]
    exact count_ne_again)
  refine receiveApacket_rule (κ := calm False) trivial hb hb0.last hb0.ok.cap hs.active
    (.inr hs.usable) (fun _ => trivial) (fun _ hn => ?_) (fun h0 => ?_) (fun _ _ _ => settled_calm)
    (fun t ht => ?_) fun t m ht hpos _ _ => ⟨trivial, fun _ => ?_⟩
  · rw [htaken] at hn
    exact absurd hn count_ne_again
  · rw [htaken] at h0
    exact absurd h0 (count_not_failed hlen)
  · exact absurd (ht.succeeds hs.usable.allocs) Bool.false_ne_true
  · have hlive : t.Live := ((hs.fetched b).withBuffer _).quiet ht.quiet
    have hunblocked : Unblocked t.wire.history := hadv.quiet ht.quiet
    have hread : t.read = s.read := ht.quiet.read.trans (Slot.advanced_read hpos)
    have hholds : (b.advance (s.taken b).bytes (s.taken b).n).Holds bs 0 := by
      rw [htaken]
      exact hb0.advance (c := bs) (by rw [List.length_nil, hfull, Nat.zero_add])
    have ht' : Full ((t.withRequest (.fresh m)).handledBy .adbProcessAdbHeader) bs rest
        (b.advance (s.taken b).bytes (s.taken b).n) 0 := by
      refine ⟨(hlive.withRequest _).handledBy _, ?_, ?_, hfull, hholds, ?_, hunblocked⟩
      · show t.read.ready = true
        rw [hread]
        exact hready
      · show t.wire.recvs = _
        rw [ht.quiet.recvs]
        show (s.taken b).rest = _
        rw [htaken]
      · show t.conn.buffer = _
        rw [ht.quiet.conn]
        rfl
    exact ht'.processHeader (m := m) rfl hlarge

/-- The first result fills the receive buffer, and the packet is larger. -/
theorem Slot.Waits.refused (hs : s.Waits) (hready : s.read.ready = true)
    (hr : s.wire.recvs = [.bytes (bs ++ rest)]) (hrest : rest ≠ [])
    (hfull : bs.length = adbMaxPacketSize) (hu : Unblocked s.wire.history)
    (hlarge : adbMaxPacketSize < headerSize + (headerOf bs).dlen.toNat) :
    ∃ t, Prog.run Slot.exec adbWaitApacketHandler s = .ok ((), t) ∧
      Refused (headerOf bs).dlen.toNat t := by
  have hspec : Prog.Ensures Slot.exec (calm False) (fun _ => Refused (headerOf bs).dlen.toNat)
      adbWaitApacketHandler s := by
    refine waitApacketHandler_rule settled_calm (.inr hs.live.usable.alive) (fun b hb _ => ?_)
      (fun t _ ht => ?_) fun t m _ ht _ => ⟨trivial, ?_⟩
    · exact Full.receiveApacket (s := s.withBuffer (resetBuf b)) (hs.live.withBuffer _) hready
        rfl (Buf.holds_nil (hs.cap b hb)) hr hrest hfull hu hlarge
    · exact absurd (ht.succeeds hs.live.usable.allocs) Bool.false_ne_true
    · have hread : t.read = s.read := ht.quiet.read
      have hrecvs : t.wire.recvs = s.wire.recvs := ht.quiet.recvs
      have hunblocked : Unblocked t.wire.history := hu.quiet ht.quiet
      exact Full.receiveApacket (s := t.withBuffer ⟨m, adbMaxPacketSize, 0, 0⟩)
        ((hs.live.quiet ht.quiet).withBuffer _) (hread ▸ hready) rfl
          ⟨rfl, rfl, rfl, le_rfl, Nat.zero_le _, rfl⟩ (hrecvs.trans hr) hrest hfull
            hunblocked hlarge
  obtain ⟨_, t, hrun, ht⟩ := hspec.finishes (fun _ => trivial) id
  exact ⟨t, hrun, ht⟩

/-! ## A run -/

lemma World.mem_processEventsAndTimers {w v : World} {kernel : Kernel} {ev : Ev} {evs : List Ev}
    (hv : (w.selectProcessEvents kernel).2 = v) (ha : v.postedAcceptEvents = [])
    (hp : v.postedEvents = ev :: evs) : (ev, v) ∈ (w.processEventsAndTimers kernel).1 := by
  have hfirst : (ev, v) ∈ (eventProcessPosted (ev :: evs) v).1 := by
    unfold eventProcessPosted
    split <;> exact List.mem_cons_self
  unfold processEventsAndTimers
  rw [hv]
  dsimp only
  rw [ha]
  show _ ∈ [] ++ (eventProcessPosted v.postedEvents v).1
  rw [hp, List.nil_append]
  exact hfirst

def reported (x : Script) : World := ((oneClient x).selectProcessEvents (.reporting {4})).2

lemma reported_accepts (x : Script) : (reported x).postedAcceptEvents = [] := by
  with_unfolding_all rfl

lemma reported_posted (x : Script) : (reported x).postedEvents = [.read 1] := by
  with_unfolding_all rfl

/-- What the client sends, and no allocation that fails. -/
def sending (bs : List UInt8) : Script := ⟨[.bytes bs], [], [], []⟩

lemma reported_waits (bs : List UInt8) : ((reported (sending bs)).slots 1).norm.Waits where
  live := by
    refine ⟨⟨?_, ?_, ?_, ?_, ?_⟩, ?_, ?_, ?_⟩
    · with_unfolding_all rfl
    · with_unfolding_all rfl
    · rw [show ((reported (sending bs)).slots 1).norm.conn.listening = some 0 by
        with_unfolding_all rfl]
      exact Option.some_ne_none 0
    · rw [show ((reported (sending bs)).slots 1).norm.conn.fd = 4 by with_unfolding_all rfl]
      decide
    · intro m hm
      rw [show ((reported (sending bs)).slots 1).norm.wire.allocs = [] by
        with_unfolding_all rfl] at hm
      cases hm
    · with_unfolding_all rfl
    · with_unfolding_all rfl
    · rw [show ((reported (sending bs)).slots 1).norm.read.index = some 0 by with_unfolding_all rfl]
      exact Option.some_ne_none 0
  handler := by with_unfolding_all rfl
  cap b hb := by
    rw [show ((reported (sending bs)).slots 1).norm.conn.buffer = none by
      with_unfolding_all rfl] at hb
    cases hb

/-- A client whose packet fills the receive buffer and is larger is refused. -/
theorem Moment.refused {bs rest : List UInt8} (hrest : rest ≠ [])
    (hfull : bs.length = adbMaxPacketSize)
    (hlarge : adbMaxPacketSize < headerSize + (headerOf bs).dlen.toNat) :
    ∃ v, Moment (.single 2 3) v ∧ v.Peer 1 ∧ Refused (headerOf bs).dlen.toNat (v.slots 1).norm := by
  have hcall : (.read 1, reported (sending (bs ++ rest))) ∈
      ((oneClient (sending (bs ++ rest))).processEventsAndTimers (.reporting {4})).1 :=
    World.mem_processEventsAndTimers rfl (reported_accepts _) (reported_posted _)
  obtain ⟨free, hb⟩ : ∃ free, (reported (sending (bs ++ rest))).Batch free :=
    (run_oneClient _).called (allowed_oneClient _) hcall
  obtain ⟨i, hi, hpeer, hfree, hready⟩ := hb.others (.read 1) (by
    rw [reported_posted]
    exact List.mem_singleton_self _)
  obtain rfl := Ev.read.inj hi
  have hempty : ((reported (sending (bs ++ rest))).slots 1).norm.wire.history = [] := by
    with_unfolding_all rfl
  have hw := reported_waits (bs ++ rest)
  obtain ⟨t, hrun, ht⟩ := hw.refused (by with_unfolding_all rfl)
    (by with_unfolding_all rfl) hrest hfull
    (by
      rw [hempty]
      exact fun c hc => absurd hc List.not_mem_nil) hlarge
  -- what the handler does to the slot alone, it does in the daemon
  rcases (hb.table.run hpeer hfree adbWaitApacketHandler).cases with
    ⟨e, e', -, hy⟩ | ⟨a, v, t', hv, hy, hlink⟩
  · rw [hrun] at hy
    cases hy
  · rw [hrun] at hy
    cases hy
    have hstate : v ∈ passed (.read 1, reported (sending (bs ++ rest))) := by
      unfold passed
      rw [show ((reported (sending (bs ++ rest))).event (.read 1)).handler =
        some (.adb .adbWaitApacketHandler) from hw.handler]
      exact Prog.mem_states hv
    exact ⟨v, .inside (run_oneClient _) (allowed_oneClient _) hcall hstate, hlink.peer,
      by rw [← hlink.norm]; exact ht⟩

lemma Moment.refused_dlen {dlen : UInt32} (hlarge : adbMaxPacketSize < headerSize + dlen.toNat) :
    ∃ v, Moment (.single 2 3) v ∧ v.Peer 1 ∧ Refused dlen.toNat (v.slots 1).norm := by
  set hdr : Header := { Header.zero with dlen := dlen } with hhdr
  set bs := hdr.bytes ++ List.replicate (adbMaxPacketSize - headerSize) 0 with hbs
  have hof : headerOf bs = hdr := by
    rw [headerOf, hbs, List.take_left' hdr.bytes_length, ← List.append_nil hdr.bytes]
    exact Header.ofBytes_bytes hdr []
  have hfull : bs.length = adbMaxPacketSize := by
    rw [hbs, List.length_append, List.length_replicate, Header.bytes_length]
    decide
  obtain ⟨v, hm, hp, hr⟩ := Moment.refused (List.cons_ne_nil 0 []) hfull (by
    rw [hof]
    exact hlarge)
  rw [hof] at hr
  exact ⟨v, hm, hp, hr⟩

lemma Receivable.fits {dlen : UInt32} (h : Receivable dlen) :
    headerSize + dlen.toNat ≤ adbMaxPacketSize := by
  by_contra hlarge
  obtain ⟨v, hm, hp, hr⟩ := Moment.refused_dlen (Nat.lt_of_not_le hlarge)
  obtain ⟨c, hc, hh, hd, hsize⟩ := hr.call
  have hwin := (h (.single 2 3) v 1 c hm hp hr.unblocked hc (.inr ⟨hh, hd⟩)).1
  omega

/-- All packets with `dlen` bytes of payload can be received, exactly if they fit the receive buffer
together with their header. -/
theorem receivable_iff (dlen : UInt32) :
    Receivable dlen ↔ headerSize + dlen.toNat ≤ adbMaxPacketSize :=
  ⟨Receivable.fits, receivable_of_fits⟩

/-- The packet with a payload of the announced maximum cannot be received. -/
theorem largest_packet_refused :
    ¬ ∀ dlen : UInt32, dlen.toNat ≤ adbMaxPacketSize → Receivable dlen := fun h =>
  absurd (h 1048576 (by decide)).fits (by decide)

end Xdbd
