import Xdbd.Paused
import Xdbd.Resources

/-!
# Departures

A client hangs up. If reading is not blocked, the next event of its connection closes it, also in
the middle of a packet and without any memory left; when all clients have gone this way, the
daemon holds what it held when the loop started.
-/
namespace Xdbd
open Interaction Code World Components

variable {s t : Slot} {b : Buf} {r : Request} {ks : List RecvResult}

/-- The next read finds the end of the stream, or it fails. -/
def hangsUp : List RecvResult → Bool
  | .bytes [] :: _ => true
  | .fail :: _ => true
  | .intr :: ks => hangsUp ks
  | _ => false

lemma unixRecv_hangsUp (h : hangsUp ks = true) (rev : Event) (size : ℕ) :
    (unixRecv rev size ks).bytes = [] ∧
      ((unixRecv rev size ks).n = 0 ∨ (unixRecv rev size ks).n = xdbdErr) := by
  induction ks with
  | nil => cases h
  | cons k ks ih =>
    cases k with
    | bytes bs =>
      cases bs with
      | nil => simp [unixRecv]
      | cons c bs => cases h
    | again => cases h
    | intr => exact ih h
    | fail => exact ⟨rfl, .inr rfl⟩

/-! ## The last event -/

/-- An open connection with a ready event, whose client has hung up. -/
structure Slot.Left (s : Slot) : Prop where
  alive : s.conn.destroyed = false
  unixIo : s.conn.unixIo = true
  listening : s.conn.listening ≠ none
  fd : s.conn.fd ≠ -1
  timeout : s.read.timeout = false
  ready : s.read.ready = true
  ends : hangsUp s.wire.recvs = true

def Slot.Gone (s : Slot) : Prop := s.conn.destroyed = true

lemma closeConnection_gone (hl : s.conn.listening ≠ none) (hfd : s.conn.fd ≠ -1) :
    Prog.Ensures Slot.exec (calm False) (fun _ => Slot.Gone) Code.closeConnection s :=
  .of_bind_pure (closeConnection_rule (κ := calm False) trivial (.inr ⟨hl, hfd⟩) fun _ =>
    .pure trivial rfl)

namespace Slot.Left

lemma quiet (h : s.Left) (hq : Quiet s t) : t.Left where
  alive := by rw [hq.conn]; exact h.alive
  unixIo := by rw [hq.conn]; exact h.unixIo
  listening := by rw [hq.conn]; exact h.listening
  fd := by rw [hq.conn]; exact h.fd
  timeout := by rw [hq.read]; exact h.timeout
  ready := by rw [hq.read]; exact h.ready
  ends := by rw [hq.recvs]; exact h.ends

lemma withBuffer (h : s.Left) (b : Buf) : (s.withBuffer b).Left :=
  ⟨h.alive, h.unixIo, h.listening, h.fd, h.timeout, h.ready, h.ends⟩

lemma receiveApacket (h : s.Left) (hb : s.conn.buffer = some b) :
    Prog.Ensures Slot.exec (calm False) (fun _ => Slot.Gone) (receiveApacket b) s := by
  obtain ⟨hnone, hn⟩ := unixRecv_hangsUp h.ends s.read b.cap
  unfold Xdbd.receiveApacket
  refine recv_rule (κ := calm False) 0 b.cap trivial
    (.inr ⟨h.alive, h.unixIo, b, hb, fun hne => absurd hnone hne⟩) fun _ _ _ _ _ => ?_
  rcases hn with hn | hn
  · rw [hn, if_neg (by decide), if_neg (by decide), if_pos (by decide)]
    exact closeConnection_gone h.listening h.fd
  · rw [hn, if_pos rfl]
    exact closeConnection_gone h.listening h.fd

lemma waitApacketHandler (h : s.Left) :
    Prog.Ensures Slot.exec (calm False) (fun _ => Slot.Gone) adbWaitApacketHandler s := by
  refine waitApacketHandler_rule (κ := calm False) ⟨trivial, fun _ _ _ => trivial⟩ (.inr h.alive)
    (fun b _ _ => (h.withBuffer _).receiveApacket rfl) (fun u _ hu => ?_) fun u m _ hu _ => ?_
  · have hu' := h.quiet hu.quiet
    exact closeConnection_gone hu'.listening hu'.fd
  · exact ⟨trivial, ((h.quiet hu.quiet).withBuffer _).receiveApacket rfl⟩

lemma recvIfReady {Q : ℕ → Slot → Prop} {f : ℤ → Code ℕ} (h : s.Left)
    (hb : s.conn.buffer = some b)
    (hk : ∀ n t, n = 0 ∨ n = xdbdErr → t.conn.listening ≠ none → t.conn.fd ≠ -1 →
      Prog.Ensures Slot.exec (calm False) Q (f n) t) :
    Prog.Ensures Slot.exec (calm False) Q (recvIfReady b >>= f) s := by
  obtain ⟨hnone, hn⟩ := unixRecv_hangsUp h.ends s.read (sizeT (b.cap - b.last))
  unfold Xdbd.recvIfReady
  rw [bind_assoc]
  refine readEvent_rule (κ := calm False) trivial ?_
  rw [if_pos h.ready]
  exact recv_rule (κ := calm False) _ _ trivial
    (.inr ⟨h.alive, h.unixIo, b, hb, fun hne => absurd hnone hne⟩)
    fun _ _ _ _ _ => hk _ _ hn h.listening h.fd

lemma close_gone (hl : t.conn.listening ≠ none) (hfd : t.conn.fd ≠ -1) :
    Prog.Ensures Slot.exec (calm False) (fun n u => n = sizeT xdbdErr ∧ u.Gone) (do
      adbCloseRequest
      return sizeT xdbdErr) t :=
  closeConnection_rule (κ := calm False) trivial (.inr ⟨hl, hfd⟩) fun _ => .pure trivial ⟨rfl, rfl⟩

lemma processHeader (h : s.Left) (ha : s.Asks r b) (hpos : b.pos = 0) (hlast : 0 ≤ b.last)
    (hshort : b.last < headerSize) :
    Prog.Ensures Slot.exec (calm False) (fun _ => Slot.Gone) adbProcessAdbHeader s := by
  have hb : bufSize b = b.last - b.pos := rfl
  have h24 : headerSize = 24 := rfl
  have hsize : (sizeT (bufSize b) : ℤ) = bufSize b := sizeT_of_nat (by omega) (by omega)
  have hread : Prog.Ensures Slot.exec (calm False)
      (fun n t => n = sizeT xdbdErr ∧ t.Gone) adbReadAdbHeader s := by
    unfold adbReadAdbHeader
    refine getRequest_rule (κ := calm False) trivial (.inr ⟨h.alive, r, ha.data⟩) fun _ _ _ => ?_
    refine getBuffer_rule (κ := calm False) trivial (.inr h.alive) fun _ =>
      deref_rule (κ := calm False) trivial (.inr (by simp [ha.buffer])) fun b' hb' => ?_
    obtain rfl : b = b' := Option.some.inj (ha.buffer.symm.trans hb')
    rw [if_neg (by omega)]
    refine h.recvIfReady ha.buffer fun n t hn hl hfd => ?_
    rw [if_neg (by rcases hn with hn | hn <;> rw [hn] <;> decide), if_pos hn]
    exact close_gone hl hfd
  unfold adbProcessAdbHeader
  refine readEvent_rule (κ := calm False) trivial ?_
  rw [if_neg (by simp [h.timeout])]
  refine hread.andThen fun n u hu => ?_
  obtain ⟨rfl, hu⟩ := hu
  rw [if_pos (.inr rfl)]
  exact .pure trivial hu

lemma processPayload (h : s.Left) (ha : s.Asks r b) (hshort : bufSize b < r.h.dlen.toNat) :
    Prog.Ensures Slot.exec (calm False) (fun _ => Slot.Gone) adbProcessAdbPayload s := by
  have hread : Prog.Ensures Slot.exec (calm False)
      (fun n t => n = sizeT xdbdErr ∧ t.Gone) adbReadAdbPayload s := by
    unfold adbReadAdbPayload
    refine getRequest_rule (κ := calm False) trivial (.inr ⟨h.alive, r, ha.data⟩) fun r' _ hr' => ?_
    obtain rfl : r = r' := Data.request.inj (ha.data.symm.trans hr')
    refine getBuffer_rule (κ := calm False) trivial (.inr h.alive) fun _ =>
      deref_rule (κ := calm False) trivial (.inr (by simp [ha.buffer])) fun b' hb' => ?_
    obtain rfl : b = b' := Option.some.inj (ha.buffer.symm.trans hb')
    rw [if_neg (not_le.mpr hshort)]
    refine h.recvIfReady ha.buffer fun n t hn hl hfd => ?_
    rw [if_neg (by rcases hn with hn | hn <;> rw [hn] <;> decide), pure_bind]
    beta_reduce
    rw [if_neg (show ¬ Rc.ok ≠ Rc.ok by simp), if_pos hn]
    exact close_gone hl hfd
  unfold adbProcessAdbPayload
  refine readEvent_rule (κ := calm False) trivial ?_
  rw [if_neg (by simp [h.timeout])]
  refine hread.andThen fun n u hu => ?_
  obtain ⟨rfl, hu⟩ := hu
  rw [if_pos (.inr rfl)]
  exact .pure trivial hu

end Slot.Left

/-- Reading is not blocked. -/
def Slot.Reading (s : Slot) : Prop :=
  s.read.handler = some (.adb .adbWaitApacketHandler) ∨
    s.read.handler = some (.adb .adbProcessAdbHeader) ∨
      s.read.handler = some (.adb .adbProcessAdbPayload)

lemma Slot.Left.call (h : s.Left) (hr : s.Reading) (hp : Paused s) :
    ∃ t, s.call = .ok t ∧ t.Gone := by
  obtain ⟨hd, hhd, hens⟩ : ∃ hd, s.read.handler = some (.adb hd) ∧
      Prog.Ensures Slot.exec (calm False) (fun _ => Slot.Gone) (code hd) s := by
    rcases hr with hh | hh | hh
    · exact ⟨_, hh, h.waitApacketHandler⟩
    · obtain ⟨r, b, ha, hpos, hlast, hshort⟩ := hp.header h.alive hh
      exact ⟨_, hh, h.processHeader ha hpos hlast hshort⟩
    · obtain ⟨-, r, b, ha, -, -, hshort⟩ := hp.payload h.alive hh
      exact ⟨_, hh, h.processPayload ha hshort⟩
  obtain ⟨a, t, hrun, ht⟩ := (hens.completes fun _ _ => trivial).resolve_right fun hn => hn.1
  refine ⟨t, ?_, ht⟩
  unfold Slot.call
  rw [hhd]
  exact congrArg (Except.map Prod.snd) hrun

lemma Paused.session (h : Paused s.norm) (x : Script) : Paused (s.session.fed x) where
  timeout := h.timeout
  cap := h.cap
  windows := h.windows
  header ha hh := by
    obtain ⟨r, b, hb, hrest⟩ := h.header ha hh
    exact ⟨r, b, ⟨hb.data, hb.out, hb.payload, hb.buffer⟩, hrest⟩
  payload ha hh := by
    obtain ⟨hu, r, b, hb, hrest⟩ := h.payload ha hh
    exact ⟨hu, r, b, ⟨hb.data, hb.out, hb.payload, hb.buffer⟩, hrest⟩

lemma Slot.leaves {x : Script} (hc : Paused s.norm) (ho : s.norm.Open) (hr : s.Reading)
    (hx : hangsUp x.recvs = true) :
    alone Action.next [.feed x, .event] (some s.session) = some none := by
  have hfd : s.norm.conn.fd ≠ -1 := by
    have hpos := ho.fd
    omega
  have hleft : (s.session.fed x).Left :=
    ⟨ho.alive, ho.unixIo, fun hn => ho.listening ((Slot.veiled_listening s.norm).mp hn),
      fun hn => hfd ((Slot.veiled_fd s.norm).mp hn), hc.timeout, rfl, hx⟩
  obtain ⟨t, hcall, ht⟩ := hleft.call hr (hc.session x)
  have hdead : t.readied.living = none := by
    unfold Slot.living
    rw [if_neg]
    rintro ⟨-, -, halive⟩
    exact Bool.false_ne_true (halive.symm.trans ht)
  have hnext : Action.event.next (some (s.session.fed x)) = some none := by
    show ((s.session.fed x).call.toOption.map fun t => t.readied.living) = _
    rw [hcall]
    exact congrArg some hdead
  show (some (some (s.session.fed x))).bind _ = _
  rw [Option.bind_some]
  show (Action.event.next (some (s.session.fed x))).bind _ = _
  rw [hnext]
  rfl

/-! ## Runs -/

section
variable {boot : Boot} {u w : World} {l : List (ℕ × Action)} {i : ℕ} {x : Script}

lemma alone_none {as : List Action} {y : Option Slot} (ha : .accept ∉ as)
    (h : alone Action.next as none = some y) : y = none := by
  induction as with
  | nil => exact (Option.some.inj h).symm
  | cons a as ih =>
    rw [List.mem_cons, not_or] at ha
    cases a with
    | accept => exact absurd rfl ha.1
    | feed x => exact ih ha.2 h
    | event => cases h

/-- Whatever the other clients do meanwhile, a client that hangs up while its connection reads is
gone after the next event of the connection. -/
theorem Run.departure {as : List Action} (h : Run boot u) (hl : Acts u l w)
    (hi : u.session i ≠ none) (hr : (u.slots i).Reading) (hx : hangsUp x.recvs = true)
    (hown : own i l = .feed x :: .event :: as) (ha : .accept ∉ as) :
    w.session i = none := by
  obtain ⟨free, hidle⟩ := h.idle
  obtain ⟨hp, hf⟩ := hidle.table.session_some hi
  have hleaves := Slot.leaves (paused_invariant.rest h i hp trivial) (hidle.table.open hp hf) hr hx
  have hpath := (hl.path h).component i
  rw [hown, hidle.table.session_peer hp hf, show Action.feed x :: .event :: as =
    [.feed x, .event] ++ as from rfl, alone_append, hleaves] at hpath
  exact alone_none ha hpath

/-- When every client has hung up and no new one was accepted, the daemon is back to what it held
when the loop started. -/
theorem Run.recovery (h : Run boot u) (hl : Acts u l w)
    (hleft : ∀ i, u.session i ≠ none → (u.slots i).Reading ∧
      ∃ x as, hangsUp x.recvs = true ∧ own i l = .feed x :: .event :: as)
    (hquiet : ∀ i, .accept ∉ own i l)
    (hserved : w.Served) :
    w.connected = ∅ ∧ w.connectionN = w.freeConnectionN + boot.entries.length ∧
      w.livePools = ∅ ∧ w.openFds = boot.descriptors := by
  have hgone : ∀ i, w.session i = none := fun i => by
    by_cases hi : u.session i = none
    · have hpath := (hl.path h).component i
      rw [hi] at hpath
      exact alone_none (hquiet i) hpath
    · obtain ⟨hr, x, as, hx, hown⟩ := hleft i hi
      have ha := hquiet i
      rw [hown] at ha
      exact h.departure hl hi hr hx hown fun hm =>
        ha (List.mem_cons_of_mem _ (List.mem_cons_of_mem _ hm))
  have hrun := hl.run h
  have hconnected : w.connected = ∅ := Finset.eq_empty_of_forall_notMem fun i hi =>
    session_ne_none.mpr hi (hgone i)
  obtain ⟨hstranded, hunslotted⟩ := hrun.all_served hserved
  have hcard := w.taken_card
  rw [hconnected, hstranded, Finset.card_empty] at hcard
  have htaken : w.taken = ∅ := Finset.card_eq_zero.mp hcard
  have hcounted := hrun.counted.1
  have hacc := hrun.accounted
  refine ⟨hconnected, by omega, ?_, ?_⟩
  · refine Finset.eq_empty_of_forall_notMem fun p hp => ?_
    obtain ⟨i, hi⟩ := (hacc.pools.mem p).mp hp
    have hm := (mem_poolShare.mp hi).1
    simp [htaken] at hm
  · ext s
    rw [hacc.fds.mem]
    constructor
    · rintro ⟨o, ho⟩
      cases o with
      | none => simpa [fdShare, hunslotted] using ho
      | some i =>
        have hm := (mem_fdShare.mp ho).1
        simp [htaken] at hm
    · exact fun hs => ⟨none, by simpa [fdShare, hunslotted] using hs⟩

def hangup : Script := ⟨[.bytes []], [], [], []⟩

/-- A client that has not sent anything. -/
def silent : World := oneClient ⟨[], [], [], []⟩

lemma acts_silent :
    Acts silent [(1, .feed hangup), (1, .event)] ((silent.feed 1 hangup).afterTurn {4}) :=
  (Acts.none.feed 1 hangup).reporting {4} (by decide) (by decide) rfl

theorem Run.departure_silent : ((silent.feed 1 hangup).afterTurn {4}).session 1 = none :=
  @Run.departure (.single 2 3) silent _ _ 1 hangup [] (run_oneClient _) acts_silent
    (Option.some_ne_none _) (.inl rfl) rfl rfl List.not_mem_nil

theorem Run.recovery_silent :
    ((silent.feed 1 hangup).afterTurn {4}).connected = ∅ ∧
      ((silent.feed 1 hangup).afterTurn {4}).connectionN =
        ((silent.feed 1 hangup).afterTurn {4}).freeConnectionN + 1 ∧
      ((silent.feed 1 hangup).afterTurn {4}).livePools = ∅ ∧
      ((silent.feed 1 hangup).afterTurn {4}).openFds = (Boot.single 2 3).descriptors := by
  refine Run.recovery (run_oneClient _) acts_silent (fun i hi => ?_) (fun i => ?_)
    (by decide +kernel)
  · have hi' : i = 1 := by
      have hm := session_ne_none.mp hi
      have hall : ∀ j ∈ silent.connected, j = 1 := by decide +kernel
      exact hall i hm
    subst hi'
    exact ⟨.inl rfl, hangup, [], rfl, rfl⟩
  · by_cases hi : 1 = i <;> simp [hi]

end

end Xdbd
