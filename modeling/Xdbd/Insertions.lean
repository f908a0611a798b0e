import Xdbd.WouldBlock
import Xdbd.Cursors

/-!
# Read events that are put in between

Two runs of one connection, one of them with further read events whose `recv` would block: where
such an event changes nothing, and what both runs have in common.
-/
namespace Xdbd
open Interaction Code

variable {s t u v : Slot} {b : Buf} {n : ℕ} {P : Slot → Prop}

/-! ## Open connections -/

/-- Between two read events: the read event is not registered any more, or the connection is
open. -/
def Steady (s : Slot) : Prop := s.read.index = none ∨ s.Open ∧ Paused s

lemma Slot.readEvent_ok (hi : s.read.index ≠ none) {hd : AdbHandler}
    (hhd : s.read.handler = some (.adb hd)) (h : s.readEvent = .ok t) :
    Prog.run Slot.exec (code hd) s.readied = .ok ((), t) := by
  rw [Slot.readEvent_eq hi hhd] at h
  cases hrun : Prog.run Slot.exec (code hd) s.readied with
  | error e =>
    rw [hrun] at h
    cases h
  | ok r =>
    rw [hrun] at h
    cases h
    rfl

lemma Slot.readEvent_of_run (hi : s.read.index ≠ none) {hd : AdbHandler}
    (hhd : s.read.handler = some (.adb hd))
    (h : Prog.run Slot.exec (code hd) s.readied = .ok ((), t)) : s.readEvent = .ok t := by
  rw [Slot.readEvent_eq hi hhd, h]
  rfl

theorem Steady.readEvent (hs : Steady s) (h : s.readEvent = .ok t) : Steady t := by
  rcases hs with hi | ⟨hopen, hp⟩
  · have ht : s.readEvent = .ok s := if_pos hi
    rw [ht] at h
    cases h
    exact .inl hi
  · by_cases hi : s.read.index = none
    · have ht : s.readEvent = .ok s := if_pos hi
      rw [ht] at h
      cases h
      exact .inl hi
    · by_cases hhd : ∃ hd, s.read.handler = some (.adb hd)
      · obtain ⟨hd, hhd⟩ := hhd
        have hrun := Slot.readEvent_ok hi hhd h
        have hopen' : s.readied.Open := hopen.congr rfl rfl
        have hp' : Paused s.readied := hp.congr rfl rfl rfl rfl
        have hpaused : Paused t := (hp'.handled hopen' (.inl trivial) hhd rfl).result
          (fun _ _ _ _ _ _ => trivial)
          hrun trivial
        exact (open_preserved.run (code hd) ⟨hopen'.active, .inr hopen'⟩ hrun).2.imp_right
          fun ho => ⟨ho, hpaused⟩
      · have ht : s.readEvent = .ok s := by
          unfold Slot.readEvent
          rw [if_neg hi]
          cases hh : s.read.handler with
          | none => rfl
          | some hd =>
            cases hd with
            | eventAccept => rfl
            | adb hd => exact absurd ⟨hd, hh⟩ hhd
        rw [ht] at h
        cases h
        exact .inr ⟨hopen, hp⟩

/-! ## A read event that would block -/

/-- A read event whose `recv` would block: the result that blocks is taken, and no other one. -/
def Slot.BlockedRead (s t : Slot) : Prop :=
  (s.hearing (.again :: s.wire.recvs)).readEvent = .ok t ∧ t.wire.recvs = s.wire.recvs

/-- The receive buffer with its cursors, the request and the handler are the same. -/
structure Unchanged (s t : Slot) : Prop where
  buffer : t.conn.buffer = s.conn.buffer
  data : t.conn.data = s.conn.data
  handler : t.read.handler = s.read.handler

/-- One of the three receiving phases. -/
def Slot.Receives (s : Slot) : Prop := s.read.index ≠ none ∧ s.read.handler ∈ readers

/-- A header is collected, or the receive buffer of a connection that waits is there and empty. -/
def Slot.Poised (s : Slot) : Prop :=
  s.read.handler = some (.adb .adbProcessAdbHeader) ∨
    s.read.handler = some (.adb .adbWaitApacketHandler) ∧
      ∃ b, s.conn.buffer = some b ∧ b.pos = 0 ∧ b.last = 0

/-- The dispatches and the replies. -/
def Obs.Shows : Obs → Bool
  | .dispatch _ _ => true
  | .send _ _ => true
  | _ => false

/-- The packets that were dispatched and the replies that were sent, in their order. -/
def shown (h : List Obs) : List Obs := h.filter Obs.Shows

lemma shown_append (h h' : List Obs) : shown (h ++ h') = shown h ++ shown h' :=
  List.filter_append ..

lemma shown_quiet {h : List Obs} (hq : ∀ o ∈ h, o.Quiet) : shown h = [] := by
  refine List.filter_eq_nil_iff.mpr fun o ho => ?_
  have := hq o ho
  cases o with
  | dispatch _ _ | send _ _ => exact this.elim
  | _ => exact Bool.false_ne_true

lemma Unchanged.of_core (h : t.core = s.core) : Unchanged s t where
  buffer := congrArg (fun x => x.conn.buffer) h
  data := congrArg (fun x => x.conn.data) h
  handler := congrArg (fun x => x.read.handler) h

/-- What a read event that would block leaves of a slot. -/
structure Deferred (s t : Slot) : Prop where
  core : t.core = s.core
  shown : shown t.wire.history = shown s.wire.history

lemma Slot.deferred_deferred (s : Slot) (b : Buf) (off : ℤ) (size : ℕ) :
    Deferred s (((s.hearing (.again :: s.wire.recvs)).readied).deferred b off size
    s.wire.recvs) where
  core := rfl
  shown := by
    show Xdbd.shown (s.wire.history ++ _) = _
    rw [shown_append]
    exact List.append_nil _

lemma Deferred.blockedRead (h : Deferred s t)
    (ht : (s.hearing (.again :: s.wire.recvs)).readEvent = .ok t) : s.BlockedRead t :=
  ⟨ht, congrArg (fun x => x.wire.recvs) h.core⟩

theorem Slot.Poised.blockedRead (h : s.Poised) (hs : s.Open) (hp : Paused s)
    (hi : s.read.index ≠ none) : ∃ t, s.BlockedRead t ∧ Deferred s t := by
  have hs' : (s.hearing (.again :: s.wire.recvs)).readied.Open := hs.congr rfl rfl
  rcases h with hhd | ⟨hhd, b, hb, hpos, hlast⟩
  · obtain ⟨r, b, ha, hpos, hlast, hshort⟩ := hp.header hs.alive hhd
    have h24 : headerSize = 24 := rfl
    have hbuf : bufSize b = b.last - b.pos := rfl
    have hsize : (sizeT (bufSize b) : ℤ) = bufSize b := sizeT_of_nat (by omega) (by omega)
    have hrun := run_processHeader_blocked hs' rfl hp.timeout ha.data ha.buffer (by omega) rfl
    have hev := Slot.readEvent_of_run (s := s.hearing (.again :: s.wire.recvs)) hi hhd hrun
    have hd := s.deferred_deferred b b.last (sizeT (b.cap - b.last))
    exact ⟨_, hd.blockedRead hev, hd⟩
  · have hrun : Prog.run Slot.exec adbWaitApacketHandler
      (s.hearing (.again :: s.wire.recvs)).readied =
        .ok ((), (s.hearing (.again :: s.wire.recvs)).readied.deferred b 0 b.cap s.wire.recvs) := by
      rw [adbWaitApacketHandler_eq,
        Prog.run_bind_of_ok (run_prepare_empty hs'.alive hb hpos hlast)]
      exact run_receiveApacket_blocked hs' hb rfl
    have hev := Slot.readEvent_of_run (s := s.hearing (.again :: s.wire.recvs)) hi hhd hrun
    have hd := s.deferred_deferred b 0 b.cap
    exact ⟨_, hd.blockedRead hev, hd⟩

lemma Slot.BlockedRead.payload (h : s.BlockedRead t) (hs : s.Open) (hp : Paused s)
    (hi : s.read.index ≠ none) (hhd : s.read.handler = some (.adb .adbProcessAdbPayload)) :
    ¬ Unchanged s t := fun hu => by
  have hs' : (s.hearing (.again :: s.wire.recvs)).readied.Open := hs.congr rfl rfl
  obtain ⟨-, r, b, ha, -, -, hshort⟩ := hp.payload hs.alive hhd
  have hrun := run_processPayload_blocked hs' rfl hp.timeout ha.data ha.buffer hshort rfl
  have hev := Slot.readEvent_of_run (s := s.hearing (.again :: s.wire.recvs)) hi hhd hrun
  obtain rfl := Except.ok.inj (h.1.symm.trans hev)
  have hsame : some { b with last := b.last + xdbdAgain } = some b := hu.buffer.trans ha.buffer
  have hlast : b.last + xdbdAgain = b.last := congrArg Buf.last (Option.some.inj hsame)
  rw [xdbdAgain] at hlast
  omega

lemma Slot.BlockedRead.waiting (h : s.BlockedRead t) (hs : s.Open) (hi : s.read.index ≠ none)
    (hhd : s.read.handler = some (.adb .adbWaitApacketHandler)) :
    ∃ b u, Prog.run Slot.exec prepare s.core.readied = .ok (some b, u) ∧
      Prepared s.core.readied b u ∧ t.core = u.core ∧
        shown t.wire.history = shown s.wire.history := by
  have halive : s.core.readied.conn.destroyed = false := hs.alive
  -- the event without its past
  obtain ⟨x, hx, hcore, hhist⟩ : ∃ x, (s.core.hearing (.again :: s.wire.recvs)).readEvent = .ok x ∧
      t.core = x.core ∧ t.wire.history = s.wire.history ++ x.wire.history := by
    rcases (s.hearing (.again :: s.wire.recvs)).readEvent_core with
      ⟨e, e', he, -⟩ | ⟨t', x, ht, hx, hc⟩
    · rw [h.1] at he
      cases he
    · rw [h.1] at ht
      cases ht
      exact ⟨x, hx, hc⟩
  have hrecvs : x.wire.recvs = s.wire.recvs :=
    (congrArg (fun y => y.wire.recvs) hcore).symm.trans h.2
  have hrun := Slot.readEvent_ok (s := s.core.hearing (.again :: s.wire.recvs)) hi hhd hx
  obtain ⟨ob, u, hprep, hsome⟩ := run_prepare halive
  change Prog.run Slot.exec adbWaitApacketHandler (s.core.readied.hearing _) = _ at hrun
  rw [adbWaitApacketHandler_eq, Prog.run_bind_of_ok (run_prepare_hearing _ hprep)] at hrun
  cases ob with
  | none =>
    -- without memory for the buffer nothing is read
    have hclosed : Slot.exec .closeConnection (u.hearing (.again :: s.wire.recvs)) = .ok ((), x) :=
      (Prog.run_ask _ _ _).symm.trans hrun
    simp only [Slot.exec] at hclosed
    split_ifs at hclosed
    cases hclosed
    exact absurd (congrArg List.length hrecvs) (Nat.succ_ne_self _)
  | some b =>
    have hp := hsome b rfl
    obtain ⟨y, hq, rfl⟩ := hp.made
    have hopen : ((y.withBuffer b).hearing (.again :: s.wire.recvs)).Open := by
      refine ⟨?_, ?_, ?_, ?_, ?_⟩
      · show y.conn.destroyed = false
        rw [hq.conn]
        exact hs.alive
      · show y.conn.unixIo = true
        rw [hq.conn]
        exact hs.unixIo
      · show y.conn.listening ≠ none
        rw [hq.conn]
        exact hs.listening
      · show 0 ≤ y.conn.fd
        rw [hq.conn]
        exact hs.fd
      · show y.read.active = true
        rw [hq.read]
        exact hs.active
    have hend := run_receiveApacket_blocked hopen rfl rfl
    change Prog.run Slot.exec (receiveApacket b) _ = _ at hrun
    rw [hend] at hrun
    cases hrun
    have hy : y.wire.recvs = s.wire.recvs := hq.recvs
    refine ⟨b, _, hprep, hp, ?_, ?_⟩
    · rw [hcore, ← hy]
      rfl
    · obtain ⟨new, hnew, hquiet⟩ := hq.history
      rw [hhist]
      show shown (s.wire.history ++ (y.wire.history ++ [_])) = _
      rw [hnew, shown_append, shown_append,
        show shown (s.core.readied.wire.history ++ new) = [] from shown_quiet hquiet]
      exact List.append_nil _

/-- A read event that would block changes nothing exactly where the slot is poised for it. -/
theorem Slot.unchanged_iff (hs : s.Open) (hp : Paused s) (hr : s.Receives) :
    (∃ t, s.BlockedRead t ∧ Unchanged s t) ↔ s.Poised := by
  refine ⟨fun ⟨t, hb, hu⟩ => ?_, fun h => ?_⟩
  · have hphase := hr.2
    simp only [readers, List.mem_cons, List.not_mem_nil, or_false] at hphase
    rcases hphase with hhd | hhd | hhd
    · obtain ⟨b, u, -, hprep, hcore, -⟩ := hb.waiting hs hr.1 hhd
      obtain ⟨y, -, rfl⟩ := hprep.made
      have hbuf : t.conn.buffer = some b := congrArg (fun x => x.conn.buffer) hcore
      exact .inr ⟨hhd, b, hu.buffer.symm.trans hbuf, hprep.pos, hprep.last⟩
    · exact .inl hhd
    · exact absurd hu (hb.payload hs hp hr.1 hhd)
  · obtain ⟨t, hb, hd⟩ := h.blockedRead hs hp hr.1
    exact ⟨t, hb, .of_core hd.core⟩

/-! ## Two runs -/

/-- From `s` one comes to `t` by `n` read events and some that would block, these in states of
`P`. -/
inductive Slot.Woven (P : Slot → Prop) (s : Slot) : ℕ → Slot → Prop
  | start : Slot.Woven P s 0 s
  | event {n : ℕ} {t u : Slot} (prior : Slot.Woven P s n t) (event : t.readEvent = .ok u) :
    Slot.Woven P s (n + 1) u
  | blocked {n : ℕ} {t u : Slot} (prior : Slot.Woven P s n t) (within : P t)
    (blocked : t.BlockedRead u) : Slot.Woven P s n u

/-- A connection that waits or collects a header. -/
def Slot.BeforePayload (s : Slot) : Prop :=
  s.read.handler = some (.adb .adbWaitApacketHandler) ∨
    s.read.handler = some (.adb .adbProcessAdbHeader)

lemma Steady.hearing (hs : Steady s) (ks : List RecvResult) : Steady (s.hearing ks) :=
  hs.imp id fun ⟨ho, hp⟩ => ⟨ho.congr rfl rfl, hp.congr rfl rfl rfl rfl⟩

lemma Slot.Woven.steady (hs : Steady s) (h : s.Woven P n t) : Steady t := by
  induction h with
  | start => exact hs
  | event _ event ih => exact ih.readEvent event
  | blocked _ _ blocked ih => exact (ih.hearing _).readEvent blocked.1

lemma Slot.BlockedRead.registered (h : s.BlockedRead t) : s.read.index ≠ none := fun hi => by
  have hn : (s.hearing (.again :: s.wire.recvs)).readEvent =
      .ok (s.hearing (.again :: s.wire.recvs)) := if_pos hi
  obtain rfl := Except.ok.inj (h.1.symm.trans hn)
  exact absurd (congrArg List.length h.2) (Nat.succ_ne_self _)

/-- The slot `s` of the run with more events and the slot `t` of the other run: they are the same,
or the receive buffer of `s` is already prepared. -/
inductive Alike (s t : Slot) : Prop
  | same (core : s.core = t.core) : Alike s t
  | ahead {b : Buf} {u : Slot} (registered : t.read.index ≠ none)
    (handler : t.read.handler = some (.adb .adbWaitApacketHandler))
    (alive : t.conn.destroyed = false)
    (prepared : Prog.run Slot.exec prepare t.core.readied = .ok (some b, u))
    (empty : Prepared t.core.readied b u) (core : s.core = u.core) : Alike s t

/-- Two read events end in the same way, and show the same. -/
def Together (s t : Slot) : Prop :=
  (∃ e e', s.readEvent = .error e ∧ t.readEvent = .error e') ∨
    ∃ s' t' new new', s.readEvent = .ok s' ∧ t.readEvent = .ok t' ∧ s'.core = t'.core ∧
      s'.wire.history = s.wire.history ++ new ∧ t'.wire.history = t.wire.history ++ new' ∧
        shown new = shown new'

lemma Together.of_core (h : Together s.core t.core) : Together s t := by
  rcases s.readEvent_core with ⟨e, e', hs, hs'⟩ | ⟨s', x, hs, hx, hsx, hsh⟩ <;>
    rcases t.readEvent_core with ⟨f, f', ht, ht'⟩ | ⟨t', y, ht, hy, hty, hth⟩
  · exact .inl ⟨e, f, hs, ht⟩
  · rcases h with ⟨g, g', hg, hg'⟩ | ⟨x', y', _, _, hx', -⟩
    · rw [hy] at hg'
      cases hg'
    · rw [hs'] at hx'
      cases hx'
  · rcases h with ⟨g, g', hg, hg'⟩ | ⟨x', y', _, _, -, hy', -⟩
    · rw [hx] at hg
      cases hg
    · rw [ht'] at hy'
      cases hy'
  · rcases h with ⟨g, g', hg, hg'⟩ | ⟨x', y', new, new', hx', hy', hcore, hnew, hnew', hshown⟩
    · rw [hx] at hg
      cases hg
    · obtain rfl := Except.ok.inj (hx.symm.trans hx')
      obtain rfl := Except.ok.inj (hy.symm.trans hy')
      refine .inr ⟨s', t', new, new', hs, ht, hsx.trans (hcore.trans hty.symm), ?_, ?_, hshown⟩
      · rw [hsh, hnew]
        rfl
      · rw [hth, hnew']
        rfl

theorem Alike.readEvent (h : Alike s t) : Together s t := by
  refine .of_core ?_
  cases h with
  | same core =>
    rw [core]
    cases hx : t.core.readEvent with
    | error e => exact .inl ⟨e, e, hx, hx⟩
    | ok x =>
      rcases t.readEvent_core with ⟨e, e', -, he⟩ | ⟨t', x', -, hx', -, -⟩
      · rw [hx] at he
        cases he
      · have hprefix : ∃ new, x.wire.history = t.core.wire.history ++ new := ⟨x.wire.history, rfl⟩
        obtain ⟨new, hnew⟩ := hprefix
        exact .inr ⟨x, x, new, new, hx, hx, rfl, hnew, hnew, rfl⟩
  | @ahead b u registered handler alive prepared empty core =>
    rw [core]
    obtain ⟨y, hq, rfl⟩ := empty.made
    have hread : y.read = t.core.readied.read := hq.read
    have hidx : (y.withBuffer b).core.read.index ≠ none := by
      show y.read.index ≠ none
      rw [hread]
      exact registered
    have hhd : (y.withBuffer b).core.read.handler = some (.adb .adbWaitApacketHandler) := by
      show y.read.handler = _
      rw [hread]
      exact handler
    have hready : (y.withBuffer b).readied = y.withBuffer b := by
      show ({ y.withBuffer b with read := { y.read with ready := true } } : Slot) = _
      rw [hread]
      show ({ y.withBuffer b with read := t.core.readied.read } : Slot) = _
      rw [← hread]
      rfl
    have hprior : y.withBuffer b = (y.withBuffer b).core.readied.prior
      (y.withBuffer b).wire.history := by
      rw [← Slot.readied_core, hready]
    have halive : t.core.readied.conn.destroyed = false := alive
    have hs : Prog.run Slot.exec adbWaitApacketHandler (y.withBuffer b).core.readied =
        Prog.run Slot.exec (receiveInto (some b)) (y.withBuffer b).core.readied := by
      rw [adbWaitApacketHandler_eq, Prog.run_bind_of_ok (empty.again halive)]
    have ht : Prog.run Slot.exec adbWaitApacketHandler t.core.readied =
        Prog.run Slot.exec (receiveInto (some b)) (y.withBuffer b) := by
      rw [adbWaitApacketHandler_eq, Prog.run_bind_of_ok prepared]
    have hrun := (prior_simulates (y.withBuffer b).wire.history).run (receiveInto (some b)) hprior
    rcases hrun.cases with ⟨e, e', hx, hx'⟩ | ⟨a, x, x', hx, hx', hxx⟩
    · refine .inl ⟨e, e', ?_, ?_⟩
      · rw [Slot.readEvent_eq hidx hhd]
        exact congrArg (Except.map Prod.snd) (hs.trans hx)
      · rw [Slot.readEvent_eq (s := t.core) registered handler]
        exact congrArg (Except.map Prod.snd) (ht.trans hx')
    · obtain ⟨new, hnew, hquiet⟩ := hq.history
      have hnone : shown (y.withBuffer b).wire.history = [] := by
        show shown y.wire.history = []
        rw [hnew]
        exact shown_quiet hquiet
      refine .inr ⟨x, x', x.wire.history, (y.withBuffer b).wire.history ++ x.wire.history,
        Slot.readEvent_of_run hidx hhd (hs.trans hx),
        Slot.readEvent_of_run (s := t.core) registered handler (ht.trans hx'), ?_, rfl, ?_, ?_⟩
      · rw [hxx]
        rfl
      · rw [hxx]
        rfl
      · rw [shown_append, hnone]
        rfl

/-- A read event that would block, in the run with more events. -/
theorem Alike.blocked (h : Alike s t) (hs : s.Open) (hp : Paused s) (hphase : s.BeforePayload)
    (hb : s.BlockedRead u) : Alike u t ∧ shown u.wire.history = shown s.wire.history := by
  have hi := hb.registered
  rcases hphase with hhd | hhd
  · obtain ⟨b, x, hprep, hempty, hcore, hshown⟩ := hb.waiting hs hi hhd
    refine ⟨?_, hshown⟩
    cases h with
    | same core =>
      rw [core] at hprep hempty
      have hidx : t.core.read.index ≠ none := core ▸ (show s.core.read.index ≠ none from hi)
      have hhd' : t.core.read.handler = some (.adb .adbWaitApacketHandler) := core ▸ hhd
      have halive : t.core.conn.destroyed = false := core ▸ hs.alive
      exact .ahead hidx hhd' halive hprep hempty hcore
    | @ahead b' x' registered handler alive prepared empty core =>
      -- the buffer was prepared before
      have hagain := empty.again (show t.core.readied.conn.destroyed = false from alive)
      rw [core, hagain] at hprep
      cases hprep
      exact .ahead registered handler alive prepared empty hcore
  · obtain ⟨x, hx, hd⟩ := Slot.Poised.blockedRead (.inl hhd) hs hp hi
    obtain rfl := Except.ok.inj (hx.1.symm.trans hb.1)
    refine ⟨?_, hd.shown⟩
    cases h with
    | same core => exact .same (hd.core.trans core)
    | @ahead b' x' registered handler alive prepared empty core =>
      obtain ⟨y, hq, rfl⟩ := empty.made
      have hwait : s.core.read.handler = some (.adb .adbWaitApacketHandler) := by
        rw [core]
        show y.read.handler = _
        rw [hq.read]
        exact handler
      exact absurd (hwait.symm.trans hhd) (by decide)

lemma Slot.readEvents_snoc (n : ℕ) (s : Slot) :
    s.readEvents (n + 1) = (s.readEvents n).bind Slot.readEvent := by
  induction n generalizing s with
  | zero =>
    show s.readEvent.bind Except.ok = s.readEvent
    cases s.readEvent <;> rfl
  | succ n ih =>
    show s.readEvent.bind (Slot.readEvents (n + 1)) = (s.readEvent.bind (Slot.readEvents n)).bind _
    cases s.readEvent with
    | error e => rfl
    | ok t => exact ih t

/-- The run without the events that would block. -/
theorem Slot.Woven.without (hs : Steady s) (h : s.Woven Slot.BeforePayload n u) :
    ∃ v, s.readEvents n = .ok v ∧ Alike u v ∧ shown u.wire.history = shown v.wire.history := by
  induction h with
  | start => exact ⟨s, rfl, .same rfl, rfl⟩
  | @event n t u prior event ih =>
    obtain ⟨v, hv, halike, hshown⟩ := ih
    rcases halike.readEvent with ⟨e, e', he, -⟩ |
      ⟨x, y, new, new', hx, hy, hcore, hnew, hnew', hsame⟩
    · rw [event] at he
      cases he
    · obtain rfl := Except.ok.inj (event.symm.trans hx)
      refine ⟨y, ?_, .same hcore, ?_⟩
      · rw [Slot.readEvents_snoc, hv]
        exact hy
      · rw [hnew, hnew', shown_append, shown_append, hshown, hsame]
  | @blocked n t u prior within blocked ih =>
    obtain ⟨v, hv, halike, hshown⟩ := ih
    obtain ⟨hopen, hp⟩ := (prior.steady hs).resolve_left blocked.registered
    obtain ⟨halike', hshown'⟩ := halike.blocked hopen hp within blocked
    exact ⟨v, hv, halike', hshown'.trans hshown⟩

/-- Further read events that would block. They change nothing exactly where the slot is poised for
them, and as long as none comes in the payload phase the same is shown as without them. -/
structure Slot.Unaffected (s : Slot) : Prop where
  unchanged : ∀ n t, s.Woven (fun _ => True) n t → t.Receives →
    ((∃ u, t.BlockedRead u ∧ Unchanged t u) ↔ t.Poised)
  shown : ∀ n u, s.Woven Slot.BeforePayload n u → ∃ v, s.readEvents n = .ok v ∧
    shown u.wire.history = shown v.wire.history ∧
      ((∃ e, u.readEvent = .error e) ↔ ∃ e, v.readEvent = .error e)

lemma Steady.unaffected (hs : Steady s) : s.Unaffected where
  unchanged n t hw hr := by
    obtain ⟨hopen, hp⟩ := (hw.steady hs).resolve_left hr.1
    exact Slot.unchanged_iff hopen hp hr
  shown n u hw := by
    obtain ⟨v, hv, halike, hshown⟩ := hw.without hs
    refine ⟨v, hv, hshown, ?_⟩
    rcases halike.readEvent with ⟨e, e', he, he'⟩ | ⟨x, y, _, _, hx, hy, -⟩
    · exact iff_of_true ⟨e, he⟩ ⟨e', he'⟩
    · rw [hx, hy]
      exact iff_of_false (fun ⟨e, he⟩ => nomatch he) fun ⟨e, he⟩ => nomatch he

lemma Run.steady {boot : Boot} {w : World} (h : Run boot w) {i : ℕ} (hp : w.Peer i)
    (hopen : (w.slots i).conn.destroyed = false) :
    (w.slots i).norm.Open ∧ Paused (w.slots i).norm := by
  obtain ⟨free, hidle⟩ := h.idle
  have hi : i ∉ free := fun hi => by
    rw [hidle.table.released i hi hp.issued] at hopen
    cases hopen
  exact ⟨hidle.table.open hp hi, paused_invariant.rest h i hp trivial⟩

/-- Every connection that was accepted and is not closed. -/
theorem Run.blocked_reads_unaffected {boot : Boot} {w : World} (h : Run boot w) {i : ℕ}
    (hp : w.Peer i) (hopen : (w.slots i).conn.destroyed = false) : (w.slots i).norm.Unaffected :=
  Steady.unaffected (.inr (h.steady hp hopen))

theorem Run.blocked_reads_unaffected_client :
    ((oneClient ⟨[.bytes okayPacket], [], [], []⟩).slots 1).norm.Unaffected :=
  Run.blocked_reads_unaffected (run_oneClient _) ⟨by decide, by decide, by decide⟩ (by decide)

/-- In the payload phase a read event that would block is no such event. -/
theorem Run.blocked_read_retreats : ¬ ∀ (boot : Boot) (w : World) (i : ℕ), Run boot w → w.Peer i →
    (w.slots i).conn.destroyed = false → (w.slots i).norm.Receives →
      ∃ u, (w.slots i).norm.BlockedRead u ∧ Unchanged (w.slots i).norm u := fun h => by
  have hp : retreated.Peer 1 := ⟨by decide, by decide, by decide⟩
  have hopen : (retreated.slots 1).conn.destroyed = false := by decide
  have hr : (retreated.slots 1).norm.Receives := ⟨by decide, by decide⟩
  obtain ⟨u, hb, hu⟩ := h (.single 2 3) retreated 1 run_retreated hp hopen hr
  obtain ⟨ho, hpaused⟩ := run_retreated.steady hp hopen
  exact hb.payload ho hpaused hr.1 (by decide) hu

end Xdbd
