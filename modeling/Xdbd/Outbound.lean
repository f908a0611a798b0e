import Xdbd.Progress

/-!
# The outbound stream

The replies put into `r->out` against the bytes the kernel accepted. As long as every `send`
takes a whole reply, nothing is lost: the bytes accepted are the replies in order, and what is
missing is in the buffer of the current request. After a short write the rest is never sent.
-/
namespace Xdbd
open Interaction World

variable {boot : Boot} {s t u : Slot}

def sentBytes : Obs → List UInt8
  | .send bs n => bs.take n.toNat
  | _ => []

def accepted (h : List Obs) : List UInt8 := h.flatMap sentBytes

lemma accepted_append (h h' : List Obs) : accepted (h ++ h') = accepted h ++ accepted h' :=
  List.flatMap_append

/-- A `send` that the kernel accepted to the last byte. -/
def Obs.Whole : Obs → Prop
  | .send bs n => n = bs.length
  | _ => True

instance : (o : Obs) → Decidable o.Whole
  | .send bs n => inferInstanceAs (Decidable (n = (bs.length : ℤ)))
  | .recv _ | .alloc _ _ | .append _ _ _ | .dispatch _ _ | .put _ | .accept _ _ => .isTrue trivial

def WholeSends (h : List Obs) : Prop := ∀ o ∈ h, o.Whole

/-- What was accepted is the beginning of what was put, and the rest is in `r->out`. -/
structure Intact (s : Slot) : Prop where
  order : accepted s.wire.history <+: puts s.wire.history
  kept : s.conn.destroyed = false →
    (puts s.wire.history).drop (accepted s.wire.history).length <:+: s.held

/-! ## Handlers -/

lemma puts_incoming {h : List Obs} (hin : ∀ o ∈ h, o.Incoming) : puts h = [] := by
  refine List.flatMap_eq_nil_iff.mpr fun o ho => ?_
  have := hin o ho
  cases o with
  | put bs => exact this.elim
  | _ => rfl

lemma accepted_incoming {h : List Obs} (hin : ∀ o ∈ h, o.Incoming) : accepted h = [] := by
  refine List.flatMap_eq_nil_iff.mpr fun o ho => ?_
  have := hin o ho
  cases o with
  | send bs n => exact this.elim
  | _ => rfl

lemma accepted_inner {h : List Obs} (hin : ∀ o ∈ h, o.Inner) : accepted h = [] := by
  refine List.flatMap_eq_nil_iff.mpr fun o ho => ?_
  rcases hin o ho with hq | ⟨bs, rfl⟩
  · cases o with
    | send bs n => exact hq.elim
    | _ => rfl
  · rfl

/-- Every reply put was accepted. -/
def Flushed (s : Slot) : Prop := accepted s.wire.history = puts s.wire.history

lemma Flushed.intact (h : Flushed s) : Intact s where
  order := by
    rw [Flushed] at h
    rw [h]
  kept _ := by
    rw [Flushed] at h
    rw [h, List.drop_length]
    exact List.nil_infix

lemma Receiving.flushed (h : Receiving s t) (hs : Flushed s) : Flushed t := by
  obtain ⟨new, hnew, hin⟩ := h.history
  rw [Flushed, hnew, accepted_append, puts_append, puts_incoming hin, accepted_incoming hin, hs]

lemma Working.outbound {e : List UInt8} (h : Working s e t) (hs : Flushed s) (hn : s.held = []) :
    ∃ new, puts t.wire.history = accepted t.wire.history ++ new ∧ t.held = new ++ e := by
  obtain ⟨new, hnew, hin, hheld⟩ := h.held
  refine ⟨puts new, ?_, by rw [hheld, hn, List.nil_append]⟩
  rw [hnew, accepted_append, puts_append, accepted_inner hin, List.append_nil, hs]

lemma intact_of_append {new e : List UInt8}
    (hput : puts t.wire.history = accepted t.wire.history ++ new) (hheld : t.held = new ++ e) :
    Intact t where
  order := by
    rw [hput]
    exact List.prefix_append _ _
  kept _ := by
    rw [hput, List.drop_left, hheld]
    exact (List.prefix_append new e).isInfix

lemma Working.intact {e : List UInt8} (h : Working s e t) (hs : Flushed s) (hn : s.held = []) :
    Intact t := by
  obtain ⟨new, hput, hheld⟩ := h.outbound hs hn
  exact intact_of_append hput hheld

lemma Intact.closed (h : Intact t) : Intact t.closed :=
  ⟨h.order, fun hc => absurd hc (by simp [Slot.closed])⟩

/-- Between the calls of the handlers: outside a dispatch that was refused, all is sent. -/
structure Drained (s : Slot) : Prop where
  intact : Intact s
  flushed : s.conn.destroyed = false → s.read.handler ≠ some (.adb .adbBlockReading) → Flushed s
  staged : Staged s

lemma Receiving.drained (h : Receiving s t) (hs : Flushed s) (hst : Staged s) : Drained t :=
  ⟨(h.flushed hs).intact, fun _ _ => h.flushed hs, h.staged hst⟩

def outboundContract : Prog.Contract Slot := ⟨fun s => WholeSends s.wire.history, Intact, True⟩

lemma staged_waiting (s : Slot) : Staged (s.handledBy .adbWaitApacketHandler) := by
  rintro (hc | hc) <;> cases hc

lemma drained_waiting (h : Flushed s) : Drained (s.handledBy .adbWaitApacketHandler) :=
  ⟨Flushed.intact h, fun _ _ => h, staged_waiting s⟩

lemma Working.flushed_sent (h : Working s [] t) (hs : Flushed s) (hn : s.held = [])
    (hw : WholeSends (t.sentOut t.held).wire.history) : Flushed (t.sentOut t.held) := by
  obtain ⟨new, hput, hheld⟩ := h.outbound hs hn
  rw [List.append_nil] at hheld
  have hhist : (t.sentOut t.held).wire.history =
      t.wire.history ++ [.send t.held (t.send t.held).1] := rfl
  have hn' : (t.send t.held).1 = t.held.length := hw (.send t.held (t.send t.held).1) (by
    rw [hhist]
    exact List.mem_append_right _ (List.mem_singleton_self _))
  have hsent : accepted [.send t.held (t.send t.held).1] = new := by
    show t.held.take (t.send t.held).1.toNat ++ [] = new
    rw [hn', Int.toNat_natCast, List.take_length, List.append_nil, hheld]
  have hputs : puts [.send t.held (t.send t.held).1] = [] := rfl
  rw [Flushed, hhist, accepted_append, puts_append, hsent, hputs, List.append_nil, hput]

lemma Flushed.dispatching (h : Flushed t) (r : Request) : Flushed (t.dispatching r) := by
  show accepted (t.wire.history ++ [_]) = puts (t.wire.history ++ [_])
  rw [accepted_append, puts_append, h]
  rfl

lemma held_dispatching {r : Request} (hr : t.conn.data = .request r) (hout : r.out = none) :
    (t.dispatching r).held = [] := by
  rw [Slot.held_request (show (t.dispatching r).conn.data = .request r from hr), Request.held, hout]
  rfl

lemma sends_drained (hs : Flushed s) (hn : s.held = [])
    (hb : s.read.handler = some (.adb .adbBlockReading)) (h : Header) :
    Sends outboundContract s h Drained := by
  refine ⟨fun u hu => ?_, fun u hw hheld _ => ?_, fun u hw _ ha => ?_⟩
  · cases hu with
    | refused _ hw _ =>
      have hblock : u.read.handler = some (.adb .adbBlockReading) := by
        rw [hw.same]
        exact hb
      refine ⟨hw.intact hs hn, fun _ hne => absurd hblock hne, ?_⟩
      rintro (hc | hc) <;> rw [hblock] at hc <;> cases hc
    | closed _ hw _ _ =>
      exact ⟨(hw.intact hs hn).closed, fun hc => absurd hc (by simp [Slot.closed]),
        fun _ r hr => by cases hr⟩
  · obtain ⟨new, hput, hnew⟩ := hw.outbound hs hn
    rw [List.append_nil] at hnew
    have hflushed : Flushed u := by
      rw [Flushed, hput, ← hnew, hheld, List.append_nil]
    exact ⟨Flushed.intact hflushed, drained_waiting hflushed⟩
  · have hflushed := hw.flushed_sent hs hn ha
    exact ⟨hflushed.intact, fun _ => ⟨Flushed.intact hflushed, drained_waiting hflushed⟩⟩

lemma attends_drained (hs : Flushed s) (hst : Staged s) :
    Attends outboundContract s Drained where
  fail := trivial
  keep t ht _ := (ht.flushed hs).intact
  rest t ht _ := ht.drained hs hst
  dispatch t ht hn _ := by
    have hfl := ht.flushed hs
    refine dispatchPayload_spec hn hfl.intact (fun _ => Flushed.intact hfl) (fun r hr ha => ?_)
      (.inl trivial)
    have hnil := held_dispatching hr (hn r hr)
    have hd := hfl.dispatching r
    exact ⟨⟨ha, fun e u hw _ => hw.intact hd hnil, fun u hw _ => (hw.intact hd hnil).closed⟩,
      sends_drained hd hnil rfl r.p.header⟩

lemma blockReading_drained (h : Drained s) :
    Prog.Ensures Slot.exec outboundContract (fun _ => Drained) adbBlockReading s := by
  unfold adbBlockReading
  refine readEvent_rule h.intact ?_
  split_ifs
  · have hdel : Drained s.delRead.2 := by
      unfold Slot.delRead
      split_ifs
      · exact h
      · exact ⟨⟨h.intact.order, h.intact.kept⟩, h.flushed, h.staged⟩
    exact delReadEvent_rule h.intact fun _ => .pure hdel.intact hdel
  · exact .pure h.intact h

theorem drained_invariant : PeerInvariant WholeSends Drained Intact where
  closed hp hw o ho := hw o (hp.subset ho)
  accepted s ls p q k := ⟨Flushed.intact rfl, fun _ _ => rfl, by rintro (hc | hc) <;> cases hc⟩
  feed _ hs := ⟨⟨hs.intact.order, hs.intact.kept⟩, hs.flushed, hs.staged⟩
  flags _ _ hs := ⟨⟨hs.intact.order, hs.intact.kept⟩, hs.flushed, hs.staged⟩
  keep hs := hs.intact
  run {s hd} hh hs hopen hhd _ := by
    by_cases hb : hd = .adbBlockReading
    · subst hb
      exact blockReading_drained hs
    · have hfl := hs.flushed hopen.alive (by rw [hhd]; simpa using hb)
      have hatt := attends_drained hfl hs.staged
      cases hd with
      | adbWaitApacketHandler => exact hatt.waitApacketHandler (.refl s) hh
      | adbProcessAdbHeader => exact hatt.processAdbHeader (.refl s) (hs.staged (.inl hhd)) hh
      | adbProcessAdbPayload => exact hatt.processAdbPayload (.refl s) (hs.staged (.inr hhd)) hh
      | adbBlockReading => exact absurd rfl hb
      | adbEmptyHandler => exact .pure hs.intact hs

/-- In every state of a run, also inside the handlers, for every accepted connection whose `send`
calls were all accepted whole. -/
theorem Moment.outbound_intact {v : World} (h : Moment boot v) {i : ℕ} (hp : v.Peer i)
    (hs : WholeSends (v.slots i).wire.history) : Intact (v.slots i) := by
  have hk := drained_invariant.moment h i hp hs
  have hheld : (v.slots i).norm.held = (v.slots i).held := by
    unfold Slot.held Slot.norm
    cases (v.slots i).conn.data <;> rfl
  exact ⟨hk.order, fun hd => hheld ▸ hk.kept hd⟩

/-- The OKAY packet was answered and the answer was taken whole. -/
theorem Moment.outbound_intact_okeyed : Intact (okeyed.slots 1) :=
  @Moment.outbound_intact (.single 2 3) okeyed (.top run_okeyed) 1
    ⟨by decide, by decide, by decide⟩ (by unfold WholeSends; decide)

/-- The kernel takes ten bytes of the reply to a first packet, and one byte of the second
arrives. -/
def overtaken : World :=
  (((oneClient ⟨[.bytes okayPacket], [.short 10], [], []⟩).afterTurn {4}).feed 1
    ⟨[.bytes [79]], [], [], []⟩).afterTurn {4}

set_option maxRecDepth 4000 in
lemma run_overtaken : Run (.single 2 3) overtaken :=
  (((run_oneClient _).step (.reporting {4} (by decide) (by decide) rfl)).step (.feed _ 1 _)).step
    (.reporting {4} (by decide) (by decide) rfl)

set_option maxRecDepth 4000 in
/-- Fourteen bytes of the first reply are neither sent nor kept. -/
theorem outbound_lost_overtaken :
    ¬ ∀ (boot : Boot) (v : World) (i : ℕ), Moment boot v → v.Peer i → Intact (v.slots i) :=
  fun h => by
  have hintact := h _ overtaken 1 (.top run_overtaken) ⟨by decide, by decide, by decide⟩
  have hkept := (hintact.kept (by decide)).length_le
  have hheld : (overtaken.slots 1).held.length = 0 := by decide
  have hput : (puts (overtaken.slots 1).wire.history).length = 24 := by decide
  have hacc : (accepted (overtaken.slots 1).wire.history).length = 10 := by decide
  rw [List.length_drop, hput, hacc, hheld] at hkept
  exact absurd hkept (by decide)

end Xdbd
