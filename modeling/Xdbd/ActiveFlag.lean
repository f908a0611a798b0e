import Xdbd.SelectRuns

/-!
# The active flag

`active` is set when an event enters `event_index`, and the deletion leaves it as it is. As long as
nothing is deleted it says whether the event is registered, and the callers that go by it arm their
events.
-/
namespace Xdbd
namespace World

variable {w w' : World}

/-- A call on the events of the table, a change of a `ready` bit, or a connection taken anew. -/
inductive EventCall
  | addEvent (ev : Ev) (d : Dir)
  | delEvent (ev : Ev) (d : Dir)
  | handleReadEvent (ev : Ev) (closeEvent : Bool)
  | handleWriteEvent (ev : Ev)
  | setReady (ev : Ev) (ready : Bool)
  | take (i : ℕ) (s : ℤ)

namespace EventCall

def run (w : World) : EventCall → World
  | addEvent ev d => (w.selectAddEvent ev d).2
  | delEvent ev d => (w.selectDelEvent ev d).2
  | handleReadEvent ev closeEvent => (w.handleReadEvent ev closeEvent).2
  | handleWriteEvent ev => (w.handleWriteEvent ev).2
  | setReady ev ready => w.modEvent ev fun e => { e with ready := ready }
  | take i s => w.modSlot i fun slot =>
      ⟨Connection.zero s, Event.zero, { Event.zero with write := true }, slot.wire⟩

/-- The event is one of the table, and a connection is taken only while it is idle. -/
def Valid (w : World) : EventCall → Prop
  | addEvent ev _ | delEvent ev _ | handleReadEvent ev _ | handleWriteEvent ev | setReady ev _ =>
    ev ∈ w.tableEvents
  | take i _ => ∀ e ∈ w.registered, e.slot ≠ i

/-- A registered event is deleted: by its owner, by `xdbd_handle_read_event` when it was asked to
close, or by `xdbd_handle_write_event` when the event is ready. -/
def Deletes (w : World) : EventCall → Prop
  | delEvent ev _ => ev ∈ w.registered
  | handleReadEvent ev closeEvent =>
    (w.event ev).active = false ∧ (w.event ev).ready = false ∧ closeEvent = true
  | handleWriteEvent ev => (w.event ev).active = true ∧ (w.event ev).ready = true
  | _ => False

end EventCall

/-- The states after any number of calls that satisfy `P`, from fresh events on. -/
inductive EventRun (P : World → EventCall → Prop) : World → Prop
  | init {v : World}
      (fresh : ∀ e ∈ v.tableEvents, (v.event e).index = none ∧ (v.event e).active = false)
      (empty : v.nevents = 0) : EventRun P v
  | step {v : World} {call : EventCall} (prior : EventRun P v) (valid : call.Valid v)
      (keeps : P v call) : EventRun P (call.run v)

/-- The flag agrees with the index. -/
def ActiveAgrees (w : World) : Prop :=
  ∀ e ∈ w.tableEvents, (w.event e).active = true ↔ e ∈ w.registered

/-- The two functions succeed, and an event that is not ready is registered after them. -/
structure Arms (w : World) : Prop where
  handleRead : ∀ ev ∈ w.tableEvents, ∀ closeEvent, (w.handleReadEvent ev closeEvent).1 = .ok
  handleWrite : ∀ ev ∈ w.tableEvents, (w.handleWriteEvent ev).1 = .ok
  readRegisters : ∀ ev ∈ w.tableEvents, (w.event ev).ready = false →
    ev ∈ (w.handleReadEvent ev false).2.registered
  writeRegisters : ∀ ev ∈ w.tableEvents, (w.event ev).ready = false →
    ev ∈ (w.handleWriteEvent ev).2.registered

structure Agreeing (w : World) : Prop where
  dense : DenseIndex.Valid w.tableEvents w.eventIndex w.nevents fun e => (w.event e).index
  agrees : w.ActiveAgrees

namespace Agreeing

lemma registered_iff (h : Agreeing w) {e : Ev} (he : e ∈ w.tableEvents) :
    e ∈ w.registered ↔ (w.event e).index ≠ none := h.dense.mem_iff he

lemma index_none (h : Agreeing w) {e : Ev} (he : e ∈ w.tableEvents)
    (ha : (w.event e).active = false) : (w.event e).index = none := by
  by_contra hn
  rw [(h.agrees e he).mpr ((h.registered_iff he).mpr hn)] at ha
  cases ha

lemma entered (h : Agreeing w) {ev : Ev} (hev : ev ∈ w.tableEvents)
    (hi : (w.event ev).index = none) (d : Dir) : Agreeing (w.entered ev d) where
  dense := dense_entered h.dense hev hi d
  agrees e he := by
    rw [mem_registered_entered, event_entered]
    split_ifs with hee
    · exact iff_of_true rfl (.inl hee)
    · rw [or_iff_right hee]
      exact h.agrees e he

lemma removed (h : Agreeing w) {ev : Ev} (hev : ev ∈ w.tableEvents) {k : ℕ}
    (hi : (w.event ev).index = some k) (d : Dir) : ¬ ActiveAgrees (w.removed ev k d) := fun hc => by
  obtain ⟨hkn, hka⟩ := h.dense.found ev hev k hi
  have hactive := (h.agrees ev hev).mpr ((h.registered_iff hev).mpr (by simp [hi]))
  have hmem := (hc ev hev).mp (by rw [event_removed, if_pos rfl]; exact hactive)
  exact ((h.dense.mem_members_remove hkn hka (eventIndex_removed ev k d)).mp hmem).1 rfl

lemma addEvent (h : Agreeing w) {ev : Ev} (hev : ev ∈ w.tableEvents) (d : Dir) :
    Agreeing (w.selectAddEvent ev d).2 := by
  by_cases hi : (w.event ev).index = none
  · rw [selectAddEvent_eq d hi]
    exact h.entered hev hi d
  · rw [selectAddEvent_of_mem d hi]
    exact h

lemma handleReadEvent_eq (h : Agreeing w) {ev : Ev} (hev : ev ∈ w.tableEvents) (closeEvent : Bool) :
    w.handleReadEvent ev closeEvent =
      if (w.event ev).active = false ∧ (w.event ev).ready = false then
        if closeEvent then (.ok, (w.entered ev .read).removed ev w.nevents .read)
        else (.ok, w.entered ev .read)
      else (.ok, w) := by
  unfold World.handleReadEvent
  by_cases hc : (w.event ev).active = false ∧ (w.event ev).ready = false
  · rw [if_pos hc, if_pos hc, selectAddEvent_eq .read (h.index_none hev hc.1)]
    have hevent : (w.entered ev .read).event ev = enter w.nevents (w.event ev) := by
      rw [event_entered, if_pos rfl]
      rfl
    simp only [hevent]
    have hready : (enter w.nevents (w.event ev)).ready = false := hc.2
    have hactive : (enter w.nevents (w.event ev)).active = true := rfl
    cases closeEvent with
    | false => simp [hready]
    | true =>
      have hidx : ((w.entered ev .read).event ev).index = some w.nevents := by
        rw [hevent]
        rfl
      rw [selectDelEvent_eq .read hidx]
      simp [hactive]
  · rw [if_neg hc, if_neg hc]

lemma handleWriteEvent_eq (h : Agreeing w) {ev : Ev} (hev : ev ∈ w.tableEvents) :
    (∃ k, (w.event ev).index = some k ∧ (w.event ev).active = true ∧ (w.event ev).ready = true ∧
        w.handleWriteEvent ev = (.ok, w.removed ev k .write)) ∨
      ¬ ((w.event ev).active = true ∧ (w.event ev).ready = true) ∧ w.handleWriteEvent ev =
        (.ok, if (w.event ev).active = false ∧ (w.event ev).ready = false then w.entered ev .write
          else w) := by
  unfold World.handleWriteEvent
  by_cases hc : (w.event ev).active = false ∧ (w.event ev).ready = false
  · rw [if_pos hc, if_pos hc, selectAddEvent_eq .write (h.index_none hev hc.1)]
    refine .inr ⟨fun ha => ?_, rfl⟩
    rw [hc.1] at ha
    cases ha.1
  · rw [if_neg hc, if_neg hc]
    by_cases hd : (w.event ev).active = true ∧ (w.event ev).ready = true
    · obtain ⟨k, hk⟩ := Option.ne_none_iff_exists'.mp
        ((h.registered_iff hev).mp ((h.agrees ev hev).mp hd.1))
      rw [if_pos hd, selectDelEvent_eq .write hk]
      exact .inl ⟨k, hk, hd.1, hd.2, rfl⟩
    · rw [if_neg hd]
      exact .inr ⟨hd, rfl⟩

lemma setReady (h : Agreeing w) (ev : Ev) (ready : Bool) :
    Agreeing (w.modEvent ev fun e => { e with ready := ready }) := by
  have hevent : ∀ e, ((w.modEvent ev fun e => { e with ready := ready }).event e).index =
      (w.event e).index ∧ ((w.modEvent ev fun e => { e with ready := ready }).event e).active =
        (w.event e).active := by
    intro e
    rw [event_modEvent]
    split_ifs with he
    · rw [he]
      exact ⟨rfl, rfl⟩
    · exact ⟨rfl, rfl⟩
  refine ⟨h.dense.congr fun e _ => (hevent e).1, fun e he => ?_⟩
  rw [(hevent e).2]
  exact h.agrees e he

lemma take (h : Agreeing w) {i : ℕ} (s : ℤ) (hi : ∀ e ∈ w.registered, e.slot ≠ i) :
    Agreeing ((EventCall.take i s).run w) := by
  have hevent : ∀ e, (((EventCall.take i s).run w).event e).index = none ∧
      (((EventCall.take i s).run w).event e).active = false ∧ e.slot = i ∨
      e.slot ≠ i ∧ ((EventCall.take i s).run w).event e = w.event e := by
    intro e
    cases e with
    | read j | write j =>
      by_cases hj : j = i
      · subst hj
        left
        simp only [EventCall.run, event, slots_modSlot, if_true]
        exact ⟨rfl, rfl, rfl⟩
      · right
        simp only [EventCall.run, event, slots_modSlot, if_neg hj]
        exact ⟨hj, trivial⟩
  have hnone : ∀ e ∈ w.tableEvents, e.slot = i → (w.event e).index = none := fun e he hs =>
    not_not.mp fun hn => hi e ((h.registered_iff he).mpr hn) hs
  refine ⟨h.dense.congr fun e he => ?_, fun e he => ?_⟩
  · rcases hevent e with ⟨hn, -, hs⟩ | ⟨-, hs⟩
    · exact hn.trans (hnone e he hs).symm
    · rw [hs]
  · rcases hevent e with ⟨-, ha, hs⟩ | ⟨-, hs⟩
    · rw [ha]
      exact iff_of_false Bool.false_ne_true fun hm => hi e hm hs
    · rw [hs]
      exact h.agrees e he

theorem run_iff (h : Agreeing w) {call : EventCall} (hv : call.Valid w) :
    ((call.run w).ActiveAgrees ↔ ¬ call.Deletes w) ∧
    (¬ call.Deletes w → Agreeing (call.run w)) := by
  have hkeep : Agreeing (call.run w) → ¬ call.Deletes w →
      ((call.run w).ActiveAgrees ↔ ¬ call.Deletes w) ∧ (¬ call.Deletes w → Agreeing (call.run w)) :=
    fun ha hd => ⟨iff_of_true ha.agrees hd, fun _ => ha⟩
  cases call with
  | addEvent ev d => exact hkeep (h.addEvent hv d) id
  | setReady ev ready => exact hkeep (h.setReady ev ready) id
  | take i s => exact hkeep (h.take s hv) id
  | delEvent ev d =>
    cases hi : (w.event ev).index with
    | none =>
      have hw : (EventCall.delEvent ev d).run w = w :=
        congrArg Prod.snd (selectDelEvent_of_notMem d hi)
      refine hkeep (by rw [hw]; exact h) fun hm => (h.registered_iff hv).mp hm hi
    | some k =>
      have hw : (EventCall.delEvent ev d).run w = w.removed ev k d :=
        congrArg Prod.snd (selectDelEvent_eq d hi)
      have hm : ev ∈ w.registered := (h.registered_iff hv).mpr (by simp [hi])
      refine ⟨iff_of_false (by rw [hw]; exact h.removed hv hi d) (not_not_intro hm), fun hd => ?_⟩
      exact absurd hm hd
  | handleReadEvent ev closeEvent =>
    have hw : (EventCall.handleReadEvent ev closeEvent).run w = _ :=
      congrArg Prod.snd (h.handleReadEvent_eq hv closeEvent)
    rw [hw]
    by_cases hc : (w.event ev).active = false ∧ (w.event ev).ready = false
    · have hin := h.index_none hv hc.1
      rw [if_pos hc]
      cases closeEvent with
      | false =>
        have hd : ¬ (EventCall.handleReadEvent ev false).Deletes w := fun hd => by cases hd.2.2
        exact ⟨iff_of_true (h.entered hv hin .read).agrees hd, fun _ => h.entered hv hin .read⟩
      | true =>
        have hd : (EventCall.handleReadEvent ev true).Deletes w := ⟨hc.1, hc.2, rfl⟩
        refine ⟨iff_of_false ?_ (not_not_intro hd), fun hn => absurd hd hn⟩
        refine (h.entered hv hin .read).removed hv ?_ .read
        rw [event_entered, if_pos rfl]
    · have hd : ¬ (EventCall.handleReadEvent ev closeEvent).Deletes w := fun hd => hc ⟨hd.1, hd.2.1⟩
      rw [if_neg hc]
      exact ⟨iff_of_true h.agrees hd, fun _ => h⟩
  | handleWriteEvent ev =>
    rcases h.handleWriteEvent_eq hv with ⟨k, hk, ha, hr, heq⟩ | ⟨hd, heq⟩
    · have hw : (EventCall.handleWriteEvent ev).run w = _ := congrArg Prod.snd heq
      have hd : (EventCall.handleWriteEvent ev).Deletes w := ⟨ha, hr⟩
      rw [hw]
      exact ⟨iff_of_false (h.removed hv hk .write) (not_not_intro hd), fun hn => absurd hd hn⟩
    · have hw : (EventCall.handleWriteEvent ev).run w = _ := congrArg Prod.snd heq
      have hkept : Agreeing ((EventCall.handleWriteEvent ev).run w) := by
        rw [hw]
        show Agreeing (if _ then _ else _)
        split_ifs with hc
        · exact h.entered hv (h.index_none hv hc.1) .write
        · exact h
      exact hkeep hkept hd

theorem arms (h : Agreeing w) : Arms w where
  handleRead ev hev closeEvent := by
    rw [h.handleReadEvent_eq hev]
    split_ifs <;> rfl
  handleWrite ev hev := by
    rcases h.handleWriteEvent_eq hev with ⟨k, -, -, -, heq⟩ | ⟨-, heq⟩ <;> rw [heq]
  readRegisters ev hev hr := by
    rw [h.handleReadEvent_eq hev]
    by_cases hc : (w.event ev).active = false ∧ (w.event ev).ready = false
    · rw [if_pos hc]
      exact (mem_registered_entered ev .read ev).mpr (.inl rfl)
    · rw [if_neg hc]
      exact (h.agrees ev hev).mp (Bool.eq_true_of_not_eq_false fun ha => hc ⟨ha, hr⟩)
  writeRegisters ev hev hr := by
    rcases h.handleWriteEvent_eq hev with ⟨k, -, -, hr', -⟩ | ⟨-, heq⟩
    · rw [hr] at hr'
      cases hr'
    · rw [heq]
      show ev ∈ World.registered (if _ then _ else _)
      split_ifs with hc
      · exact (mem_registered_entered ev .write ev).mpr (.inl rfl)
      · exact (h.agrees ev hev).mp (Bool.eq_true_of_not_eq_false fun ha => hc ⟨ha, hr⟩)

end Agreeing

lemma EventRun.agreeing (h : EventRun (fun w call => ¬ call.Deletes w) w) : Agreeing w := by
  induction h with
  | init fresh empty =>
    rename_i w
    refine ⟨?_, fun e he => ?_⟩
    · rw [empty]
      exact .empty _ _ fun e he => (fresh e he).1
    · rw [(fresh e he).2, registered_of_zero empty]
      simp
  | step prior valid keeps ih => exact (ih.run_iff valid).2 keeps

/-- In every run that deletes no registered event the flag agrees with the index and events can be
armed; and the next call keeps it so exactly if it deletes nothing either. -/
theorem EventRun.active_iff_registered (h : EventRun (fun w call => ¬ call.Deletes w) w) :
    w.ActiveAgrees ∧ w.Arms ∧
      ∀ call : EventCall, call.Valid w → ((call.run w).ActiveAgrees ↔ ¬ call.Deletes w) :=
  ⟨h.agreeing.agrees, h.agreeing.arms, fun _ hv => (h.agreeing.run_iff hv).1⟩

def oneConnection : World where
  slots := fun _ => ⟨Connection.zero 5, Event.zero, { Event.zero with write := true }, Wire.fresh⟩
  connectionN := 1
  freeConnections := none
  freeConnectionN := 0
  listening := []
  postedAcceptEvents := []
  postedEvents := []
  masterRead := ∅
  masterWrite := ∅
  maxFd := 0
  nevents := 0
  eventIndex := fun _ => .write 0
  openFds := {5}
  boundFds := ∅
  livePools := ∅
  nextPool := 0
  fdArgs := ∅
  issued := ∅

theorem EventRun.active_iff_registered_add :
    ((EventCall.addEvent (.read 0) .read).run oneConnection).ActiveAgrees :=
  (EventRun.active_iff_registered (.step (.init (fun e _ => by cases e <;> exact ⟨rfl, rfl⟩) rfl)
    (show (EventCall.addEvent (.read 0) .read).Valid oneConnection from Nat.one_pos) id)).1

/-- A read event was added and deleted: it is active, and can no longer be registered. -/
theorem active_drifts_deleted :
    ¬ ∀ w, EventRun (fun _ _ => True) w → w.ActiveAgrees ∧ w.Arms := fun h => by
  have hrun : EventRun (fun _ _ => True) ((EventCall.delEvent (.read 0) .read).run
      ((EventCall.addEvent (.read 0) .read).run oneConnection)) :=
    .step (.step (.init (fun e _ => by cases e <;> exact ⟨rfl, rfl⟩) rfl)
      (show (EventCall.addEvent (.read 0) .read).Valid oneConnection from Nat.one_pos) trivial)
        Nat.one_pos trivial
  have := ((h _ hrun).1 (.read 0) Nat.one_pos).mp (by decide)
  exact absurd this (by decide)

end World
end Xdbd
