import Xdbd.Descriptors
import Xdbd.Progress

/-!
# The registry of the select module

Any sequence of calls of the select module on the events of the slots that were handed out, by
callers that give a connection another descriptor only while neither of its events is registered.
The daemon is such a caller, so its registry is consistent in every state. The events of the other
slots are as the memory of the tables was when they were allocated.
-/
namespace Xdbd
open Interaction World

namespace World
variable {w w' : World} {free : List ℕ}

def tableEvents (w : World) : Set Ev := { e | e.slot < w.connectionN }

def issuedEvents (w : World) : Set Ev := { e | e.slot ∈ w.issued }

/-- Between two calls of the select module the registered events keep their descriptors, and the
events of the slots handed out their places. -/
structure SelectFrame (w w' : World) : Prop where
  connectionN : w'.connectionN = w.connectionN
  issued : w'.issued = w.issued
  eventIndex : w'.eventIndex = w.eventIndex
  nevents : w'.nevents = w.nevents
  masterRead : w'.masterRead = w.masterRead
  masterWrite : w'.masterWrite = w.masterWrite
  maxFd : w'.maxFd = w.maxFd
  index : ∀ e ∈ w.issuedEvents, (w'.event e).index = (w.event e).index
  write : ∀ e ∈ w.issuedEvents, (w'.event e).write = (w.event e).write
  fd : ∀ e ∈ w.registered, w'.fd e = w.fd e

/-- One call of the select module, a slot that is handed out, or something else. -/
inductive SelectStep (w : World) : World → Prop
  | add (ev : Ev) (issued : ev ∈ w.issuedEvents) (range : 0 ≤ w.fd ev ∧ w.fd ev < fdSetSize)
      (distinct : ∀ e ∈ w.registered, e.slot ≠ ev.slot → w.fd e ≠ w.fd ev) :
      SelectStep w (w.selectAddEvent ev ev.dir).2
  | del (ev : Ev) (issued : ev ∈ w.issuedEvents) : SelectStep w (w.selectDelEvent ev ev.dir).2
  | process (kernel : Kernel) (contract : w.SelectContract kernel)
      (success : (w.selectProcessEvents kernel).1 = .ok) :
      SelectStep w (w.selectProcessEvents kernel).2
  | handOut {w' : World} {s : ℤ} {i : ℕ} (success : w.getConnection s = .ok (some i, w'))
      (table : i < w.connectionN) (idle : ∀ e ∈ w.registered, e.slot ≠ i) : SelectStep w w'
  | frame {w' : World} (frame : SelectFrame w w') : SelectStep w w'

/-- The registry over the events of the slots handed out. -/
structure SelectState (w : World) : Prop where
  registry : Registry w.issuedEvents w
  inTable : ∀ i ∈ w.issued, i < w.connectionN
  above : ∀ e ∈ w.registered, -1 ≤ w.fd e

/-- The registry, and what its callers keep. -/
structure Selecting (w : World) : Prop where
  registry : Registry w.issuedEvents w
  inTable : ∀ i ∈ w.issued, i < w.connectionN
  write : ∀ e ∈ w.issuedEvents, (w.event e).write = decide (e.dir = .write)
  range : ∀ e ∈ w.registered, 0 ≤ w.fd e
  distinct : ∀ e ∈ w.registered, ∀ e' ∈ w.registered, w.fd e = w.fd e' → e.slot = e'.slot

lemma ext_slot_dir {e e' : Ev} (hs : e.slot = e'.slot) (hd : e.dir = e'.dir) : e = e' := by
  cases e <;> cases e' <;> simp_all [Ev.slot, Ev.dir]

namespace Selecting

lemma state (h : Selecting w) : SelectState w :=
  ⟨h.registry, h.inTable, fun e he => by have := h.range e he; omega⟩

lemma distinctFds (h : Selecting w) : w.DistinctFds :=
  fun e he e' he' hd hfd _ => ext_slot_dir (h.distinct e he e' he' hfd) hd

lemma dirFlags (h : Selecting w) : w.DirFlags :=
  fun e he => h.write e (h.registry.dense.mem_dom he)

lemma init {arr : ℕ → Ev} (unissued : w.issued = ∅)
    (h : w.selectInit (some arr) = .ok (.ok, w')) : Selecting w' := by
  unfold selectInit at h
  split_ifs at h with hn
  have hw : w' = { w with masterRead := ∅, masterWrite := ∅, eventIndex := arr, maxFd := -1 } :=
    (Prod.ext_iff.mp (Except.ok.inj h)).2.symm
  have hzero : w'.nevents = 0 := by
    rw [hw]
    exact not_not.mp hn
  have hissued : ∀ i, i ∉ w'.issued := fun i hi => by
    rw [hw] at hi
    exact absurd (unissued ▸ hi) (Finset.notMem_empty i)
  have hempty := registered_of_zero hzero
  refine ⟨.empty (fun e he => absurd he (hissued _)) hzero ?_ ?_ ?_,
    fun i hi => absurd hi (hissued i),
    fun e he => absurd he (hissued _), ?_, ?_⟩
  · rw [hw]
  · rw [hw]
  · rw [hw]
  · simp [hempty]
  · simp [hempty]

lemma add (h : Selecting w) {ev : Ev} (hev : ev ∈ w.issuedEvents) (hrange : 0 ≤ w.fd ev)
    (hdist : ∀ e ∈ w.registered, e.slot ≠ ev.slot → w.fd e ≠ w.fd ev) :
    Selecting (w.selectAddEvent ev ev.dir).2 := by
  by_cases hi : (w.event ev).index = none
  swap
  · rw [selectAddEvent_of_mem _ hi]
    exact h
  rw [selectAddEvent_eq _ hi]
  show Selecting (w.entered ev ev.dir)
  have hmem := @mem_registered_entered w ev ev.dir
  refine ⟨h.registry.entered hev hi, h.inTable, fun e he => ?_, fun e he => ?_,
    fun e he e' he' hfd => ?_⟩
  · rw [event_entered]
    split_ifs with hee
    · rw [hee]
      exact h.write ev hev
    · exact h.write e he
  · rw [fd_entered]
    rcases (hmem e).mp he with rfl | he
    · exact hrange
    · exact h.range e he
  · rw [fd_entered, fd_entered] at hfd
    rcases (hmem e).mp he with h1 | h1 <;> rcases (hmem e').mp he' with h2 | h2
    · rw [h1, h2]
    · rw [h1] at hfd ⊢
      exact by_contra fun hs => hdist e' h2 (Ne.symm hs) hfd.symm
    · rw [h2] at hfd ⊢
      exact by_contra fun hs => hdist e h1 hs hfd
    · exact h.distinct e h1 e' h2 hfd

lemma del (h : Selecting w) {ev : Ev} (hev : ev ∈ w.issuedEvents) :
    Selecting (w.selectDelEvent ev ev.dir).2 := by
  cases hi : (w.event ev).index with
  | none =>
    rw [selectDelEvent_of_notMem _ hi]
    exact h
  | some k =>
    rw [selectDelEvent_eq _ hi]
    show Selecting (w.removed ev k ev.dir)
    have hmem := h.registry.mem_removed hev hi ev.dir
    have hreg : ev ∈ w.registered := (h.registry.mem_iff hev).mpr (by simp [hi])
    refine ⟨h.registry.removed hev hi fun e he hd hfd => ?_, h.inTable, fun e he => ?_,
      fun e he => ?_,
      fun e he e' he' hfd => ?_⟩
    · exact ext_slot_dir (h.distinct e he ev hreg hfd) hd
    · rw [event_removed]
      split_ifs
      · exact h.write e he
      · exact h.write e he
      · exact h.write e he
    · rw [fd_removed]
      exact h.range e ((hmem e).mp he).2
    · rw [fd_removed, fd_removed] at hfd
      exact h.distinct e ((hmem e).mp he).2 e' ((hmem e').mp he').2 hfd

lemma frame (h : Selecting w) (hf : SelectFrame w w') : Selecting w' := by
  have hreg : w'.registered = w.registered := by
    rw [registered, registered, hf.nevents, hf.eventIndex]
  have hdom : w'.issuedEvents = w.issuedEvents := by rw [issuedEvents, issuedEvents, hf.issued]
  refine ⟨?_, ?_, fun e he => ?_, fun e he => ?_, fun e he e' he' hfd => ?_⟩
  · rw [hdom]
    exact h.registry.congr hf.index hf.fd hf.eventIndex hf.nevents hf.masterRead hf.masterWrite
      hf.maxFd
  · rw [hf.issued, hf.connectionN]
    exact h.inTable
  · rw [hdom] at he
    rw [hf.write e he]
    exact h.write e he
  · rw [hreg] at he
    rw [hf.fd e he]
    exact h.range e he
  · rw [hreg] at he he'
    rw [hf.fd e he, hf.fd e' he'] at hfd
    exact h.distinct e he e' he' hfd

lemma posted (h : Selecting w) (l F : List Ev) : Selecting (w.refreshMaxFd.scanned l F) := by
  have hconn : ∀ j, ((w.refreshMaxFd.scanned l F).slots j).conn = (w.slots j).conn := fun j => by
    show (w.refreshMaxFd.slots j).conn = _
    rw [slots_refreshMaxFd]
  have hevent : ∀ e, ((w.refreshMaxFd.scanned l F).event e).index = (w.event e).index ∧
      ((w.refreshMaxFd.scanned l F).event e).write = (w.event e).write := fun e => by
    have he : (w.refreshMaxFd.scanned l F).event e = (w.refreshMaxFd.posted F).event e := by
      cases e <;> rfl
    rw [he, event_posted, event_congr (slots_refreshMaxFd w)]
    split_ifs <;> exact ⟨rfl, rfl⟩
  -- the refreshed `max_fd` is the only change of the registry itself
  have hrefresh : Selecting w.refreshMaxFd := by
    obtain ⟨m, hm⟩ := w.refreshMaxFd_eq
    have hreg := h.registry.refreshMaxFd
    rw [hm] at hreg ⊢
    exact ⟨hreg, h.inTable, h.write, h.range, h.distinct⟩
  exact hrefresh.frame {
    connectionN := rfl
    issued := rfl
    eventIndex := rfl
    nevents := rfl
    masterRead := rfl
    masterWrite := rfl
    maxFd := rfl
    index := fun e _ => by rw [(hevent e).1, event_congr (slots_refreshMaxFd w)]
    write := fun e _ => by rw [(hevent e).2, event_congr (slots_refreshMaxFd w)]
    fd := fun e _ => by rw [fd_congr (hconn e.slot), fd_congr (by rw [slots_refreshMaxFd])] }

lemma process (h : Selecting w) {kernel : Kernel} (hk : w.SelectContract kernel)
    (hok : (w.selectProcessEvents kernel).1 = .ok) :
    Selecting (w.selectProcessEvents kernel).2 := by
  cases hsel : kernel.select w.nfds w.masterRead w.masterWrite with
  | fail ebadf =>
    rw [selectProcessEvents_fail hsel] at hok
    cases hok
  | ready n readSet writeSet =>
    by_cases hn : n = 0
    · rw [hn] at hsel
      rw [selectProcessEvents_zero hsel] at hok
      cases hok
    · rw [h.registry.selectProcessEvents h.distinctFds h.dirFlags hk hn hsel]
      exact h.posted _ _

lemma handOut (h : Selecting w) {s : ℤ} {i : ℕ} (hok : w.getConnection s = .ok (some i, w'))
    (htable : i < w.connectionN) (hidle : ∀ e ∈ w.registered, e.slot ≠ i) : Selecting w' := by
  obtain ⟨next, rfl⟩ : ∃ next, w' = w.handOut i next s := by
    unfold getConnection at hok
    split at hok
    · cases hok
    · split at hok
      · cases hok
      · cases hok
        exact ⟨_, rfl⟩
  have hreg : (w.handOut i next s).registered = w.registered := rfl
  have hissued : ∀ j, j ∈ (w.handOut i next s).issued ↔ j = i ∨ j ∈ w.issued := fun _ =>
    Finset.mem_insert
  have hfd : ∀ e ∈ w.registered, (w.handOut i next s).fd e = w.fd e := fun e he =>
    fd_congr (by rw [slots_handOut, if_neg (hidle e he)])
  have hself : ∀ e : Ev, e.slot = i → ((w.handOut i next s).event e).index = none ∧
      ((w.handOut i next s).event e).write = decide (e.dir = .write) := by
    rintro (j | j) (rfl : j = i)
    all_goals
      simp only [event, slots_handOut, if_true]
      exact ⟨rfl, rfl⟩
  -- over the slots handed out before, the indices are the same
  have hold : Registry w.issuedEvents (w.handOut i next s) := by
    refine h.registry.congr (fun e he => ?_) hfd rfl rfl rfl rfl rfl
    by_cases hei : e.slot = i
    · rw [(hself e hei).1]
      exact (by_contra fun hn => hidle e ((h.registry.mem_iff he).mpr (Ne.symm hn)) hei)
    · rw [event_handOut hei]
  refine ⟨hold.grow (fun e he => (hissued _).mpr (.inr he)) fun e he hne => ?_, fun j hj => ?_,
    fun e he => ?_, fun e he => ?_, fun e he e' he' hee => ?_⟩
  · exact (hself e (((hissued _).mp he).resolve_right hne)).1
  · rcases (hissued j).mp hj with rfl | hj
    · exact htable
    · exact h.inTable j hj
  · by_cases hei : e.slot = i
    · exact (hself e hei).2
    · rw [event_handOut hei]
      exact h.write e (((hissued _).mp he).resolve_left hei)
  · rw [hfd e he]
    exact h.range e he
  · rw [hfd e he, hfd e' he'] at hee
    exact h.distinct e he e' he' hee

end Selecting

theorem SelectStep.preserves (h : Selecting w) (hs : SelectStep w w') : Selecting w' := by
  cases hs with
  | add ev issued range distinct => exact h.add issued range.1 distinct
  | del ev issued => exact h.del issued
  | process kernel contract success => exact h.process contract success
  | handOut success table idle => exact h.handOut success table idle
  | frame hf => exact h.frame hf

end World

/-! ## The runs of the daemon -/

variable {boot : Boot} {v w : World}

lemma unwritten_preserved : Prog.Preserves Slot.exec fun s => s.write.index = none := by
  intro op s r t hs hrun
  cases op with
  | slot o =>
    have hf : SameFrame s t := SlotOp.exec_frame hrun
    rw [hf.write]
    exact hs
  | handleReadEvent flags =>
    have ht : t = (s.handleReadEvent (flags % 2 = 1)).2 :=
      congrArg Prod.snd (Except.ok.inj hrun).symm
    rw [ht]
    unfold Slot.handleReadEvent Slot.addRead Slot.delRead
    split_ifs <;> exact hs
  | delReadEvent =>
    have ht : t = s.delRead.2 := congrArg Prod.snd (Except.ok.inj hrun).symm
    rw [ht]
    unfold Slot.delRead
    split_ifs <;> exact hs
  | closeConnection =>
    simp only [Slot.exec] at hrun
    split_ifs at hrun
    cases hrun
    show (if s.write.active then none else s.write.index) = none
    split_ifs
    · rfl
    · exact hs

/-- The events of a connection that is closed are not registered. -/
def Slot.Unlisted (s : Slot) : Prop :=
  s.conn.destroyed = true → s.read.index = none ∧ s.write.index = none

lemma Slot.Unlisted.of_norm {s : Slot} (h : s.norm.Unlisted) : s.Unlisted := fun hd =>
  ⟨(Event.norm_index_none _).mp (h hd).1, (Event.norm_index_none _).mp (h hd).2⟩

lemma Slot.Unlisted.congr {s t : Slot} (h : s.Unlisted) (hc : t.conn = s.conn)
    (hr : t.read.index = s.read.index) (hw : t.write.index = s.write.index) : t.Unlisted := by
  unfold Slot.Unlisted
  rw [hc, hr, hw]
  exact h

lemma Slot.Open.unlisted {s t : Slot} (h : s.Open) (hw : s.write.index = none) {hd : AdbHandler}
    (ht : t ∈ Prog.states Slot.exec (code hd) s) : t.Unlisted := fun hdead => by
  obtain ⟨-, hread⟩ := open_preserved.states (code hd) ⟨h.active, .inr h⟩ t ht
  refine ⟨hread.resolve_right fun ho => ?_, unwritten_preserved.states (code hd) hw t ht⟩
  exact absurd (ho.alive.symm.trans hdead) (by simp)

namespace World

lemma Frame.unlisted {i : ℕ} (hf : Frame i v w) (hv : ∀ j ∈ v.issued, (v.slots j).Unlisted)
    (hi : (w.slots i).Unlisted) : ∀ j ∈ w.issued, (w.slots j).Unlisted := fun j hj => by
  by_cases hji : j = i
  · exact hji ▸ hi
  · refine .of_norm ?_
    rw [(hf.others j hji).norm]
    exact fun hd => ⟨(Event.norm_index_none _).mpr (hv j (hf.issued ▸ hj) hd).1,
      (Event.norm_index_none _).mpr (hv j (hf.issued ▸ hj) hd).2⟩

lemma unlisted_delete {i : ℕ} (h : ∀ j ∈ w.issued, (w.slots j).Unlisted) :
    ∀ j ∈ (w.deletePostedEvent (.read i)).issued,
      ((w.deletePostedEvent (.read i)).slots j).Unlisted := fun j hj => by
  rw [slots_deletePostedEvent]
  split_ifs with hji
  · exact hji ▸ (h j hj).congr rfl rfl rfl
  · exact h j hj

end World

lemma unlisted_run : RunInvariant boot fun w => ∀ i ∈ w.issued, (w.slots i).Unlisted where
  accept {w w' free free' l} hj hb hl hacc := by
    refine unlisted_delete fun j hj' => ?_
    obtain ⟨_, he, hlu, -⟩ := hb.accepts _ hl
    obtain rfl := Ev.read.inj he
    by_cases hjl : j = l
    · rw [hjl]
      exact (hj l hlu.1).congr hacc.conn (by rw [hacc.read]) (by rw [hacc.write])
    · by_cases hfresh : j ∈ free ∧ j ∉ free'
      · rcases hacc.fresh j hfresh.1 hfresh.2 with ⟨-, hr, hw⟩ | ⟨a, ls, p, q, k, -, hs⟩
        · exact fun _ => ⟨by rw [hr]; rfl, by rw [hw]; rfl⟩
        · exact fun hd => absurd (hs ▸ hd) (by simp [acceptedSlot, Connection.zero])
      · rw [hacc.others j hjl fun hf => by_contra fun hf' => hfresh ⟨hf, hf'⟩]
        exact hj j (((hacc.issued j).mp hj').resolve_right hfresh)
  handler {w w' free i hd} hj hb hi hhd hframe hrun := by
    obtain ⟨_, he, hp, hf, -⟩ := hb.others _ hi
    obtain rfl := Ev.read.inj he
    have hw : (w.slots i).norm.write.index = none :=
      (Event.norm_index_none _).mpr (hb.table.entry i ⟨hp.issued, hf⟩).writeIndex
    exact unlisted_delete (hframe.unlisted hj
      (.of_norm ((hb.table.open hp hf).unlisted hw (Prog.mem_states hrun))))
  start {w} hs := by
    obtain ⟨-, free, -, -, hr⟩ :=
      @Started.registering boot w (fun _ => True) hs fun _ _ _ _ => trivial
    intro i hi hd
    have halive := (hr.idle.table.entry i ⟨hi, (hr.listeners i hi).1⟩).alive
    exact absurd (halive.symm.trans hd) (by simp)
  feed {w} i x hj j hj' := (hj j hj').congr (conn_feed i x j)
    (congrArg Event.index (event_feed i x (.read j)))
      (congrArg Event.index (event_feed i x (.write j)))
  select {w free kernel} hj hidle hk := by
    have hsel := hidle.selected hk
    generalize (w.selectProcessEvents kernel).2 = v at hsel ⊢
    cases hsel with
    | failed _ hslots hissued _ _ =>
      intro j hj'
      rw [hslots]
      exact hj j (hissued ▸ hj')
    | ready _ _ =>
      intro j hj'
      rw [slots_scanned, slots_refreshMaxFd]
      refine (hj j (w.issued_refreshMaxFd ▸ hj')).congr rfl ?_ ?_ <;> dsimp only <;> split_ifs
        <;> rfl

lemma Moment.unlisted (h : Moment boot v) :
    ∃ free, Table v free ∧ ∀ i ∈ v.issued, (v.slots i).Unlisted := by
  cases h with
  | top run =>
    obtain ⟨⟨free, hidle⟩, hj⟩ := unlisted_run.holds run
    exact ⟨free, hidle.table, hj⟩
  | @inside w _ kernel c run allowed call state =>
    have hc := unlisted_run.called run allowed c call
    obtain ⟨free, hb⟩ := hc.batch
    rcases hb.passed hc.posted state with rfl | ⟨i, hd, s, -, -, hp, hf, -, hlink, hs⟩
    · exact ⟨free, hb.table, hc.holds⟩
    · obtain ⟨free', ht, -⟩ := hlink.table
      have hw : (c.2.slots i).norm.write.index = none :=
        (Event.norm_index_none _).mpr (hb.table.entry i ⟨hp.issued, hf⟩).writeIndex
      refine ⟨free', ht, hlink.frame.unlisted hc.holds (.of_norm ?_)⟩
      rw [← hlink.norm]
      exact (hb.table.open hp hf).unlisted hw hs

end Xdbd
