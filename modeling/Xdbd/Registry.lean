import Xdbd.DenseIndex
import Xdbd.Select

/-!
# The select registry stays consistent

Adding and deleting events keeps the index dense, the master sets equal to the
descriptors of the registered events, and `max_fd` either unknown or largest. `select`
therefore sees every registered descriptor, and the posting loop finds as many events as
`select` reports.
-/
namespace Xdbd

def Ev.dir : Ev → Dir
  | .read _ => .read
  | .write _ => .write

namespace World
variable {w : World}

lemma event_congr {w' : World} (h : w'.slots = w.slots) (e : Ev) : w'.event e = w.event e := by
  cases e <;> simp only [event, h]

/-- An event at position `k` of the registry. -/
def enter (k : ℕ) (e : Event) : Event := { e with active := true, index := some k }

/-- The world after an event was entered into the registry. -/
def entered (w : World) (ev : Ev) (d : Dir) : World :=
  { w.modEvent ev (enter w.nevents) with
    masterRead := if d = .read then insert (w.fd ev) w.masterRead else w.masterRead
    masterWrite := if d = .write then insert (w.fd ev) w.masterWrite else w.masterWrite
    maxFd := if w.maxFd ≠ -1 ∧ w.maxFd < w.fd ev then w.fd ev else w.maxFd
    nevents := w.nevents + 1
    eventIndex := Function.update w.eventIndex w.nevents ev
    fdArgs := insert (w.fd ev) w.fdArgs }

lemma selectAddEvent_eq {ev : Ev} (d : Dir) (h : (w.event ev).index = none) :
    w.selectAddEvent ev d = (.ok, w.entered ev d) := by
  unfold selectAddEvent entered
  rw [if_neg (by simp [h])]
  cases d <;> cases ev <;> simp [fdSet, useFd, modEvent, modSlot, enter] <;> rfl

lemma selectAddEvent_of_mem {ev : Ev} (d : Dir) (h : (w.event ev).index ≠ none) :
    w.selectAddEvent ev d = (.ok, w) := by
  unfold selectAddEvent
  rw [if_pos h]

/-- The events after one of them was taken out: the last registered event takes its place. -/
def moveLast (w : World) (ev : Ev) (k : ℕ) : World :=
  let last := w.eventIndex (w.nevents - 1)
  let moved := if k < w.nevents - 1 then w.modEvent last fun e => { e with index := some k } else w
  moved.modEvent ev fun e => { e with index := none }

/-- The world after the event at position `k` was taken out of the registry. -/
def removed (w : World) (ev : Ev) (k : ℕ) (d : Dir) : World :=
  { w with
    slots := (w.moveLast ev k).slots
    masterRead := if d = .read then w.masterRead.erase (w.fd ev) else w.masterRead
    masterWrite := if d = .write then w.masterWrite.erase (w.fd ev) else w.masterWrite
    maxFd := if w.fd ev = w.maxFd then -1 else w.maxFd
    nevents := w.nevents - 1
    eventIndex := if k < w.nevents - 1
      then Function.update w.eventIndex k (w.eventIndex (w.nevents - 1)) else w.eventIndex
    fdArgs := insert (w.fd ev) w.fdArgs }

lemma selectDelEvent_eq {ev : Ev} {k : ℕ} (d : Dir) (h : (w.event ev).index = some k) :
    w.selectDelEvent ev d = (.ok, w.removed ev k d) := by
  unfold selectDelEvent removed
  simp only [h]
  by_cases hk : k < w.nevents - 1
  · cases d <;> cases ev <;> cases hl : w.eventIndex (w.nevents - 1) <;>
      simp [moveLast, hk, hl, fdClr, useFd, modEvent, modSlot] <;> rfl
  · cases d <;> cases ev <;> simp [moveLast, hk, fdClr, useFd, modEvent, modSlot] <;> rfl

lemma selectDelEvent_of_notMem {ev : Ev} (d : Dir) (h : (w.event ev).index = none) :
    w.selectDelEvent ev d = (.err, w) := by
  unfold selectDelEvent
  rw [h]

@[simp] lemma conn_moveLast (ev : Ev) (k j : ℕ) :
    ((w.moveLast ev k).slots j).conn = (w.slots j).conn := by
  simp only [moveLast, conn_modEvent]
  split_ifs <;> simp

@[simp] lemma wire_moveLast (ev : Ev) (k j : ℕ) :
    ((w.moveLast ev k).slots j).wire = (w.slots j).wire := by
  simp only [moveLast, wire_modEvent]
  split_ifs <;> simp

lemma event_moveLast (ev e : Ev) (k : ℕ) :
    (w.moveLast ev k).event e =
      if e = ev then { w.event e with index := none }
      else if k < w.nevents - 1 ∧ e = w.eventIndex (w.nevents - 1) then
        { w.event e with index := some k }
      else w.event e := by
  unfold moveLast
  by_cases hk : k < w.nevents - 1
  · simp only [hk, if_true, event_modEvent, true_and]
    by_cases h1 : e = ev
    · subst h1
      by_cases h2 : e = w.eventIndex (w.nevents - 1)
      · rw [if_pos rfl, if_pos rfl, if_pos h2, ← h2]
      · rw [if_pos rfl, if_pos rfl, if_neg h2]
    · by_cases h2 : e = w.eventIndex (w.nevents - 1)
      · rw [if_neg h1, if_neg h1, if_pos h2, if_pos h2, ← h2]
      · rw [if_neg h1, if_neg h1, if_neg h2, if_neg h2]
  · simp only [hk, if_false, false_and, event_modEvent]
    by_cases h1 : e = ev
    · rw [if_pos h1, if_pos h1, h1]
    · rw [if_neg h1, if_neg h1]

lemma fd_congr {w' : World} {e : Ev} (h : (w'.slots e.slot).conn = (w.slots e.slot).conn) :
    w'.fd e = w.fd e := by
  unfold fd
  rw [h]

/-! ## The effect of the two calls -/

@[simp] lemma conn_entered (ev : Ev) (d : Dir) (j : ℕ) :
    ((w.entered ev d).slots j).conn = (w.slots j).conn :=
  @conn_modEvent w ev (enter w.nevents) j

lemma event_entered (ev : Ev) (d : Dir) (e : Ev) :
    (w.entered ev d).event e =
      if e = ev then { w.event ev with active := true, index := some w.nevents }
      else w.event e :=
  (event_congr rfl e).trans (event_modEvent ev e (enter w.nevents))

@[simp] lemma fd_entered (ev : Ev) (d : Dir) (e : Ev) : (w.entered ev d).fd e = w.fd e :=
  fd_congr (conn_entered ev d e.slot)

lemma mem_registered_entered (ev : Ev) (d : Dir) (e : Ev) :
    e ∈ (w.entered ev d).registered ↔ e = ev ∨ e ∈ w.registered :=
  DenseIndex.mem_members_push (Function.update_self _ _ _)
    fun k hk => Function.update_of_ne (by omega) _ _

@[simp] lemma conn_removed (ev : Ev) (k : ℕ) (d : Dir) (j : ℕ) :
    ((w.removed ev k d).slots j).conn = (w.slots j).conn := conn_moveLast _ _ _

@[simp] lemma wire_removed (ev : Ev) (k : ℕ) (d : Dir) (j : ℕ) :
    ((w.removed ev k d).slots j).wire = (w.slots j).wire := wire_moveLast _ _ _

lemma event_removed (ev : Ev) (k : ℕ) (d : Dir) (e : Ev) :
    (w.removed ev k d).event e =
      if e = ev then { w.event e with index := none }
      else if k < w.nevents - 1 ∧ e = w.eventIndex (w.nevents - 1) then
        { w.event e with index := some k }
      else w.event e := (event_congr rfl e).trans (event_moveLast ev e k)

@[simp] lemma fd_removed (ev : Ev) (k : ℕ) (d : Dir) (e : Ev) :
    (w.removed ev k d).fd e = w.fd e := fd_congr (conn_removed ev k d e.slot)

lemma eventIndex_removed (ev : Ev) (k : ℕ) (d : Dir) (j : ℕ) (hj : j < w.nevents - 1) :
    (w.removed ev k d).eventIndex j =
      if j = k then w.eventIndex (w.nevents - 1) else w.eventIndex j := by
  unfold removed
  by_cases hk : k < w.nevents - 1
  · simp only [hk, if_true, Function.update_apply]
  · simp only [hk, if_false]
    rw [if_neg (by omega)]

/-- The registry over the events of `dom`, as the select module keeps it. -/
structure Registry (dom : Set Ev) (w : World) : Prop where
  dense : DenseIndex.Valid dom w.eventIndex w.nevents fun e => (w.event e).index
  masterRead : ∀ s, s ∈ w.masterRead ↔ ∃ i, .read i ∈ w.registered ∧ w.fd (.read i) = s
  masterWrite : ∀ s, s ∈ w.masterWrite ↔ ∃ i, .write i ∈ w.registered ∧ w.fd (.write i) = s
  maxFd : w.maxFd ≠ -1 →
    (∃ e ∈ w.registered, w.fd e = w.maxFd) ∧ ∀ e ∈ w.registered, w.fd e ≤ w.maxFd

variable {dom : Set Ev}

lemma Registry.mem_iff (h : Registry dom w) {e : Ev} (he : e ∈ dom) :
    e ∈ w.registered ↔ (w.event e).index ≠ none := h.dense.mem_iff he

lemma registered_of_zero (hn : w.nevents = 0) : w.registered = [] := by
  simp [registered, hn]

lemma Registry.empty (hidx : ∀ e ∈ dom, (w.event e).index = none) (hn : w.nevents = 0)
    (hr : w.masterRead = ∅) (hw : w.masterWrite = ∅) (hm : w.maxFd = -1) : Registry dom w := by
  have hreg : ∀ e, e ∉ w.registered := by simp [registered_of_zero hn]
  refine ⟨?_, fun s => ?_, fun s => ?_, fun hne => absurd hm hne⟩
  · rw [hn]
    exact DenseIndex.Valid.empty _ _ hidx
  · simp [hr, hreg]
  · simp [hw, hreg]

lemma Registry.congr {w' : World} (h : Registry dom w)
    (hidx : ∀ e ∈ dom, (w'.event e).index = (w.event e).index)
    (hfd : ∀ e ∈ w.registered, w'.fd e = w.fd e) (harr : w'.eventIndex = w.eventIndex)
    (hn : w'.nevents = w.nevents) (hr : w'.masterRead = w.masterRead)
    (hw : w'.masterWrite = w.masterWrite) (hm : w'.maxFd = w.maxFd) : Registry dom w' := by
  have hreg : w'.registered = w.registered := by simp only [registered, harr, hn]
  refine ⟨?_, fun s => ?_, fun s => ?_, fun hne => ?_⟩
  · rw [harr, hn]
    exact h.dense.congr hidx
  · rw [hr, h.masterRead, hreg]
    exact exists_congr fun i => and_congr_right fun hi => by rw [hfd _ hi]
  · rw [hw, h.masterWrite, hreg]
    exact exists_congr fun i => and_congr_right fun hi => by rw [hfd _ hi]
  · rw [hm] at hne ⊢
    obtain ⟨⟨e, he, hfe⟩, hle⟩ := h.maxFd hne
    rw [hreg]
    exact ⟨⟨e, he, (hfd e he).trans hfe⟩, fun e he => by rw [hfd e he]; exact hle e he⟩

lemma dense_entered (h : DenseIndex.Valid dom w.eventIndex w.nevents fun e => (w.event e).index)
    {ev : Ev} (hev : ev ∈ dom) (hi : (w.event ev).index = none) (d : Dir) :
    DenseIndex.Valid dom (w.entered ev d).eventIndex (w.entered ev d).nevents
      fun e => ((w.entered ev d).event e).index := by
  refine h.push hev hi (Function.update_self _ _ _)
    (fun k hk => Function.update_of_ne (by omega) _ _) ?_ fun e _ hne => ?_
  · rw [event_entered, if_pos rfl]
  · rw [event_entered, if_neg hne]

lemma dense_removed (h : DenseIndex.Valid dom w.eventIndex w.nevents fun e => (w.event e).index)
    {ev : Ev} {k : ℕ} (hev : ev ∈ dom) (hi : (w.event ev).index = some k) (d : Dir) :
    DenseIndex.Valid dom (w.removed ev k d).eventIndex (w.removed ev k d).nevents
      fun e => ((w.removed ev k d).event e).index := by
  refine h.remove hev hi (eventIndex_removed ev k d) ?_ fun e he hne => ?_
  · rw [event_removed, if_pos rfl]
  · obtain ⟨hkn, hka⟩ := h.found ev hev k hi
    rw [event_removed, if_neg hne]
    by_cases hlast : e = w.eventIndex (w.nevents - 1)
    · have hk : k < w.nevents - 1 := by
        by_contra hge
        rw [show k = w.nevents - 1 by omega, ← hlast] at hka
        exact hne hka
      rw [if_pos ⟨hk, hlast⟩, if_pos hlast]
    · rw [if_neg fun hc => hlast hc.2, if_neg hlast]

theorem Registry.entered (h : Registry dom w) {ev : Ev} (hev : ev ∈ dom)
    (hi : (w.event ev).index = none) : Registry dom (w.entered ev ev.dir) := by
  have hmem := @mem_registered_entered w ev ev.dir
  refine ⟨dense_entered h.dense hev hi ev.dir, fun s => ?_, fun s => ?_, fun hne => ?_⟩
  · simp only [hmem, fd_entered]
    cases ev with
    | read j =>
      simp only [World.entered, Ev.dir, if_true, Finset.mem_insert, h.masterRead, Ev.read.injEq]
      constructor
      · rintro (rfl | ⟨i, hr, hs⟩)
        · exact ⟨j, .inl rfl, rfl⟩
        · exact ⟨i, .inr hr, hs⟩
      · rintro ⟨i, rfl | hr, hs⟩
        · exact .inl hs.symm
        · exact .inr ⟨i, hr, hs⟩
    | write j => simpa [World.entered, Ev.dir] using h.masterRead s
  · simp only [hmem, fd_entered]
    cases ev with
    | write j =>
      simp only [World.entered, Ev.dir, if_true, Finset.mem_insert, h.masterWrite, Ev.write.injEq]
      constructor
      · rintro (rfl | ⟨i, hr, hs⟩)
        · exact ⟨j, .inl rfl, rfl⟩
        · exact ⟨i, .inr hr, hs⟩
      · rintro ⟨i, rfl | hr, hs⟩
        · exact .inl hs.symm
        · exact .inr ⟨i, hr, hs⟩
    | read j => simpa [World.entered, Ev.dir] using h.masterWrite s
  · simp only [hmem, fd_entered]
    simp only [World.entered] at hne ⊢
    have hold : w.maxFd ≠ -1 := by
      intro h1
      rw [h1] at hne
      simp at hne
    obtain ⟨⟨e, he, hfe⟩, hle⟩ := h.maxFd hold
    by_cases hlt : w.maxFd < w.fd ev
    · rw [if_pos ⟨hold, hlt⟩]
      refine ⟨⟨ev, .inl rfl, rfl⟩, ?_⟩
      rintro e (rfl | he)
      · exact le_rfl
      · exact (hle e he).trans hlt.le
    · rw [if_neg fun hc => hlt hc.2]
      refine ⟨⟨e, .inr he, hfe⟩, ?_⟩
      rintro e (rfl | he)
      · exact not_lt.mp hlt
      · exact hle e he

lemma Registry.mem_removed (h : Registry dom w) {ev : Ev} {k : ℕ} (hev : ev ∈ dom)
    (hi : (w.event ev).index = some k) (d : Dir) (e : Ev) :
    e ∈ (w.removed ev k d).registered ↔ e ≠ ev ∧ e ∈ w.registered := by
  obtain ⟨hkn, hka⟩ := h.dense.found ev hev k hi
  exact h.dense.mem_members_remove hkn hka (eventIndex_removed ev k d)

/-- Taking an event out keeps the registry, when no other registered event of the same
direction has its descriptor. -/
theorem Registry.removed (h : Registry dom w) {ev : Ev} {k : ℕ} (hev : ev ∈ dom)
    (hi : (w.event ev).index = some k)
    (huniq : ∀ e ∈ w.registered, e.dir = ev.dir → w.fd e = w.fd ev → e = ev) :
    Registry dom (w.removed ev k ev.dir) := by
  have hmem := h.mem_removed hev hi ev.dir
  refine ⟨dense_removed h.dense hev hi ev.dir, fun s => ?_, fun s => ?_, fun hne => ?_⟩
  · simp only [hmem, fd_removed]
    cases ev with
    | read j =>
      simp only [World.removed, Ev.dir, if_true, Finset.mem_erase, h.masterRead]
      constructor
      · rintro ⟨hs, i, hr, hfd⟩
        exact ⟨i, ⟨fun he => hs (by rw [← hfd, he]), hr⟩, hfd⟩
      · rintro ⟨i, ⟨hne, hr⟩, hfd⟩
        exact ⟨fun hs => hne (huniq _ hr rfl (hfd.trans hs)), i, hr, hfd⟩
    | write j => simpa [World.removed, Ev.dir] using h.masterRead s
  · simp only [hmem, fd_removed]
    cases ev with
    | write j =>
      simp only [World.removed, Ev.dir, if_true, Finset.mem_erase, h.masterWrite]
      constructor
      · rintro ⟨hs, i, hr, hfd⟩
        exact ⟨i, ⟨fun he => hs (by rw [← hfd, he]), hr⟩, hfd⟩
      · rintro ⟨i, ⟨hne, hr⟩, hfd⟩
        exact ⟨fun hs => hne (huniq _ hr rfl (hfd.trans hs)), i, hr, hfd⟩
    | read j => simpa [World.removed, Ev.dir] using h.masterWrite s
  · simp only [hmem, fd_removed]
    simp only [World.removed] at hne ⊢
    have hfd : w.fd ev ≠ w.maxFd := by
      intro he
      rw [if_pos he] at hne
      exact hne rfl
    rw [if_neg hfd] at hne ⊢
    obtain ⟨⟨e, he, hfe⟩, hle⟩ := h.maxFd hne
    refine ⟨⟨e, ⟨?_, he⟩, hfe⟩, fun e he => hle e he.2⟩
    rintro rfl
    exact hfd hfe

/-! ## The largest descriptor -/

lemma foldl_max (f : Ev → ℤ) (l : List Ev) (m : ℤ) :
    let r := l.foldl (fun m e => if m < f e then f e else m) m
    (r = m ∨ ∃ e ∈ l, f e = r) ∧ m ≤ r ∧ ∀ e ∈ l, f e ≤ r := by
  induction l generalizing m with
  | nil => exact ⟨.inl rfl, le_rfl, fun e he => by cases he⟩
  | cons a l ih =>
    simp only [List.foldl_cons]
    obtain ⟨hr, hle, hall⟩ := ih (if m < f a then f a else m)
    by_cases hlt : m < f a
    · rw [if_pos hlt] at hr hle hall ⊢
      refine ⟨.inr ?_, hlt.le.trans hle, ?_⟩
      · rcases hr with hr | ⟨e, he, hfe⟩
        · exact ⟨a, by simp, hr.symm⟩
        · exact ⟨e, by simp [he], hfe⟩
      · intro e he
        rcases List.mem_cons.mp he with rfl | he
        · exact hle
        · exact hall e he
    · rw [if_neg hlt] at hr hle hall ⊢
      refine ⟨hr.imp_right fun ⟨e, he, hfe⟩ => ⟨e, by simp [he], hfe⟩, hle, ?_⟩
      intro e he
      rcases List.mem_cons.mp he with rfl | he
      · exact (not_lt.mp hlt).trans hle
      · exact hall e he

lemma refreshMaxFd_eq (w : World) : ∃ m, w.refreshMaxFd = { w with maxFd := m } := by
  unfold refreshMaxFd
  split_ifs
  · exact ⟨_, rfl⟩
  · exact ⟨w.maxFd, rfl⟩

@[simp] lemma slots_refreshMaxFd (w : World) : w.refreshMaxFd.slots = w.slots := by
  obtain ⟨m, hm⟩ := w.refreshMaxFd_eq
  rw [hm]

@[simp] lemma registered_refreshMaxFd (w : World) : w.refreshMaxFd.registered = w.registered := by
  obtain ⟨m, hm⟩ := w.refreshMaxFd_eq
  rw [hm]
  rfl

@[simp] lemma masterRead_refreshMaxFd (w : World) : w.refreshMaxFd.masterRead = w.masterRead := by
  obtain ⟨m, hm⟩ := w.refreshMaxFd_eq
  rw [hm]

@[simp] lemma masterWrite_refreshMaxFd (w : World) :
    w.refreshMaxFd.masterWrite = w.masterWrite := by
  obtain ⟨m, hm⟩ := w.refreshMaxFd_eq
  rw [hm]

@[simp] lemma issued_refreshMaxFd (w : World) : w.refreshMaxFd.issued = w.issued := by
  obtain ⟨m, hm⟩ := w.refreshMaxFd_eq
  rw [hm]

@[simp] lemma boundFds_refreshMaxFd (w : World) : w.refreshMaxFd.boundFds = w.boundFds := by
  obtain ⟨m, hm⟩ := w.refreshMaxFd_eq
  rw [hm]

lemma pools_refreshMaxFd (w : World) :
    w.refreshMaxFd.livePools = w.livePools ∧ w.refreshMaxFd.nextPool = w.nextPool := by
  obtain ⟨m, hm⟩ := w.refreshMaxFd_eq
  rw [hm]
  exact ⟨rfl, rfl⟩

@[simp] lemma fdArgs_refreshMaxFd (w : World) : w.refreshMaxFd.fdArgs = w.fdArgs := by
  obtain ⟨m, hm⟩ := w.refreshMaxFd_eq
  rw [hm]

lemma found_refreshMaxFd (w : World) (readSet writeSet : Finset ℤ) :
    w.refreshMaxFd.found readSet writeSet = w.found readSet writeSet := by
  obtain ⟨m, hm⟩ := w.refreshMaxFd_eq
  rw [hm]
  rfl

theorem Registry.refreshMaxFd (h : Registry dom w) : Registry dom w.refreshMaxFd := by
  unfold World.refreshMaxFd
  split_ifs with hm
  · refine ⟨h.dense, h.masterRead, h.masterWrite, fun hne => ?_⟩
    obtain ⟨hr, -, hall⟩ := foldl_max w.fd w.registered (-1)
    exact ⟨hr.resolve_left hne, hall⟩
  · exact h

/-- `nfds` is one more than the largest registered descriptor, and 0 if there is none. -/
theorem Registry.nfds (h : Registry dom w) :
    (∀ e ∈ w.registered, w.fd e < w.nfds) ∧
      (w.nfds = 0 ∨ ∃ e ∈ w.registered, w.nfds = w.fd e + 1) := by
  unfold World.nfds World.refreshMaxFd
  split_ifs with hm
  · obtain ⟨hr, -, hall⟩ := foldl_max w.fd w.registered (-1)
    refine ⟨fun e he => Int.lt_add_one_iff.mpr (hall e he), ?_⟩
    rcases hr with hr | ⟨e, he, hfe⟩
    · exact .inl (by rw [hr]; rfl)
    · exact .inr ⟨e, he, by rw [hfe]⟩
  · obtain ⟨⟨e, he, hfe⟩, hle⟩ := h.maxFd hm
    exact ⟨fun e he => Int.lt_add_one_iff.mpr (hle e he), .inr ⟨e, he, by rw [hfe]⟩⟩

end World
end Xdbd
