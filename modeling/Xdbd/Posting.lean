import Xdbd.Registry

/-!
# Posting ready events

The loop of `xdbd_select_process_events` over the index: it posts the events whose bits
are set, in index order, and counts as many of them as `select` has reported.
-/
namespace Xdbd
namespace World
variable {w : World}

/-- The world after the posting loop has found the events of `F`, in this order. -/
def posted (w : World) (F : List Ev) : World :=
  { w with
    slots := fun i =>
      { w.slots i with
        read := if .read i ∈ F then { (w.slots i).read with ready := true, posted := true }
          else (w.slots i).read
        write := if .write i ∈ F then { (w.slots i).write with ready := true, posted := true }
          else (w.slots i).write }
    postedAcceptEvents := w.postedAcceptEvents ++
      F.filter fun e => !(w.event e).posted && (w.event e).accepted
    postedEvents := w.postedEvents ++
      F.filter fun e => !(w.event e).posted && !(w.event e).accepted }

lemma event_posted (F : List Ev) (e : Ev) :
    (w.posted F).event e =
      if e ∈ F then { w.event e with ready := true, posted := true } else w.event e := by
  cases e <;> rfl

lemma posted_nil (w : World) : w.posted [] = w := by
  simp [posted]

lemma postEvent_found (ev : Ev) :
    (w.modEvent ev fun e => { e with ready := true }).postEvent ev = w.posted [ev] := by
  have hr : (w.modEvent ev fun e => { e with ready := true }).event ev =
      { w.event ev with ready := true } := by rw [event_modEvent, if_pos rfl]
  unfold postEvent
  cases hp : (w.event ev).posted with
  | true =>
    rw [hr, if_pos hp]
    have hslots : (w.modEvent ev fun e => { e with ready := true }).slots =
        (w.posted [ev]).slots := by
      apply slots_ext
      · intro j
        simp [posted]
      · intro e
        rw [event_modEvent, event_posted]
        by_cases he : e = ev
        · subst he
          simp [hp]
        · simp [he]
      · intro j
        simp [posted]
    have hw : (w.modEvent ev fun e => { e with ready := true }) =
        { w with slots := (w.posted [ev]).slots } := by rw [← hslots]; rfl
    rw [hw]
    simp [posted, hp]
  | false =>
    rw [hr, if_neg (by simp [hp])]
    set v := (w.modEvent ev fun e => { e with ready := true }).modEvent ev fun e =>
      { e with posted := true } with hv
    have hslots : v.slots = (w.posted [ev]).slots := by
      apply slots_ext
      · intro j
        simp [hv, posted]
      · intro e
        rw [hv, event_modEvent, event_modEvent, event_modEvent, event_posted]
        by_cases he : e = ev
        · subst he
          simp
        · simp [he]
      · intro j
        simp [hv, posted]
    have hw : v = { w with slots := v.slots } := rfl
    have hacc : (v.event ev).accepted = (w.event ev).accepted := by simp [hv]
    simp only [hacc]
    rw [hw, hslots]
    cases h : (w.event ev).accepted <;> simp [posted, h, hp]

lemma posted_cons {ev : Ev} {F : List Ev} (h : ev ∉ F) :
    (w.posted [ev]).posted F = w.posted (ev :: F) := by
  have hother : ∀ e ∈ F, (w.posted [ev]).event e = w.event e := by
    intro e he
    rw [event_posted, if_neg]
    rintro hm
    exact h (List.mem_singleton.mp hm ▸ he)
  have hslots : ((w.posted [ev]).posted F).slots = (w.posted (ev :: F)).slots := by
    apply slots_ext
    · exact fun j => rfl
    · intro e
      simp only [event_posted, List.mem_cons, List.not_mem_nil, or_false]
      by_cases he : e = ev
      · subst he
        simp [h]
      · simp [he]
    · exact fun j => rfl
  have hfilter : ∀ p : Event → Bool, (F.filter fun e => p ((w.posted [ev]).event e)) =
      F.filter fun e => p (w.event e) := by
    intro p
    apply List.filter_congr
    intro e he
    rw [hother e he]
  apply World.ext <;> try rfl
  · exact hslots
  · have := hfilter fun e => !e.posted && e.accepted
    show (w.posted [ev]).postedAcceptEvents ++ (F.filter _) = _
    rw [this]
    simp only [posted, List.append_assoc, ← List.filter_append, List.singleton_append]
  · have := hfilter fun e => !e.posted && !e.accepted
    show (w.posted [ev]).postedEvents ++ (F.filter _) = _
    rw [this]
    simp only [posted, List.append_assoc, ← List.filter_append, List.singleton_append]

/-- The world after the posting loop has gone over `l` and found `F`. -/
def scanned (w : World) (l F : List Ev) : World :=
  { w.posted F with fdArgs := w.fdArgs ∪ (l.map w.fd).toFinset }

/-- The posting loop posts the events it finds, in index order, and counts them. -/
theorem postFound_foldl {readSet writeSet : Finset ℤ} {l : List Ev} (hl : l.Nodup)
    (n : ℕ) :
    l.foldl (postFound readSet writeSet) (n, w) =
      (n + (l.filter (w.found readSet writeSet)).length,
        w.scanned l (l.filter (w.found readSet writeSet))) := by
  induction l generalizing w n with
  | nil => simp [scanned, posted_nil]
  | cons a l ih =>
    obtain ⟨ha, hl⟩ := List.nodup_cons.mp hl
    have hne : ∀ e ∈ l, e ≠ a := by
      rintro e he rfl
      exact ha he
    have hfa : (w.useFd (w.fd a)).found readSet writeSet a = w.found readSet writeSet a := rfl
    rw [List.foldl_cons]
    by_cases hf : w.found readSet writeSet a = true
    · set v := (w.useFd (w.fd a)).posted [a] with hv
      have hstep : postFound readSet writeSet (n, w) a = (n + 1, v) := by
        have hpost := @postEvent_found (w.useFd (w.fd a)) a
        unfold postFound
        simp only [hfa, hf, if_true]
        exact congrArg (Prod.mk (n + 1)) hpost
      have hother : ∀ e ∈ l, v.event e = w.event e := by
        intro e he
        rw [hv, event_posted, if_neg (by simpa using hne e he)]
        rfl
      have hfilter : l.filter (v.found readSet writeSet) = l.filter (w.found readSet writeSet) := by
        apply List.filter_congr
        intro e he
        unfold found
        rw [hother e he]
        rfl
      rw [hstep, ih hl (n + 1),
        hfilter, scanned, hv, posted_cons (by simp [ha]), List.filter_cons_of_pos hf,
        List.length_cons]
      refine Prod.ext (by simp only; omega) ?_
      apply World.ext <;> try rfl
      show insert (w.fd a) w.fdArgs ∪ (l.map w.fd).toFinset =
        w.fdArgs ∪ ((a :: l).map w.fd).toFinset
      rw [List.map_cons, List.toFinset_cons, Finset.insert_union, Finset.union_insert]
    · have hstep : postFound readSet writeSet (n, w) a = (n, w.useFd (w.fd a)) := by
        unfold postFound
        simp only [hfa, hf]
        rfl
      have hfilter : l.filter ((w.useFd (w.fd a)).found readSet writeSet) =
          l.filter (w.found readSet writeSet) := rfl
      rw [hstep, ih hl n, hfilter, List.filter_cons_of_neg hf]
      refine Prod.ext rfl ?_
      apply World.ext <;> try rfl
      show insert (w.fd a) w.fdArgs ∪ (l.map w.fd).toFinset =
        w.fdArgs ∪ ((a :: l).map w.fd).toFinset
      rw [List.map_cons, List.toFinset_cons, Finset.insert_union, Finset.union_insert]

/-! ## Counting -/

/-- No two registered events of one direction share a descriptor that `select` can report. -/
def DistinctFds (w : World) : Prop :=
  ∀ e ∈ w.registered, ∀ e' ∈ w.registered, e.dir = e'.dir → w.fd e = w.fd e' → 0 ≤ w.fd e → e = e'

/-- The write flag of a registered event tells its direction. -/
def DirFlags (w : World) : Prop := ∀ e ∈ w.registered, (w.event e).write = decide (e.dir = .write)

lemma length_filter_fd {l : List Ev} (hl : l.Nodup) (S : Finset ℤ) (d : Dir)
    (hinj : ∀ e ∈ l, ∀ e' ∈ l, e.dir = d → e'.dir = d → w.fd e ∈ S → w.fd e = w.fd e' → e = e')
    (hsurj : ∀ s ∈ S, ∃ e ∈ l, e.dir = d ∧ w.fd e = s) :
    (l.filter fun e => decide (e.dir = d ∧ w.fd e ∈ S)).length = S.card := by
  set F := l.filter fun e => decide (e.dir = d ∧ w.fd e ∈ S) with hF
  have hmem : ∀ e, e ∈ F ↔ e ∈ l ∧ e.dir = d ∧ w.fd e ∈ S := by
    intro e
    simp [hF]
  have hnodup : (F.map w.fd).Nodup := by
    apply List.Nodup.map_on _ (hl.filter _)
    intro e he e' he' hfd
    obtain ⟨hel, hd, hs⟩ := (hmem e).mp he
    obtain ⟨hel', hd', -⟩ := (hmem e').mp he'
    exact hinj e hel e' hel' hd hd' hs hfd
  have himage : (F.map w.fd).toFinset = S := by
    ext s
    rw [List.mem_toFinset, List.mem_map]
    constructor
    · rintro ⟨e, he, rfl⟩
      exact ((hmem e).mp he).2.2
    · intro hs
      obtain ⟨e, hel, hd, rfl⟩ := hsurj s hs
      exact ⟨e, (hmem e).mpr ⟨hel, hd, hs⟩, rfl⟩
  rw [← himage, List.toFinset_card_of_nodup hnodup, List.length_map]

/-- The posting loop finds as many events as the returned sets have bits. -/
theorem Registry.length_found {dom : Set Ev} (h : Registry dom w) (hdist : w.DistinctFds)
    (hdir : w.DirFlags) {readSet writeSet : Finset ℤ} (hr : readSet ⊆ w.masterRead)
    (hw : writeSet ⊆ w.masterWrite) (hpos : ∀ s ∈ readSet ∪ writeSet, 0 ≤ s) :
    (w.registered.filter (w.found readSet writeSet)).length = readSet.card + writeSet.card := by
  have hnodup : w.registered.Nodup := h.dense.nodup
  have hcount : ∀ (S : Finset ℤ) (d : Dir), (∀ s ∈ S, 0 ≤ s) →
      (∀ s ∈ S, ∃ e ∈ w.registered, e.dir = d ∧ w.fd e = s) →
      (w.registered.filter fun e => decide (e.dir = d ∧ w.fd e ∈ S)).length = S.card := by
    intro S d hS hsurj
    refine length_filter_fd hnodup S d (fun e he e' he' hd hd' hs hfd => ?_) hsurj
    exact hdist e he e' he' (hd.trans hd'.symm) hfd (hS _ hs)
  have hread := hcount readSet .read (fun s hs => hpos s (Finset.mem_union_left _ hs)) fun s hs =>
    let ⟨i, hi, hfd⟩ := (h.masterRead s).mp (hr hs)
    ⟨.read i, hi, rfl, hfd⟩
  have hwrite := hcount writeSet .write (fun s hs => hpos s (Finset.mem_union_right _ hs))
    fun s hs =>
      let ⟨i, hi, hfd⟩ := (h.masterWrite s).mp (hw hs)
      ⟨.write i, hi, rfl, hfd⟩
  rw [List.length_eq_length_filter_add fun e => decide (e.dir = .read), ← hread, ← hwrite,
    List.filter_filter, List.filter_filter]
  congr 2
  · apply List.filter_congr
    intro e he
    unfold found
    rw [hdir e he]
    cases hd : e.dir <;> simp
  · apply List.filter_congr
    intro e he
    unfold found
    rw [hdir e he]
    cases hd : e.dir <;> simp

lemma select_refreshMaxFd (w : World) (kernel : Kernel) :
    kernel.select (w.refreshMaxFd.maxFd + 1) w.refreshMaxFd.masterRead
      w.refreshMaxFd.masterWrite = kernel.select w.nfds w.masterRead w.masterWrite := by
  rw [masterRead_refreshMaxFd, masterWrite_refreshMaxFd]
  rfl

lemma selectProcessEvents_fail {kernel : Kernel} {ebadf : Bool}
    (hsel : kernel.select w.nfds w.masterRead w.masterWrite = .fail ebadf) :
    w.selectProcessEvents kernel = (.err,
      if ebadf then w.refreshMaxFd.selectRepairFdSets kernel.getsockopt else w.refreshMaxFd) := by
  unfold selectProcessEvents
  simp only [select_refreshMaxFd, hsel]

lemma selectProcessEvents_zero {kernel : Kernel} {readSet writeSet : Finset ℤ}
    (hsel : kernel.select w.nfds w.masterRead w.masterWrite = .ready 0 readSet writeSet) :
    w.selectProcessEvents kernel = (.err, w.refreshMaxFd) := by
  unfold selectProcessEvents
  simp only [select_refreshMaxFd, hsel, if_true]

/-- A successful `select` posts the events whose bits are set, and nothing is repaired. -/
theorem Registry.selectProcessEvents {dom : Set Ev} (h : Registry dom w) (hdist : w.DistinctFds)
    (hdir : w.DirFlags) {kernel : Kernel} (hk : w.SelectContract kernel) {n : ℤ}
    {readSet writeSet : Finset ℤ} (hn : n ≠ 0)
    (hsel : kernel.select w.nfds w.masterRead w.masterWrite = .ready n readSet writeSet) :
    w.selectProcessEvents kernel = (.ok,
      w.refreshMaxFd.scanned w.registered (w.registered.filter (w.found readSet writeSet))) := by
  obtain ⟨hr, hw, hpos, hcard⟩ := hk n readSet writeSet hsel
  have hcount := h.length_found hdist hdir hr hw fun s hs => (hpos s hs).1
  have hfold := @postFound_foldl w.refreshMaxFd readSet writeSet w.registered h.dense.nodup 0
  rw [found_refreshMaxFd] at hfold
  unfold World.selectProcessEvents
  simp only [select_refreshMaxFd, hsel, if_neg hn, registered_refreshMaxFd, hfold]
  rw [if_neg]
  rw [hcount, hcard]
  simp

end World
end Xdbd
