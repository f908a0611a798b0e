import Xdbd.Batch

/-!
# Turns of the worker loop

At the top of the loop nothing is posted. `select` posts the events whose bits are set, and
the two rounds over the posted lists empty them again. So the table is consistent at every
turn and in every state in which a handler is called.
-/
namespace Xdbd

namespace World
variable {w w' : World} {free : List ℕ}

/-! ## select -/

lemma Table.of_registry (h : Table w free) (hs : SameTables w w') (hslots : w'.slots = w.slots)
    (hopen : w'.openFds = w.openFds) (hlive : w'.livePools = w.livePools)
    (hnext : w'.nextPool = w.nextPool) (hreg : Registry (w.usedEvents free) w') : Table w' free :=
  h.similar hs (fun j _ => link_congr (by rw [hslots])) (fun j => by rw [hslots]; exact .refl _)
    (by rw [hopen]) hlive hnext hreg

theorem Table.refreshMaxFd (h : Table w free) : Table w.refreshMaxFd free := by
  have hreg := h.registry.refreshMaxFd
  obtain ⟨m, hm⟩ := w.refreshMaxFd_eq
  rw [hm] at hreg ⊢
  exact h.of_registry ⟨rfl, rfl, rfl, rfl⟩ rfl rfl rfl rfl hreg

/-- Repairing the sets removes nothing: the registered descriptors are open. -/
theorem Table.repair (h : Table w free) {getsockopt : ℤ → Bool}
    (hvalid : ∀ s ∈ w.openFds, getsockopt s = true) :
    Table (w.selectRepairFdSets getsockopt) free := by
  have hkeep : ∀ (e : Ev), e ∈ w.registered →
      w.fd e < 0 ∨ w.maxFd < w.fd e ∨ getsockopt (w.fd e) = true := by
    intro e he
    rcases (h.entry e.slot (h.registered_inUse he)).fd with hf | ⟨-, hf⟩
    · exact .inl (by rw [fd, hf]; decide)
    · exact .inr (.inr (hvalid _ hf))
  have hread : (w.selectRepairFdSets getsockopt).masterRead = w.masterRead := by
    refine Finset.filter_true_of_mem fun s hs => ?_
    obtain ⟨i, hi, rfl⟩ := (h.registry.masterRead s).mp hs
    exact hkeep _ hi
  have hwrite : (w.selectRepairFdSets getsockopt).masterWrite = w.masterWrite := by
    refine Finset.filter_true_of_mem fun s hs => ?_
    obtain ⟨i, hi, rfl⟩ := (h.registry.masterWrite s).mp hs
    exact hkeep _ hi
  refine h.of_registry ⟨rfl, rfl, rfl, rfl⟩ rfl rfl rfl rfl ⟨h.registry.dense, ?_, ?_, ?_⟩
  · rw [hread]
    exact h.registry.masterRead
  · rw [hwrite]
    exact h.registry.masterWrite
  · exact fun hne => absurd rfl hne

lemma slots_scanned (l F : List Ev) (j : ℕ) :
    (w.scanned l F).slots j =
      { w.slots j with
        read := if .read j ∈ F then { (w.slots j).read with ready := true, posted := true }
          else (w.slots j).read
        write := if .write j ∈ F then { (w.slots j).write with ready := true, posted := true }
          else (w.slots j).write } := rfl

theorem Table.scanned (h : Table w free) (l F : List Ev) : Table (w.scanned l F) free := by
  refine h.similar ⟨rfl, rfl, rfl, rfl⟩ (fun j _ => link_congr rfl) (fun j => ?_) subset_rfl rfl
    rfl (h.registry.congr (fun e _ => ?_) (fun e _ => rfl) rfl rfl rfl rfl rfl)
  · rw [slots_scanned]
    refine ⟨rfl, ?_, ?_, ?_, ?_, ?_, ?_, ?_, .inl ?_⟩ <;> dsimp only <;> split_ifs <;> rfl
  · cases e <;> simp only [event, slots_scanned] <;> split_ifs <;> rfl

/-- Nothing is posted at the top of the loop. -/
structure Idle (w : World) (free : List ℕ) : Prop where
  table : w.Table free
  noAccepts : w.postedAcceptEvents = []
  noOthers : w.postedEvents = []
  posted : ∀ e, e.slot ∈ w.issued → (w.event e).posted = false

lemma Idle.batch (h : Idle w free) : Batch w free where
  table := h.table
  nodup := by rw [h.noAccepts, h.noOthers]; exact List.nodup_nil
  accepts e he := by rw [h.noAccepts] at he; cases he
  others e he := by rw [h.noOthers] at he; cases he
  posted e he := by rw [h.posted e he, h.noAccepts, h.noOthers]; simp

lemma Batch.idle (h : Batch w free) (hA : w.postedAcceptEvents = []) (hP : w.postedEvents = []) :
    Idle w free where
  table := h.table
  noAccepts := hA
  noOthers := hP
  posted e he := by
    have := h.posted e he
    rw [hA, hP] at this
    simpa using this

lemma Idle.of_slots (h : Idle w free) (ht : Table w' free) (hslots : w'.slots = w.slots)
    (hA : w'.postedAcceptEvents = w.postedAcceptEvents) (hP : w'.postedEvents = w.postedEvents)
    (hi : w'.issued = w.issued) : Idle w' free where
  table := ht
  noAccepts := hA.trans h.noAccepts
  noOthers := hP.trans h.noOthers
  posted e he := by
    rw [event_congr hslots]
    exact h.posted e (hi ▸ he)

def readyEvents (w : World) (readSet writeSet : Finset ℤ) : List Ev :=
  w.registered.filter (w.found readSet writeSet)

lemma Idle.scanned_lists (h : Idle w free) (l : List Ev) {F : List Ev}
    (hF : ∀ e ∈ F, e ∈ w.registered) :
    (w.scanned l F).postedAcceptEvents = F.filter (fun e => (w.event e).accepted) ∧
      (w.scanned l F).postedEvents = F.filter (fun e => !(w.event e).accepted) := by
  have hp : ∀ e ∈ F, (w.event e).posted = false := fun e he =>
    h.posted e (h.table.registered_inUse (hF e he)).1
  constructor
  · show w.postedAcceptEvents ++ _ = _
    rw [h.noAccepts, List.nil_append]
    exact List.filter_congr fun e he => by rw [hp e he]; rfl
  · show w.postedEvents ++ _ = _
    rw [h.noOthers, List.nil_append]
    exact List.filter_congr fun e he => by rw [hp e he]; rfl

theorem Idle.scanned (h : Idle w free) (l : List Ev) {F : List Ev}
    (hF : ∀ e ∈ F, e ∈ w.registered) (hn : F.Nodup) : Batch (w.scanned l F) free := by
  obtain ⟨hA, hP⟩ := h.scanned_lists l hF
  have hmem : ∀ e, e ∈ (w.scanned l F).postedAcceptEvents ++ (w.scanned l F).postedEvents ↔
      e ∈ F := by
    intro e
    rw [hA, hP, List.mem_append, List.mem_filter, List.mem_filter]
    cases (w.event e).accepted <;> simp
  refine ⟨h.table.scanned l F, ?_, fun e he => ?_, fun e he => ?_, fun e he => ?_⟩
  · rw [hA, hP, List.nodup_append]
    refine ⟨hn.filter _, hn.filter _, fun a ha b hb hab => ?_⟩
    rw [List.mem_filter] at ha hb
    rw [hab] at ha
    simp [ha.2] at hb
  · rw [hA, List.mem_filter] at he
    have hreg := hF e he.1
    obtain ⟨i, rfl⟩ := h.table.registered_read hreg
    refine ⟨i, rfl, h.table.registered_inUse hreg, ?_⟩
    rw [slots_scanned]
    dsimp only
    split_ifs
    · exact he.2
    · exact he.2
  · rw [hP, List.mem_filter] at he
    have hreg := hF e he.1
    obtain ⟨i, rfl⟩ := h.table.registered_read hreg
    obtain ⟨hu, hidx⟩ := h.table.registered_iff.mp hreg
    have hacc : (w.slots i).read.accepted = false := by simpa [event] using he.2
    have hslot : (w.scanned l F).slots i = { w.slots i with
        read := { (w.slots i).read with ready := true, posted := true }
        write := ((w.scanned l F).slots i).write } := by
      rw [slots_scanned, if_pos he.1]
    refine ⟨i, rfl, ⟨hu.1, ?_, ?_⟩, hu.2, ?_⟩
    · rw [hslot]
      exact hacc
    · rw [hslot]
      exact fun hn => hidx ((h.table.entry i hu).idle hn).2.2
    · rw [hslot]
  · rw [hmem, show (w.scanned l F).event e = (w.posted F).event e by cases e <;> rfl, event_posted]
    split_ifs with hef
    · simp [hef]
    · rw [h.posted e he]
      simp [hef]

/-- The first half of a turn: either nothing is posted, or the ready events are. -/
inductive Selected (w : World) (free : List ℕ) (kernel : Kernel) : World → Prop
  | failed {w' : World} (idle : Idle w' free) (slots : w'.slots = w.slots)
      (issued : w'.issued = w.issued) (boundFds : w'.boundFds = w.boundFds)
      (pools : w'.livePools = w.livePools ∧ w'.nextPool = w.nextPool) :
      Selected w free kernel w'
  | ready {n : ℤ} {readSet writeSet : Finset ℤ}
      (answer : kernel.select w.nfds w.masterRead w.masterWrite = .ready n readSet writeSet)
      (nonzero : n ≠ 0) :
      Selected w free kernel
        (w.refreshMaxFd.scanned w.registered (w.readyEvents readSet writeSet))

lemma Idle.refreshMaxFd (h : Idle w free) : Idle w.refreshMaxFd free := by
  have ht := h.table.refreshMaxFd
  obtain ⟨m, hm⟩ := w.refreshMaxFd_eq
  rw [hm] at ht ⊢
  exact h.of_slots ht rfl rfl rfl rfl

theorem Idle.selected (h : Idle w free) {kernel : Kernel} (hk : Allowed w kernel) :
    Selected w free kernel (w.selectProcessEvents kernel).2 := by
  have hr := h.refreshMaxFd
  have hslots := w.slots_refreshMaxFd
  have hissued := w.issued_refreshMaxFd
  have hbound := w.boundFds_refreshMaxFd
  have hpools := w.pools_refreshMaxFd
  cases hsel : kernel.select w.nfds w.masterRead w.masterWrite with
  | fail ebadf =>
    rw [selectProcessEvents_fail hsel]
    cases ebadf with
    | false => exact .failed hr hslots hissued hbound hpools
    | true =>
      have hopen : w.refreshMaxFd.openFds = w.openFds := by
        obtain ⟨m, hm⟩ := w.refreshMaxFd_eq
        rw [hm]
      have hvalid : ∀ s ∈ w.refreshMaxFd.openFds, kernel.getsockopt s = true := by
        rw [hopen]
        exact hk.valid
      have hrep := hr.table.repair hvalid
      exact .failed (hr.of_slots hrep rfl rfl rfl rfl) hslots hissued hbound hpools
  | ready n readSet writeSet =>
    by_cases hn : n = 0
    · rw [hn] at hsel
      rw [selectProcessEvents_zero hsel]
      exact .failed hr hslots hissued hbound hpools
    · rw [h.table.registry.selectProcessEvents h.table.distinctFds h.table.dirFlags hk.ready hn
        hsel]
      exact .ready hsel hn

theorem Selected.batch (h : Idle w free) {kernel : Kernel} (hs : Selected w free kernel w') :
    Batch w' free := by
  cases hs with
  | failed idle _ _ _ _ => exact idle.batch
  | ready answer nonzero =>
    refine h.refreshMaxFd.scanned _ (fun e he => ?_) (h.table.registry.dense.nodup.filter _)
    rw [registered_refreshMaxFd]
    exact (List.mem_filter.mp he).1

/-! ## The two rounds over the posted lists -/

/-- An invariant of the rounds: `I evs w` speaks about the events still to be handled. -/
theorem eventProcessPosted_run {I : List Ev → World → Prop}
    (hstep : ∀ ev evs w w', I (ev :: evs) w → w.callHandler ev = .ok w' →
      I evs (w'.deletePostedEvent ev)) (evs : List Ev) (w : World) (h : I evs w) :
    (∀ c ∈ (eventProcessPosted evs w).1, ∃ rest, I (c.1 :: rest) c.2) ∧
      (eventProcessPosted evs w).1.map Prod.fst <+: evs ∧
      ∀ w', (eventProcessPosted evs w).2 = .ok w' →
        (eventProcessPosted evs w).1.map Prod.fst = evs ∧ I [] w' := by
  induction evs generalizing w with
  | nil =>
    refine ⟨fun c hc => absurd hc List.not_mem_nil, List.prefix_rfl, fun w' hw => ?_⟩
    obtain rfl : w = w' := Except.ok.inj hw
    exact ⟨rfl, h⟩
  | cons ev evs ih =>
    simp only [eventProcessPosted]
    cases hcall : w.callHandler ev with
    | error f =>
      refine ⟨fun c hc => ?_, ?_, fun w' hw => nomatch hw⟩
      · obtain rfl := List.mem_singleton.mp hc
        exact ⟨evs, h⟩
      · exact ⟨evs, rfl⟩
    | ok w' =>
      obtain ⟨hcalls, hpre, hend⟩ := ih _ (hstep ev evs w w' h hcall)
      refine ⟨fun c hc => ?_, ?_, fun w'' hw => ?_⟩
      · rcases List.mem_cons.mp hc with rfl | hc
        · exact ⟨evs, h⟩
        · exact hcalls c hc
      · simpa using hpre
      · obtain ⟨hmap, hI⟩ := hend w'' hw
        exact ⟨by simp [hmap], hI⟩

/-- A property of the whole state that every handler call of a batch preserves. -/
structure BatchInvariant (J : World → Prop) : Prop where
  accept : ∀ {w w' : World} {free free' : List ℕ} {l : ℕ}, J w → Batch w free →
    .read l ∈ w.postedAcceptEvents → Accepting l free free' w w' →
    J (w'.deletePostedEvent (.read l))
  handler : ∀ {w w' : World} {free : List ℕ} {i : ℕ} {hd : AdbHandler}, J w → Batch w free →
    .read i ∈ w.postedEvents → (w.slots i).read.handler = some (.adb hd) → Frame i w w' →
    Interaction.Prog.run Slot.exec (code hd) (w.slots i).norm = .ok ((), (w'.slots i).norm) →
    J (w'.deletePostedEvent (.read i))

/-- The state in which a handler is called. -/
structure Called (J : World → Prop) (c : Ev × World) : Prop where
  batch : ∃ free, Batch c.2 free
  posted : c.1 ∈ c.2.postedAcceptEvents ++ c.2.postedEvents
  holds : J c.2

theorem Batch.rounds {J : World → Prop} (hJ : BatchInvariant J) (h : Batch w free) (hj : J w)
    (kernel : Kernel) {v : World} (hw : (v.selectProcessEvents kernel).2 = w) :
    (∀ c ∈ (v.processEventsAndTimers kernel).1, Called J c) ∧
      (v.processEventsAndTimers kernel).1.map Prod.fst <+:
        w.postedAcceptEvents ++ w.postedEvents ∧
      ∀ w', (v.processEventsAndTimers kernel).2 = .ok w' →
        (v.processEventsAndTimers kernel).1.map Prod.fst =
          w.postedAcceptEvents ++ w.postedEvents ∧ (∃ free', Idle w' free') ∧ J w' := by
  -- the events still to be handled are the rest of one list; the other list waits or is empty
  let first : List Ev → World → Prop := fun evs u => (∃ free, Batch u free) ∧ J u ∧
    u.postedAcceptEvents = evs ∧ u.postedEvents = w.postedEvents
  let second : List Ev → World → Prop := fun evs u => (∃ free, Batch u free) ∧ J u ∧
    u.postedAcceptEvents = [] ∧ u.postedEvents = evs
  have hfirst : ∀ ev evs u u', first (ev :: evs) u → u.callHandler ev = .ok u' →
      first evs (u'.deletePostedEvent ev) := by
    rintro ev evs u u' ⟨⟨free, hb⟩, hju, hA, hP⟩ hcall
    have hev : ev ∈ u.postedAcceptEvents := by simp [hA]
    obtain ⟨l, rfl, -⟩ := hb.accepts ev hev
    obtain ⟨free', hacc, hb'⟩ := hb.accept hev hcall
    have hnot : Ev.read l ∉ u.postedEvents := fun hm =>
      (List.nodup_append.mp hb.nodup).2.2 _ hev _ hm rfl
    refine ⟨⟨free', hb'⟩, hJ.accept hju hb hev hacc, ?_, ?_⟩
    · show u'.postedAcceptEvents.erase _ = _
      rw [hacc.postedAcceptEvents, hA, List.erase_cons_head]
    · show u'.postedEvents.erase _ = _
      rw [hacc.postedEvents, List.erase_of_not_mem hnot, hP]
  have hsecond : ∀ ev evs u u', second (ev :: evs) u → u.callHandler ev = .ok u' →
      second evs (u'.deletePostedEvent ev) := by
    rintro ev evs u u' ⟨⟨free, hb⟩, hju, hA, hP⟩ hcall
    have hev : ev ∈ u.postedEvents := by simp [hP]
    obtain ⟨i, rfl, -⟩ := hb.others ev hev
    obtain ⟨free', hd, hhd, hframe, hrun, hb'⟩ := hb.handler hev hcall
    refine ⟨⟨free', hb'⟩, hJ.handler hju hb hev hhd hframe hrun, ?_, ?_⟩
    · show u'.postedAcceptEvents.erase _ = _
      rw [hframe.postedAcceptEvents, hA, List.erase_nil]
    · show u'.postedEvents.erase _ = _
      rw [hframe.postedEvents, hP, List.erase_cons_head]
  have hcalled : ∀ {c : Ev × World} {rest}, first (c.1 :: rest) c.2 ∨ second (c.1 :: rest) c.2 →
      Called J c := by
    rintro c rest (⟨hb, hj, hA, -⟩ | ⟨hb, hj, -, hP⟩)
    · exact ⟨hb, by simp [hA], hj⟩
    · exact ⟨hb, by simp [hP], hj⟩
  obtain ⟨hc1, hp1, he1⟩ := eventProcessPosted_run hfirst w.postedAcceptEvents w
    ⟨⟨free, h⟩, hj, rfl, rfl⟩
  unfold processEventsAndTimers
  simp only [hw]
  cases hr : (eventProcessPosted w.postedAcceptEvents w).2 with
  | error f =>
    refine ⟨fun c hc => ?_, hp1.trans (List.prefix_append _ _), fun w' hw' => nomatch hw'⟩
    obtain ⟨rest, hI⟩ := hc1 c hc
    exact hcalled (.inl hI)
  | ok u =>
    obtain ⟨hmap, ⟨free', hb⟩, hju, hA, hP⟩ := he1 u hr
    obtain ⟨hc2, hp2, he2⟩ := eventProcessPosted_run hsecond u.postedEvents u
      ⟨⟨free', hb⟩, hju, hA, rfl⟩
    refine ⟨fun c hc => ?_, ?_, fun w' hw' => ?_⟩
    · rcases List.mem_append.mp hc with hc | hc
      · obtain ⟨rest, hI⟩ := hc1 c hc
        exact hcalled (.inl hI)
      · obtain ⟨rest, hI⟩ := hc2 c hc
        exact hcalled (.inr hI)
    · rw [List.map_append, hmap, ← hP]
      exact List.prefix_append_right_inj _ |>.mpr hp2
    · obtain ⟨hmap', ⟨free'', hb'⟩, hj', hA', hP'⟩ := he2 w' hw'
      exact ⟨by rw [List.map_append, hmap, hmap', hP], ⟨free'', hb'.idle hA' hP'⟩, hj'⟩

end World
end Xdbd
