import Xdbd.Runs

/-!
# Descriptors given to select

Which descriptors reach the `FD_*` macros: those of the listening entries, -1 where `bind` or
`listen` failed, and those that `accept` returned for connections that were set up, as large
as they are.
-/
namespace Xdbd
open World

variable {boot : Boot} {w w' : World} {free : List ℕ}

/-- `FD_SETSIZE`. -/
def fdSetSize : ℤ := 1024

/-- Every descriptor that was passed to an `FD_*` macro is in range, and the listening
connections own sockets that are bound and listening. -/
structure DescriptorsValid (w : World) : Prop where
  args : ∀ s ∈ w.fdArgs, 0 ≤ s ∧ s < fdSetSize
  bound : ∀ i ∈ w.issued, (w.slots i).read.accepted = true → (w.slots i).conn.fd ∈ w.boundFds

/-- Every listening entry got a socket that was bound and put into listening state, and no
descriptor of a socket or of a connection that was set up is too large. -/
structure DescriptorsSmall (boot : Boot) (w : World) : Prop where
  sockets : ∀ e ∈ boot.entries, e.bind = true ∧ e.listen = true ∧ e.fd < fdSetSize
  accepts : ∀ l ∈ w.issued, (w.slots l).read.accepted = true →
    ∀ a, Established w l a → a.fd < fdSetSize

namespace World

/-- The invariant behind `DescriptorsValid`. -/
structure Small (w : World) : Prop where
  args : ∀ s ∈ w.fdArgs, 0 ≤ s ∧ s < fdSetSize
  fds : ∀ i ∈ w.issued, (w.slots i).conn.listening ≠ none → (w.slots i).conn.fd < fdSetSize
  bound : ∀ i ∈ w.issued, (w.slots i).read.accepted = true →
    0 ≤ (w.slots i).conn.fd ∧ (w.slots i).conn.fd ∈ w.boundFds

lemma mem_fdArgs_repair (getsockopt : ℤ → Bool) (s : ℤ) :
    s ∈ (w.selectRepairFdSets getsockopt).fdArgs ↔ s ∈ w.fdArgs ∨ 0 ≤ s ∧ s < w.maxFd + 1 := by
  unfold selectRepairFdSets
  rw [Finset.mem_union, Finset.mem_image]
  refine or_congr_right ⟨?_, fun hs => ⟨s.toNat, ?_, ?_⟩⟩
  · rintro ⟨k, hk, rfl⟩
    rw [Finset.mem_range] at hk
    omega
  · rw [Finset.mem_range]
    omega
  · omega

lemma fdArgs_selectProcessEvents (w : World) (kernel : Kernel) (hn : w.registered.Nodup) :
    ∀ s ∈ (w.selectProcessEvents kernel).2.fdArgs,
      s ∈ w.fdArgs ∨ (∃ e ∈ w.registered, w.fd e = s) ∨ 0 ≤ s ∧ s < w.nfds := by
  intro s hs
  have hargs := w.fdArgs_refreshMaxFd
  cases hsel : kernel.select w.nfds w.masterRead w.masterWrite with
  | fail ebadf =>
    rw [selectProcessEvents_fail hsel] at hs
    cases ebadf with
    | false => exact .inl (hargs ▸ hs)
    | true => exact ((mem_fdArgs_repair _ s).mp hs).imp (hargs ▸ ·) .inr
  | ready n readSet writeSet =>
    have hfold := @postFound_foldl w.refreshMaxFd readSet writeSet w.registered hn 0
    set F := w.registered.filter (w.refreshMaxFd.found readSet writeSet)
    have hscan : ∀ t ∈ (w.refreshMaxFd.scanned w.registered F).fdArgs,
        t ∈ w.fdArgs ∨ ∃ e ∈ w.registered, w.fd e = t := by
      intro t ht
      rcases Finset.mem_union.mp ht with ht | ht
      · exact .inl (hargs ▸ ht)
      · obtain ⟨e, he, rfl⟩ := List.mem_map.mp (List.mem_toFinset.mp ht)
        exact .inr ⟨e, he, by rw [fd, fd, slots_refreshMaxFd]⟩
    unfold selectProcessEvents at hs
    simp only [select_refreshMaxFd, hsel, registered_refreshMaxFd, hfold] at hs
    split_ifs at hs
    · exact .inl (hargs ▸ hs)
    · rcases (mem_fdArgs_repair _ s).mp hs with hs | hs
      · exact (hscan s hs).imp_right .inl
      · exact .inr (.inr hs)
    · exact (hscan s hs).imp_right .inl

lemma Small.registered (h : Small w) (ht : Table w free) {e : Ev} (he : e ∈ w.registered) :
    0 ≤ w.fd e ∧ w.fd e < fdSetSize := by
  obtain ⟨i, rfl⟩ := ht.registered_read he
  obtain ⟨hu, hidx⟩ := ht.registered_iff.mp he
  have hl : (w.slots i).conn.listening ≠ none := fun hn => hidx ((ht.entry i hu).idle hn).2.2
  refine ⟨?_, h.fds i hu.1 hl⟩
  cases hacc : (w.slots i).read.accepted with
  | true => exact (h.bound i hu.1 hacc).1
  | false => exact (ht.peer_entry ⟨hu.1, hacc, hl⟩ hu.2).2.2.1

lemma Small.nfds (h : Small w) (ht : Table w free) : w.nfds ≤ fdSetSize := by
  rcases ht.registry.nfds.2 with hn | ⟨e, he, hn⟩
  · rw [hn]
    decide
  · have := (h.registered ht he).2
    omega

lemma Small.congr (h : Small w) (hargs : ∀ s ∈ w'.fdArgs, 0 ≤ s ∧ s < fdSetSize)
    (hissued : w'.issued = w.issued)
    (hconn : ∀ i ∈ w.issued, (w'.slots i).conn = (w.slots i).conn)
    (hacc : ∀ i ∈ w.issued, (w'.slots i).read.accepted = (w.slots i).read.accepted)
    (hbound : w'.boundFds = w.boundFds) : Small w' where
  args := hargs
  fds i hi hl := by
    rw [hissued] at hi
    rw [hconn i hi] at hl ⊢
    exact h.fds i hi hl
  bound i hi ha := by
    rw [hissued] at hi
    rw [hacc i hi] at ha
    rw [hconn i hi, hbound]
    exact h.bound i hi ha

/-- The accepted descriptors of a listening slot, as far as they count. -/
def AcceptsSmall (w : World) : Prop :=
  ∀ l ∈ w.issued, (w.slots l).read.accepted = true → ∀ a, Established w l a → a.fd < fdSetSize

lemma Established.congr {l : ℕ} {a : AcceptResult} (h : Established w l a)
    (hw : (w.slots l).wire.history <+: (w'.slots l).wire.history) : Established w' l a :=
  { h with noted := hw.subset h.noted }

lemma AcceptsSmall.of_history (h : AcceptsSmall w') (hsub : w.issued ⊆ w'.issued)
    (hacc : ∀ l ∈ w.issued, (w.slots l).read.accepted = true →
      (w'.slots l).read.accepted = true ∧
        (w.slots l).wire.history <+: (w'.slots l).wire.history) : AcceptsSmall w :=
  fun l hl ha a he => h l (hsub hl) (hacc l hl ha).1 a (he.congr (hacc l hl ha).2)

def ListenersOpen (w : World) : Prop :=
  ∀ i ∈ w.issued, (w.slots i).read.accepted = true → (w.slots i).conn.destroyed = false

lemma ListenersOpen.notMem_free (h : ListenersOpen w) (ht : Table w free) {i : ℕ}
    (hi : i ∈ w.issued) (ha : (w.slots i).read.accepted = true) : i ∉ free := fun hf => by
  have := h i hi ha
  rw [ht.released i hf hi] at this
  cases this

/-- The invariant of all runs of a daemon. -/
structure Tracked (w : World) : Prop where
  listeners : ListenersOpen w
  small : AcceptsSmall w → Small w

lemma Tracked.congr (h : Tracked w)
    (hargs : Small w → ∀ s ∈ w'.fdArgs, 0 ≤ s ∧ s < fdSetSize) (hissued : w'.issued = w.issued)
    (hconn : ∀ i ∈ w.issued, (w'.slots i).conn = (w.slots i).conn)
    (hacc : ∀ i ∈ w.issued, (w'.slots i).read.accepted = (w.slots i).read.accepted)
    (hhist : ∀ i ∈ w.issued, (w'.slots i).wire.history = (w.slots i).wire.history)
    (hbound : w'.boundFds = w.boundFds) : Tracked w' where
  listeners i hi ha := by
    rw [hissued] at hi
    rw [hacc i hi] at ha
    rw [hconn i hi]
    exact h.listeners i hi ha
  small hs := by
    have hw : AcceptsSmall w := hs.of_history (hissued ▸ subset_rfl) fun l hl ha =>
      ⟨(hacc l hl).trans ha, by rw [hhist l hl]⟩
    exact (h.small hw).congr (hargs (h.small hw)) hissued hconn hacc hbound

lemma Tracked.delete (h : Tracked w) (i : ℕ) : Tracked (w.deletePostedEvent (.read i)) := by
  refine h.congr (fun hs => hs.args) rfl (fun j _ => ?_) (fun j _ => ?_) (fun j _ => ?_) rfl <;>
    rw [slots_deletePostedEvent] <;> split_ifs with hj <;> simp [hj]

lemma Tracked.accept {l : ℕ} {free' : List ℕ} (h : Tracked w) (ht : Table w free)
    (hl : w.InUse free l) (hla : (w.slots l).read.accepted = true)
    (hacc : Accepting l free free' w w') : Tracked w' := by
  have hsame : ∀ j ∈ w'.issued, j ≠ l → (j ∈ w.issued ∧ w'.slots j = w.slots j) ∨
      j ∈ free ∧ j ∉ free' := by
    intro j hj hjl
    by_cases hfresh : j ∈ free ∧ j ∉ free'
    · exact .inr hfresh
    · exact .inl ⟨((hacc.issued j).mp hj).resolve_right hfresh,
        hacc.others j hjl fun hf => by_contra fun hf' => hfresh ⟨hf, hf'⟩⟩
  have hla' : (w'.slots l).read.accepted = true := by
    rw [hacc.read]
    exact hla
  have hnew : ∀ j, j ∈ free → j ∉ free' → (w'.slots j).read.accepted = false := by
    intro j hf hf'
    rcases hacc.fresh j hf hf' with ⟨-, hr, -⟩ | ⟨a, ls, p, q, k, -, hs⟩
    · rw [hr]
      rfl
    · rw [hs]
      rfl
  refine ⟨fun j hj ha => ?_, fun hs => ?_⟩
  · by_cases hjl : j = l
    · rw [hjl, hacc.conn]
      exact h.listeners l hl.1 hla
    · rcases hsame j hj hjl with ⟨hi, he⟩ | ⟨hf, hf'⟩
      · rw [he] at ha ⊢
        exact h.listeners j hi ha
      · rw [hnew j hf hf'] at ha
        cases ha
  · have hw : AcceptsSmall w := by
      refine hs.of_history (fun j hj => (hacc.issued j).mpr (.inl hj)) fun j hj ha => ?_
      by_cases hjl : j = l
      · rw [hjl]
        exact ⟨hla', hacc.history⟩
      · rw [hacc.others j hjl fun hf => absurd hf (h.listeners.notMem_free ht hj ha)]
        exact ⟨ha, List.prefix_rfl⟩
    have hsmall := h.small hw
    have hfd : ∀ a, Established w' l a → a.fd < fdSetSize :=
      hs l ((hacc.issued l).mpr (.inl hl.1)) hla'
    refine ⟨fun s hs => ?_, fun j hj hlis => ?_, fun j hj ha => ?_⟩
    · rcases hacc.fdArgs s hs with hs | ⟨a, he, rfl⟩
      · exact hsmall.args s hs
      · exact ⟨he.fd, hfd a he⟩
    · by_cases hjl : j = l
      · rw [hjl, hacc.conn] at hlis ⊢
        exact hsmall.fds l hl.1 hlis
      · rcases hsame j hj hjl with ⟨hi, he⟩ | ⟨hf, hf'⟩
        · rw [he] at hlis ⊢
          exact hsmall.fds j hi hlis
        · rcases hacc.fresh j hf hf' with ⟨hn, -⟩ | ⟨a, ls, p, q, k, he, hs⟩
          · exact absurd hn hlis
          · rw [hs]
            exact hfd a he
    · rw [hacc.boundFds]
      by_cases hjl : j = l
      · rw [hjl, hacc.conn]
        exact hsmall.bound l hl.1 hla
      · rcases hsame j hj hjl with ⟨hi, he⟩ | ⟨hf, hf'⟩
        · rw [he] at ha ⊢
          exact hsmall.bound j hi ha
        · rw [hnew j hf hf'] at ha
          cases ha

/-- A handler of an accepted connection hands only its own descriptor to the macros, and the
descriptor that it closes is no listening one. -/
lemma Tracked.frame {i : ℕ} (h : Tracked w) (ht : Table w free) (hp : w.Peer i) (hi : i ∉ free)
    (hf : Frame i w w') : Tracked w' := by
  have hpos : 0 ≤ (w.slots i).conn.fd := (ht.peer_entry hp hi).2.2.1
  have hother : ∀ j ∈ w'.issued, (w'.slots j).read.accepted = true →
      j ≠ i ∧ j ∈ w.issued ∧ (w.slots j).read.accepted = true := by
    intro j hj ha
    have hji : j ≠ i := by
      rintro rfl
      rw [hf.accepted, hp.accepted] at ha
      cases ha
    have hn := congrArg (fun s => s.read.accepted) (hf.others j hji).norm
    exact ⟨hji, hf.issued ▸ hj, hn.symm.trans ha⟩
  refine ⟨fun j hj ha => ?_, fun hs => ?_⟩
  · obtain ⟨hji, hj', ha'⟩ := hother j hj ha
    rw [(hf.others j hji).conn]
    exact h.listeners j hj' ha'
  · have hw : AcceptsSmall w := by
      refine hs.of_history (hf.issued ▸ subset_rfl) fun j hj ha => ?_
      have hji : j ≠ i := by
        rintro rfl
        rw [hp.accepted] at ha
        cases ha
      have hn := congrArg (fun s => s.read.accepted) (hf.others j hji).norm
      exact ⟨hn.trans ha, by rw [(hf.others j hji).wire]⟩
    have hsmall := h.small hw
    refine ⟨fun s hs => ?_, fun j hj hlis => ?_, fun j hj ha => ?_⟩
    · rcases hf.fdArgs s hs with hs | ⟨hs, rfl⟩
      · exact hsmall.args s hs
      · exact ⟨hs, hsmall.fds i hp.issued hp.listening⟩
    · rw [hf.issued] at hj
      by_cases hji : j = i
      · rw [hji]
        rcases hf.fd with hfd | hfd
        · rw [hfd]
          exact hsmall.fds i hp.issued hp.listening
        · rw [hfd]
          decide
      · rw [(hf.others j hji).conn] at hlis ⊢
        exact hsmall.fds j hj hlis
    · obtain ⟨hji, hj', ha'⟩ := hother j hj ha
      obtain ⟨hpos', hb⟩ := hsmall.bound j hj' ha'
      rw [(hf.others j hji).conn]
      refine ⟨hpos', hf.boundFds _ hb hpos' fun hfd => hji ?_⟩
      exact ht.fds j i ⟨hj', h.listeners.notMem_free ht hj' ha'⟩ ⟨hp.issued, hi⟩ hfd
        (by omega)

end World

lemma Started.tracked (h : Started boot w)
    (hboot : ∀ e ∈ boot.entries, e.bind = true ∧ e.listen = true ∧ e.fd < fdSetSize) :
    Tracked w := by
  obtain ⟨u, -, hsock, hbound, -⟩ :=
    @Started.registering boot w (fun _ => True) h fun _ _ _ _ => trivial
  have hopened := Opened.blank boot
  have hS : ∀ u', (blank boot).openListeningSockets boot.entries = (.ok, u') →
      ∀ ls ∈ u'.listening, (0 ≤ ls.fd ∧ ls.fd < fdSetSize) ∧ ls.fd ∈ w.boundFds := by
    intro u' hu ls hls
    obtain rfl : u = u' := (Prod.ext_iff.mp (hsock.symm.trans hu)).2
    have hrange := @Opened.fds_of_success _ _ boot (fun s => 0 ≤ s ∧ s < fdSetSize) _ hopened
      (fun ls hls => absurd hls List.not_mem_nil)
      (fun e he => ⟨(hboot e he).1, (hboot e he).2.1, fun hpos => ⟨hpos, (hboot e he).2.2⟩⟩) hu ls
      hls
    refine ⟨hrange, ?_⟩
    rw [hbound]
    rcases (hopened.openListeningSockets hu).fds ls hls with hf | hf
    · omega
    · exact hf.2.2
  obtain ⟨-, free, -, -, hr⟩ := @Started.registering boot w
    (fun s => (0 ≤ s ∧ s < fdSetSize) ∧ s ∈ w.boundFds) h hS
  refine ⟨fun i hi ha => (hr.idle.table.entry i ⟨hi, (hr.listeners i hi).1⟩).alive, fun _ => ?_⟩
  exact ⟨fun s hs => (hr.holdsArgs s hs).1, fun i hi _ => (hr.holdsIssued i hi).1.2,
    fun i hi _ => ⟨(hr.holdsIssued i hi).1.1, (hr.holdsIssued i hi).2⟩⟩

lemma tracked_run
    (hboot : ∀ e ∈ boot.entries, e.bind = true ∧ e.listen = true ∧ e.fd < fdSetSize) :
    RunInvariant boot Tracked where
  accept {w w' free free' l} hj hb hl hacc := by
    obtain ⟨_, he, hu, ha⟩ := hb.accepts _ hl
    obtain rfl := Ev.read.inj he
    exact (hj.accept hb.table hu ha hacc).delete _
  handler {w w' free i hd} hj hb hi _ hframe _ := by
    obtain ⟨_, he, hp, hf, -⟩ := hb.others _ hi
    obtain rfl := Ev.read.inj he
    exact (hj.frame hb.table hp hf hframe).delete _
  start hs := hs.tracked hboot
  feed {w} i x hj := by
    refine hj.congr (fun hs => hs.args) rfl (fun j _ => conn_feed i x j)
      (fun j _ => congrArg Event.accepted (event_feed i x (.read j))) (fun j _ => ?_) rfl
    rw [slots_feed]
    split_ifs with hji
    · rw [hji]
    · rfl
  select {w free kernel} hj hidle hk := by
    have hargs : Small w → ∀ s ∈ (w.selectProcessEvents kernel).2.fdArgs,
        0 ≤ s ∧ s < fdSetSize := by
      intro hs s hm
      rcases fdArgs_selectProcessEvents w kernel hidle.table.registry.dense.nodup s hm with
        hm | ⟨e, he, rfl⟩ | hm
      · exact hs.args s hm
      · exact hs.registered hidle.table he
      · have := hs.nfds hidle.table
        omega
    have hsel := hidle.selected hk
    generalize (w.selectProcessEvents kernel).2 = v at hsel hargs ⊢
    cases hsel with
    | failed _ hslots hissued hbound _ =>
      exact hj.congr hargs hissued (fun j _ => by rw [hslots]) (fun j _ => by rw [hslots])
        (fun j _ => by rw [hslots]) hbound
    | ready _ _ =>
      refine hj.congr hargs w.issued_refreshMaxFd (fun j _ => ?_) (fun j _ => ?_) (fun j _ => ?_)
        w.boundFds_refreshMaxFd
      · rw [slots_scanned, slots_refreshMaxFd]
      · rw [slots_scanned, slots_refreshMaxFd]
        dsimp only
        split_ifs <;> rfl
      · rw [slots_scanned, slots_refreshMaxFd]

/-- In every state of a run, if the sockets of start-up are bound and listening and no
descriptor of a connection reaches `FD_SETSIZE`. -/
theorem Moment.descriptors_valid {v : World} (h : Moment boot v) (hs : DescriptorsSmall boot v) :
    DescriptorsValid v := by
  have hJ := tracked_run hs.sockets
  have htracked : Tracked v := by
    cases h with
    | top run => exact (hJ.holds run).2
    | @inside w _ kernel c run allowed call state =>
      have hc := hJ.called run allowed c call
      obtain ⟨free, hb⟩ := hc.batch
      rcases hb.passed hc.posted state with rfl | ⟨i, hd, s, -, -, hp, hf, -, hlink, -⟩
      · exact hc.holds
      · exact hc.holds.frame hb.table hp hf hlink.frame
  have hsmall := htracked.small hs.accepts
  exact ⟨hsmall.args, fun i hi ha => (hsmall.bound i hi ha).2⟩

/-- A client was accepted on the descriptor 4. -/
theorem Moment.descriptors_valid_oneClient : DescriptorsValid (oneClient ⟨[], [], [], []⟩) :=
  Moment.descriptors_valid (.top (run_oneClient _)) {
    sockets := by decide
    accepts := by
      have hh : ∀ l ∈ (oneClient ⟨[], [], [], []⟩).issued,
          ((oneClient ⟨[], [], [], []⟩).slots l).read.accepted = true →
            ((oneClient ⟨[], [], [], []⟩).slots l).wire.history =
              [.accept ⟨4, true, true, true, true⟩ true] := by decide
      intro l hl hacc a ha
      have hnoted := ha.noted
      rw [hh l hl hacc, List.mem_singleton] at hnoted
      rw [(Obs.accept.inj hnoted).1]
      decide }

/-- `bind` fails for the only listening entry, and start-up goes on with the descriptor -1. -/
def Boot.unbound : Boot := { Boot.single 2 3 with entries := [⟨3, true, false, true⟩] }

theorem descriptors_invalid_unbound :
    ¬ ∀ (boot : Boot) (w : World), Run boot w → DescriptorsValid w := fun h => by
  have hrun : Run .unbound (afterStart .unbound) := .start ⟨by decide, by decide, rfl⟩
  have hargs := (h .unbound _ hrun).args (-1) (by decide)
  exact absurd hargs.1 (by decide)

end Xdbd
