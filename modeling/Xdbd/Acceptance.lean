import Xdbd.FreeList

/-!
# The outcomes of accept

After `accept` has returned a descriptor, `xdbd_event_accept` takes a slot, makes two pools and an
address, and arms the read event. Nothing undoes the steps before the one that fails.
-/
namespace Xdbd
open World

variable {boot : Boot} {u w : World} {free : List ℕ}

/-- The slot `i` has become the connection of the descriptor `s`, accepted on the entry `ls`. -/
structure FullyAccepted (u w : World) (i ls : ℕ) (s : ℤ) : Prop where
  taken : ∃ free, FreeList u (i :: free) ∧ FreeList w free
  fd : (w.slots i).conn.fd = s ∧ s ∈ w.openFds
  pools : ∃ p q, (w.slots i).conn.pool = some p ∧ (w.slots i).conn.tempPool = some q ∧ p ≠ q ∧
    p ∈ w.livePools ∧ q ∈ w.livePools
  listening : (w.slots i).conn.listening = some ls
  handlers : (w.slots i).read.handler = some (.adb .adbWaitApacketHandler) ∧
    (w.slots i).write.handler = some (.adb .adbEmptyHandler)
  registered : .read i ∈ w.registered ∧ s ∈ w.masterRead

/-- The descriptor `s` is closed again and the daemon is as it was. -/
structure Undone (u w : World) (s : ℤ) : Prop where
  closed : s ∉ w.openFds
  free : ∀ free, FreeList u free → ∃ free', FreeList w free' ∧ ∀ i, i ∈ free' ↔ i ∈ free
  count : w.freeConnectionN = u.freeConnectionN
  registered : ∀ e, e ∈ w.registered ↔ e ∈ u.registered
  watched : w.masterRead = u.masterRead ∧ w.masterWrite = u.masterWrite
  pools : w.livePools = u.livePools

/-- The call ends, with everything done or with nothing left. -/
def AllOrNothing (u : World) (l : ℕ) (s : ℤ) (result : Except Fault World) : Prop :=
  ∃ w, result = .ok w ∧
    ((∃ i ls, (u.slots l).conn.listening = some ls ∧ FullyAccepted u w i ls s) ∨ Undone u w s)

/-- Nothing fails after `accept` has returned a descriptor in `u`. -/
def Unfailing (u : World) (a : AcceptResult) : Prop :=
  u.freeConnections ≠ none ∧ a.pool = true ∧ a.tempPool = true ∧ a.sockaddr = true ∧
    a.nonblocking = true

namespace World

/-- `xdbd_event_accept` for a new descriptor: what is done depends on the step that fails. -/
lemma Table.eventAccept_answer {l ls : ℕ} (h : Table u free)
    (hls : (u.slots l).conn.listening = some ls) {a : AcceptResult} {rest : List AcceptResult}
    (ha : (u.slots l).wire.accepts = a :: rest)
    (hpos : 0 ≤ a.fd) (hnew : a.fd ∉ u.openFds) :
    (free = [] ∧ u.eventAccept l = .ok (u.answered l a rest)) ∨
      ∃ i next, free.head? = some i ∧ u.eventAccept l =
        if a.pool = false then .ok ((u.answered l a rest).handOut i next a.fd)
        else if a.tempPool = false then .ok (((u.answered l a rest).handOut i next a.fd).withPool i)
        else if a.sockaddr = false then .error .nullDeref
        else if a.nonblocking = false then .error .nullDeref
        else .ok (((u.answered l a rest).handOut i next a.fd).established i ls) := by
  have ht : Table (u.answered l a rest) free := h.hear l _ (Finset.subset_insert _ _)
  have heq := eventAccept_eq hls
  rw [ha] at heq
  simp only at heq
  rw [if_neg (not_or.mpr ⟨not_lt.mpr hpos, hnew⟩)] at heq
  cases free with
  | nil =>
    rw [ht.getConnection_nil] at heq
    exact .inl ⟨rfl, heq⟩
  | cons i free =>
    obtain ⟨next, hget, -⟩ := ht.getConnection_cons a.fd
    have hself : ((u.answered l a rest).handOut i next a.fd).slots i = freshSlot a.fd := by
      rw [handOut_self]
    rw [hget] at heq
    exact .inr ⟨i, next, rfl, heq.trans (setUpAccepted_eq hself ls a)⟩

/-- `accept` returns the new descriptor `a.fd`, and the first free slot `i` is for it. -/
structure NewSlot (u : World) (l : ℕ) (free : List ℕ) (a : AcceptResult)
    (rest : List AcceptResult) (i : ℕ) : Prop where
  accepts : (u.slots l).wire.accepts = a :: rest
  pos : 0 ≤ a.fd
  new : a.fd ∉ u.openFds
  head : free.head? = some i
  first : u.freeConnections = some i

lemma NewSlot.mem {a : AcceptResult} {rest : List AcceptResult} {i l : ℕ}
    (h : NewSlot u l free a rest i) : i ∈ free := List.mem_of_mem_head? h.head

/-- What a call of `xdbd_event_accept` on the listening slot `l` comes to. -/
inductive AcceptCall (u : World) (l : ℕ) (free : List ℕ) : Except Fault World → Prop
  | silent (x : Wire) (hx : x.history = (u.slots l).wire.history)
      (hno : ∀ a rest, (u.slots l).wire.accepts = a :: rest → 0 ≤ a.fd → a.fd ∈ u.openFds) :
      AcceptCall u l free (.ok (u.hear l x u.openFds))
  | full {a : AcceptResult} {rest : List AcceptResult}
      (ha : (u.slots l).wire.accepts = a :: rest) (hpos : 0 ≤ a.fd) (hnew : a.fd ∉ u.openFds)
      (hfull : u.freeConnections = none) : AcceptCall u l free (.ok (u.answered l a rest))
  | noPool {a : AcceptResult} {rest : List AcceptResult} {i : ℕ} {next : Option ℕ}
      (hs : NewSlot u l free a rest i) (hp : a.pool = false) :
      AcceptCall u l free (.ok ((u.answered l a rest).handOut i next a.fd))
  | onePool {a : AcceptResult} {rest : List AcceptResult} {i : ℕ} {next : Option ℕ}
      (hs : NewSlot u l free a rest i) (hp : a.pool = true) (hq : a.tempPool = false) :
      AcceptCall u l free (.ok (((u.answered l a rest).handOut i next a.fd).withPool i))
  | crash {a : AcceptResult} {rest : List AcceptResult} {i : ℕ}
      (hs : NewSlot u l free a rest i) (hp : a.pool = true) (hq : a.tempPool = true)
      (hc : (a.sockaddr && a.nonblocking) = false) : AcceptCall u l free (.error .nullDeref)
  | established {a : AcceptResult} {rest : List AcceptResult} {i ls : ℕ} {next : Option ℕ}
      (hs : NewSlot u l free a rest i) (hp : a.pool = true) (hq : a.tempPool = true)
      (hc : (a.sockaddr && a.nonblocking) = true) :
      AcceptCall u l free (.ok (((u.answered l a rest).handOut i next a.fd).established i ls))

theorem Table.acceptCall {l : ℕ} (h : Table u free) (hl : u.InUse free l)
    (hacc : (u.slots l).read.accepted = true) : AcceptCall u l free (u.eventAccept l) := by
  obtain ⟨ls, hls⟩ : ∃ ls, (u.slots l).conn.listening = some ls := by
    refine Option.ne_none_iff_exists'.mp fun hn => ?_
    exact absurd (((h.entry l hl).idle hn).1.symm.trans hacc) (by simp)
  have heq := eventAccept_eq hls
  cases ha : (u.slots l).wire.accepts with
  | nil =>
    rw [ha] at heq
    rw [heq]
    exact .silent _ rfl fun a rest he => nomatch ha.symm.trans he
  | cons a rest =>
    by_cases hbad : a.fd < 0 ∨ a.fd ∈ u.openFds
    · rw [ha] at heq
      simp only at heq
      rw [heq, if_pos hbad]
      refine .silent _ rfl fun a' rest' he hpos => ?_
      obtain ⟨rfl, -⟩ := List.cons.inj (he.symm.trans ha)
      exact hbad.resolve_left (not_lt.mpr hpos)
    obtain ⟨hpos, hnew⟩ := not_or.mp hbad
    rw [not_lt] at hpos
    rcases h.eventAccept_answer hls ha hpos hnew with ⟨rfl, he⟩ | ⟨i, next, hi, he⟩
    · rw [he]
      exact .full ha hpos hnew h.chain
    · have hs : NewSlot u l free a rest i := ⟨ha, hpos, hnew, hi, h.chain.head_eq.trans hi⟩
      rw [he]
      split_ifs with hp hq hsock hnon
      · exact .noPool hs hp
      · exact .onePool hs (by simpa using hp) hq
      · exact .crash hs (by simpa using hp) (by simpa using hq) (by simp [hsock])
      · exact .crash hs (by simpa using hp) (by simpa using hq) (by simp [hnon])
      · exact .established hs (by simpa using hp) (by simpa using hq) (by simp [hsock, hnon])

lemma mem_openFds_answered (l : ℕ) (a : AcceptResult) (rest : List AcceptResult) :
    a.fd ∈ (u.answered l a rest).openFds := Finset.mem_insert_self _ _

lemma Batch.fullyAccepted (h : Batch u free) {l ls i : ℕ} {next : Option ℕ} {a : AcceptResult}
    {rest : List AcceptResult} (hl : .read l ∈ u.postedAcceptEvents) (hi : free.head? = some i)
    (hok : u.eventAccept l =
      .ok (((u.answered l a rest).handOut i next a.fd).established i ls)) :
    FullyAccepted u (((u.answered l a rest).handOut i next a.fd).established i ls) i ls a.fd := by
  obtain ⟨_, he, hu, hacc⟩ := h.accepts _ hl
  obtain rfl := Ev.read.inj he
  obtain ⟨free', ht, hacp⟩ := h.table.eventAccept hu hacc hok
  set v := (u.answered l a rest).handOut i next a.fd with hv
  have hself : v.slots i = freshSlot a.fd := by rw [hv, handOut_self]
  have hslot : (v.established i ls).slots i =
      acceptedSlot a.fd ls v.nextPool (v.withPool i).nextPool v.nevents := by
    rw [slots_established hself, if_pos rfl]
  have hissued : i ∈ (v.established i ls).issued := Finset.mem_insert_self i _
  have hfree : free = i :: free' := by
    rcases hacp.taken with rfl | ⟨j, hj⟩
    · -- the slot has left the list
      have hdest := ht.released i (List.mem_of_mem_head? hi) hissued
      rw [hslot] at hdest
      cases hdest
    · rw [hj] at hi ⊢
      rw [Option.some.inj hi]
  have hout : i ∉ free' := by
    have := h.table.nodup
    rw [hfree] at this
    exact (List.nodup_cons.mp this).1
  have hentry := ht.entry i ⟨hissued, hout⟩
  have hmem : Ev.read i ∈ (v.established i ls).registered :=
    ht.registered_iff.mpr ⟨⟨hissued, hout⟩, by
      show ((v.established i ls).slots i).read.index ≠ none
      rw [hslot]
      exact Option.some_ne_none _⟩
  have hfd : ((v.established i ls).slots i).conn.fd = a.fd := by rw [hslot]; rfl
  have hpools := hentry.pools
  have hnodup := hentry.nodup
  rw [hslot] at hpools hnodup
  refine ⟨⟨free', hfree ▸ h.table.freeList, ht.freeList⟩, ⟨hfd, ?_⟩,
    ⟨_, _, by rw [hslot]; rfl, by rw [hslot]; rfl, ?_, hpools _ ?_, hpools _ ?_⟩,
    by rw [hslot]; rfl,
    by rw [hslot]; exact ⟨rfl, rfl⟩, hmem, ?_⟩
  · rcases hentry.fd with hn | hn
    · exact mem_openFds_answered l a rest
    · exact hfd ▸ hn.2
  · exact (Nat.lt_succ_self _).ne
  · simp [Slot.pools, acceptedSlot]
  · simp [Slot.pools, acceptedSlot]
  · rw [← hfd]
    exact (ht.registry.masterRead _).mpr ⟨i, hmem, rfl⟩

theorem Batch.accept_iff (h : Batch u free) {l : ℕ}
    (hl : .read l ∈ u.postedAcceptEvents) {a : AcceptResult} {rest : List AcceptResult}
    (ha : (u.slots l).wire.accepts = a :: rest) (hpos : 0 ≤ a.fd) (hnew : a.fd ∉ u.openFds) :
    AllOrNothing u l a.fd (u.callHandler (.read l)) ↔ Unfailing u a := by
  obtain ⟨_, he, hu, hacc⟩ := h.accepts _ hl
  obtain rfl := Ev.read.inj he
  have hentry := h.table.entry l hu
  obtain ⟨ls, hls⟩ : ∃ ls, (u.slots l).conn.listening = some ls := by
    refine Option.ne_none_iff_exists'.mp fun hn => ?_
    exact absurd ((hentry.idle hn).1.symm.trans hacc) (by simp)
  have hcall : u.callHandler (.read l) = u.eventAccept l := by
    unfold callHandler
    rw [show (u.event (.read l)).handler = some .eventAccept from (hentry.listener hacc).1]
    rfl
  rw [hcall]
  -- a state in which the descriptor is open and no slot has both pools is neither of the two
  have hneither : ∀ w, a.fd ∈ w.openFds →
      (∀ i, FreeList u (i :: free.tail) → free.head? = some i → (w.slots i).conn.tempPool = none) →
      ¬ AllOrNothing u l a.fd (.ok w) := by
    rintro w hopen hnone ⟨w', hw', ⟨i, ls', -, hfull⟩ | hundone⟩
    · obtain rfl := Except.ok.inj hw'
      obtain ⟨free', hfree, -⟩ := hfull.taken
      obtain ⟨p, q, -, hq, -⟩ := hfull.pools
      have heq : i :: free' = free := LinkedChain.Chain.unique hfree.chain h.table.chain
      rw [hnone i (by rw [← heq]; exact hfree) (by rw [← heq]; rfl)] at hq
      cases hq
    · obtain rfl := Except.ok.inj hw'
      exact hundone.closed hopen
  have herror : ∀ f, ¬ AllOrNothing u l a.fd (.error f) := fun f ⟨w, hw, _⟩ => nomatch hw
  rcases h.table.eventAccept_answer hls ha hpos hnew with ⟨rfl, heq⟩ | ⟨i, next, hi, heq⟩
  · rw [heq]
    refine iff_of_false (hneither _ (mem_openFds_answered l a rest) fun i _ hi => nomatch hi)
      fun hun => hun.1 h.table.chain
  · have hhead : u.freeConnections ≠ none := by
      rw [h.table.chain.head_eq, hi]
      exact Option.some_ne_none i
    have hself : ((u.answered l a rest).handOut i next a.fd).slots i = freshSlot a.fd := by
      rw [handOut_self]
    have hopen : a.fd ∈ ((u.answered l a rest).handOut i next a.fd).openFds :=
      mem_openFds_answered l a rest
    have hi' : ∀ {j}, free.head? = some j → j = i := fun hj => Option.some.inj (hj.symm.trans hi)
    split_ifs at heq with hp hq hs hn
    · rw [heq]
      refine iff_of_false (hneither _ hopen fun j _ hj => ?_) fun hun => ?_
      · rw [hi' hj, hself]
        rfl
      · rw [hun.2.1] at hp
        cases hp
    · rw [heq]
      refine iff_of_false (hneither _ hopen fun j _ hj => ?_) fun hun => ?_
      · rw [hi' hj, slots_withPool, if_pos rfl, hself]
        rfl
      · rw [hun.2.2.1] at hq
        cases hq
    · rw [heq]
      exact iff_of_false (herror _) fun hun => by rw [hun.2.2.2.1] at hs; cases hs
    · rw [heq]
      exact iff_of_false (herror _) fun hun => by rw [hun.2.2.2.2] at hn; cases hn
    · refine iff_of_true ⟨_, heq, .inl ⟨i, ls, hls, h.fullyAccepted hl hi heq⟩⟩
        ⟨hhead, Bool.eq_true_of_not_eq_false hp, Bool.eq_true_of_not_eq_false hq,
          Bool.eq_true_of_not_eq_false hs, Bool.eq_true_of_not_eq_false hn⟩

end World

/-- In every run, for every call of `xdbd_event_accept` that gets a new descriptor. -/
theorem Run.accept_all_or_nothing_iff (h : Run boot w) {kernel : Kernel} (hk : Allowed w kernel)
    {l : ℕ} (hc : (.read l, u) ∈ (w.processEventsAndTimers kernel).1)
    (hh : (u.slots l).read.handler = some .eventAccept) {a : AcceptResult}
    {rest : List AcceptResult} (ha : (u.slots l).wire.accepts = a :: rest) (hpos : 0 ≤ a.fd)
    (hnew : a.fd ∉ u.openFds) :
    AllOrNothing u l a.fd (u.callHandler (.read l)) ↔ Unfailing u a := by
  have hcalled := (RunInvariant.trivial boot).called h hk _ hc
  obtain ⟨free, hb⟩ := hcalled.batch
  refine hb.accept_iff ?_ ha hpos hnew
  refine (List.mem_append.mp hcalled.posted).resolve_right fun hm => ?_
  obtain ⟨i, he, hp, hf, -⟩ := hb.others _ hm
  obtain rfl := Ev.read.inj he
  obtain ⟨-, -, -, -, -, hd, hhd⟩ := hb.table.peer_entry hp hf
  rw [hh] at hhd
  cases hhd

/-- A fresh daemon in which the answer `a` waits, when its listening slot is called. -/
def knocked (a : AcceptResult) : World :=
  (((afterStart (.single 2 3)).feed 0 ⟨[], [], [a], []⟩).selectProcessEvents (.reporting {3})).2

lemma run_knocking (a : AcceptResult) :
    Run (.single 2 3) ((afterStart (.single 2 3)).feed 0 ⟨[], [], [a], []⟩) :=
  (Run.start ⟨by decide, by decide, rfl⟩).step (.feed _ 0 _)

lemma allowed_knocking (a : AcceptResult) :
    Allowed ((afterStart (.single 2 3)).feed 0 ⟨[], [], [a], []⟩) (.reporting {3}) :=
  .reporting {3} (show ({3} : Finset ℤ) ⊆ (afterStart (.single 2 3)).masterRead by decide)
    (show ∀ s ∈ ({3} : Finset ℤ), 0 ≤ s ∧ s < (afterStart (.single 2 3)).nfds by decide)

theorem Run.accept_all_or_nothing_client :
    AllOrNothing (knocked ⟨4, true, true, true, true⟩) 0 4
      ((knocked ⟨4, true, true, true, true⟩).callHandler (.read 0)) :=
  ((run_knocking ⟨4, true, true, true, true⟩).accept_all_or_nothing_iff
    (allowed_knocking ⟨4, true, true, true, true⟩) (.head _) rfl rfl (by decide) (by decide)).mpr
      ⟨by decide, rfl, rfl, rfl, rfl⟩

/-- Without memory for the first pool the slot and the descriptor are lost. -/
theorem accept_leaks_poolless :
    ¬ AllOrNothing (knocked ⟨4, false, true, true, true⟩) 0 4
      ((knocked ⟨4, false, true, true, true⟩).callHandler (.read 0)) := fun h => by
  have hcalled := (RunInvariant.trivial (.single 2 3)).called
    (run_knocking ⟨4, false, true, true, true⟩) (allowed_knocking ⟨4, false, true, true, true⟩)
    (.read 0, knocked ⟨4, false, true, true, true⟩) (.head _)
  obtain ⟨free, hb⟩ := hcalled.batch
  have hun := (hb.accept_iff (.head _) rfl (by decide) (by decide)).mp h
  exact absurd hun.2.1 (by decide)

end Xdbd
