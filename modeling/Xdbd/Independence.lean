import Xdbd.Faults

/-!
# Clients do not influence each other

The handlers of two accepted connections of one batch, run in either order, end alike up to
the order of the registry and of the free list, if neither of them runs into a fault.
-/
namespace Xdbd
open Interaction LinkedChain World

variable {boot : Boot} {u v w : World} {free : List ℕ}

/-- The same outcome up to the order of the index and of the free list: connections, events
and wires agree, and so do the registered events, the master sets and the free slots. -/
structure SameOutcome (v w : World) : Prop where
  slots : ∀ j, (v.slots j).norm = (w.slots j).norm
  registered : ∀ e, e ∈ v.registered ↔ e ∈ w.registered
  masterRead : v.masterRead = w.masterRead
  masterWrite : v.masterWrite = w.masterWrite
  freeSlots : ∃ free free', Chain v.link v.freeConnections free ∧
    Chain w.link w.freeConnections free' ∧ free.Perm free'
  freeConnectionN : v.freeConnectionN = w.freeConnectionN
  postedAcceptEvents : v.postedAcceptEvents = w.postedAcceptEvents
  postedEvents : v.postedEvents = w.postedEvents

/-- Both orders come to their end, with the same outcome. -/
def Commutes (u : World) (A B : ℕ) : Prop :=
  ∃ v v', (eventProcessPosted [.read A, .read B] u).2 = .ok v ∧
    (eventProcessPosted [.read B, .read A] u).2 = .ok v' ∧ SameOutcome v v'

namespace World

lemma Table.mem_free (h : Table w free) (i : ℕ) :
    i ∈ free ↔ i < w.connectionN ∧ (i ∈ w.issued → (w.slots i).conn.destroyed = true) := by
  constructor
  · exact fun hi => ⟨h.inTable i (.inl hi), h.released i hi⟩
  · rintro ⟨hlt, hdest⟩
    by_contra hi
    have hissued : i ∈ w.issued := by_contra fun hn => hi (h.unissued i hlt hn)
    have halive := (h.entry i ⟨hissued, hi⟩).alive
    rw [hdest hissued] at halive
    cases halive

lemma event_norm {e : Ev} (hs : (v.slots e.slot).norm = (w.slots e.slot).norm) :
    (v.event e).norm = (w.event e).norm := by
  cases e with
  | read i => exact congrArg Slot.read hs
  | write i => exact congrArg Slot.write hs

theorem Table.sameOutcome {free' : List ℕ} (h : Table v free) (h' : Table w free')
    (hslots : ∀ j, (v.slots j).norm = (w.slots j).norm) (hN : v.connectionN = w.connectionN)
    (hissued : v.issued = w.issued) (hA : v.postedAcceptEvents = w.postedAcceptEvents)
    (hP : v.postedEvents = w.postedEvents) : SameOutcome v w := by
  have hdest : ∀ i, (v.slots i).conn.destroyed = (w.slots i).conn.destroyed := fun i =>
    congrArg (fun s => s.conn.destroyed) (hslots i)
  have hfd : ∀ e, v.fd e = w.fd e := fun e => congrArg (fun s => s.conn.fd) (hslots e.slot)
  have hfree : ∀ i, i ∈ free ↔ i ∈ free' := fun i => by
    rw [h.mem_free, h'.mem_free, hN, hissued, hdest]
  have hreg : ∀ e, e ∈ v.registered ↔ e ∈ w.registered := fun e => by
    have hidx : (v.event e).index ≠ none ↔ (w.event e).index ≠ none :=
      not_congr (Event.index_none_congr (event_norm (hslots e.slot)))
    rw [h.registered_iff, h'.registered_iff, InUse, InUse, hissued, hfree, hidx]
  have hperm : free.Perm free' := (List.perm_ext_iff_of_nodup h.nodup h'.nodup).mpr hfree
  refine ⟨hslots, hreg, ?_, ?_, ⟨free, free', h.chain, h'.chain, hperm⟩, ?_, hA, hP⟩
  · ext s
    rw [h.registry.masterRead, h'.registry.masterRead]
    exact exists_congr fun i => and_congr (hreg _) (by rw [hfd])
  · ext s
    rw [h.registry.masterWrite, h'.registry.masterWrite]
    exact exists_congr fun i => and_congr (hreg _) (by rw [hfd])
  · rw [h.count, h'.count, hperm.length_eq]

end World

/-- What a handler leaves of its slot once its event is taken off the list. -/
def Slot.unposted (s : Slot) : Slot := { s with read := { s.read with posted := false } }

/-- The state after the handlers of `A` and then of `B`. -/
structure Both (A B : ℕ) (u v : World) (a b : Slot) : Prop where
  table : ∃ free, Table v free
  first : (v.slots A).norm = a.unposted
  second : (v.slots B).norm = b.unposted
  others : ∀ j, j ≠ A → j ≠ B → (v.slots j).norm = (u.slots j).norm
  connectionN : v.connectionN = u.connectionN
  issued : v.issued = u.issued
  postedAcceptEvents :
    v.postedAcceptEvents = (u.postedAcceptEvents.erase (.read A)).erase (.read B)
  postedEvents : v.postedEvents = (u.postedEvents.erase (.read A)).erase (.read B)

/-- The handlers of `A` and `B` in this order: a fault is one of the two programs by itself. -/
lemma World.Batch.pair (h : Batch u free) {A B : ℕ} (hA : .read A ∈ u.postedEvents)
    (hB : .read B ∈ u.postedEvents) (hAB : A ≠ B) {ha hb : AdbHandler}
    (hha : (u.slots A).read.handler = some (.adb ha))
    (hhb : (u.slots B).read.handler = some (.adb hb)) :
    (∃ f f', (eventProcessPosted [.read A, .read B] u).2 = .error f ∧
        (Prog.run Slot.exec (code ha) (u.slots A).norm = .error f' ∨
          Prog.run Slot.exec (code hb) (u.slots B).norm = .error f')) ∨
      ∃ v a b, (eventProcessPosted [.read A, .read B] u).2 = .ok v ∧
        Prog.run Slot.exec (code ha) (u.slots A).norm = .ok ((), a) ∧
        Prog.run Slot.exec (code hb) (u.slots B).norm = .ok ((), b) ∧ Both A B u v a b := by
  obtain ⟨hd, hhd, hout⟩ := h.outcome hA
  obtain rfl : hd = ha := Handler.adb.inj (Option.some.inj (hhd.symm.trans hha))
  simp only [eventProcessPosted]
  rcases hout with ⟨f, f', hcall, hrun⟩ | ⟨v, free', hcall, hframe, hrun, hbatch⟩
  · exact .inl ⟨f, f', by rw [hcall], .inl hrun⟩
  · set u' := v.deletePostedEvent (.read A) with hu'
    have hslot : ∀ j ≠ A, u'.slots j = v.slots j := fun j hj => by
      rw [hu', slots_deletePostedEvent, if_neg hj]
    have hslotA : (u'.slots A).norm = (v.slots A).norm.unposted := by
      rw [hu', slots_deletePostedEvent, if_pos rfl]
      rfl
    have hnorm : ∀ j ≠ A, (u'.slots j).norm = (u.slots j).norm := fun j hj => by
      rw [hslot j hj]
      exact (hframe.others j hj).norm
    have hP' : u'.postedEvents = u.postedEvents.erase (.read A) := by
      rw [← hframe.postedEvents]
      rfl
    have hA' : u'.postedAcceptEvents = u.postedAcceptEvents.erase (.read A) := by
      rw [← hframe.postedAcceptEvents]
      rfl
    have hmem : Ev.read B ∈ u'.postedEvents := by
      rw [hP', List.mem_erase_of_ne (by simpa using hAB.symm)]
      exact hB
    obtain ⟨hd', hhd', hout'⟩ := hbatch.outcome hmem
    obtain rfl : hd' = hb := by
      have := (congrArg (fun s => s.read.handler) (hnorm B hAB.symm) :
        (u'.slots B).read.handler = (u.slots B).read.handler)
      exact Handler.adb.inj (Option.some.inj (hhd'.symm.trans (this.trans hhb)))
    rw [hnorm B hAB.symm] at hout'
    simp only [hcall]
    rcases hout' with ⟨f, f', hcall', hrun'⟩ | ⟨v', free'', hcall', hframe', hrun', hbatch'⟩
    · exact .inl ⟨f, f', by rw [hcall'], .inr hrun'⟩
    · refine .inr ⟨_, _, _, by rw [hcall'], hrun, hrun', ?_⟩
      have hslot' : ∀ j ≠ B, (v'.deletePostedEvent (.read B)).slots j = v'.slots j :=
        fun j hj => by rw [slots_deletePostedEvent, if_neg hj]
      refine ⟨⟨free'', hbatch'.table⟩, ?_, ?_, fun j hjA hjB => ?_, ?_, ?_, ?_, ?_⟩
      · rw [hslot' A hAB, (hframe'.others A hAB).norm, hslotA]
      · rw [slots_deletePostedEvent, if_pos rfl]
        rfl
      · rw [hslot' j hjB, (hframe'.others j hjB).norm, hnorm j hjA]
      · exact hframe'.connectionN.trans hframe.connectionN
      · exact hframe'.issued.trans hframe.issued
      · show v'.postedAcceptEvents.erase _ = _
        rw [hframe'.postedAcceptEvents, hA']
      · show v'.postedEvents.erase _ = _
        rw [hframe'.postedEvents, hP']

lemma Both.sameOutcome {A B : ℕ} {a b : Slot} {v v' : World} (h : Both A B u v a b)
    (h' : Both B A u v' b a) : SameOutcome v v' := by
  obtain ⟨free, ht⟩ := h.table
  obtain ⟨free', ht'⟩ := h'.table
  refine ht.sameOutcome ht' (fun j => ?_) (h.connectionN.trans h'.connectionN.symm)
    (h.issued.trans h'.issued.symm) ?_ ?_
  · by_cases hjA : j = A
    · rw [hjA, h.first, h'.second]
    · by_cases hjB : j = B
      · rw [hjB, h.second, h'.first]
      · rw [h.others j hjA hjB, h'.others j hjB hjA]
  · rw [h.postedAcceptEvents, h'.postedAcceptEvents, List.erase_comm]
  · rw [h.postedEvents, h'.postedEvents, List.erase_comm]

/-- The two orders agree exactly if each program comes to its end on its own slot. -/
theorem World.Batch.commutes_iff (h : Batch u free) {A B : ℕ} (hA : .read A ∈ u.postedEvents)
    (hB : .read B ∈ u.postedEvents) (hAB : A ≠ B) {ha hb : AdbHandler}
    (hha : (u.slots A).read.handler = some (.adb ha))
    (hhb : (u.slots B).read.handler = some (.adb hb)) :
    Commutes u A B ↔ (∃ t, Prog.run Slot.exec (code ha) (u.slots A).norm = .ok ((), t)) ∧
      ∃ t, Prog.run Slot.exec (code hb) (u.slots B).norm = .ok ((), t) := by
  constructor
  · rintro ⟨v, v', hv, -, -⟩
    rcases h.pair hA hB hAB hha hhb with ⟨f, f', hf, -⟩ | ⟨_, a, b, -, hra, hrb, -⟩
    · cases hf.symm.trans hv
    · exact ⟨⟨a, hra⟩, b, hrb⟩
  · rintro ⟨⟨a, hra⟩, b, hrb⟩
    have hno : ∀ f', ¬ (Prog.run Slot.exec (code ha) (u.slots A).norm = .error f' ∨
        Prog.run Slot.exec (code hb) (u.slots B).norm = .error f') := by
      rintro f' (hf | hf)
      · cases hf.symm.trans hra
      · cases hf.symm.trans hrb
    rcases h.pair hA hB hAB hha hhb with ⟨_, f', -, hf⟩ | ⟨v, a', b', hv, hra', hrb', hboth⟩
    · exact absurd hf (hno f')
    · rcases h.pair hB hA hAB.symm hhb hha with
        ⟨_, f', -, hf⟩ | ⟨v', b'', a'', hv', hrb'', hra'', hboth'⟩
      · exact absurd hf.symm (hno f')
      · obtain rfl : a' = a'' := (Prod.ext_iff.mp (Except.ok.inj (hra'.symm.trans hra''))).2
        obtain rfl : b' = b'' := (Prod.ext_iff.mp (Except.ok.inj (hrb'.symm.trans hrb''))).2
        exact ⟨v, v', hv, hv', hboth.sameOutcome hboth'⟩

lemma World.Batch.passed_others (h : Batch u free) {A B : ℕ} (hA : .read A ∈ u.postedEvents)
    (hAB : A ≠ B) (hv : v ∈ Xdbd.passed (.read A, u)) : SameButIndex (u.slots B) (v.slots B) := by
  rcases h.passed (List.mem_append_right _ hA) hv with rfl | ⟨i, hd, s, he, -, -, -, -, hlink, -⟩
  · exact .refl _
  · obtain rfl := Ev.read.inj he
    exact hlink.frame.others B hAB.symm

/-- Two accepted connections with posted read events, at any call of a batch and with memory for
both. In either order they get the same exactly if the bytes that come for a payload reach behind
`pos`, and no state inside the handler of one differs in the slot of the other. -/
theorem Run.clients_independent (h : Run boot w) {kernel : Kernel} (hk : Allowed w kernel)
    {c : Ev × World} (hc : c ∈ (w.processEventsAndTimers kernel).1) {A B : ℕ}
    (hA : .read A ∈ c.2.postedEvents) (hB : .read B ∈ c.2.postedEvents) (hAB : A ≠ B)
    (hmA : (c.2.slots A).AllocsSucceed) (hmB : (c.2.slots B).AllocsSucceed) :
    (Commutes c.2 A B ↔ (c.2.slots A).CatchesUp ∧ (c.2.slots B).CatchesUp) ∧
      ∀ v ∈ Xdbd.passed (.read A, c.2), SameButIndex (c.2.slots B) (v.slots B) := by
  have hcalled := (paused_invariant.runInvariant boot).called h hk _ hc
  obtain ⟨free, hb⟩ := hcalled.batch
  have hpaused : ∀ j, c.2.Peer j → Paused (c.2.slots j).norm :=
    fun j hp => hcalled.holds j hp trivial
  obtain ⟨da, hda, hfa⟩ := hb.program_finishes_iff hA hpaused hmA
  obtain ⟨db, hdb, hfb⟩ := hb.program_finishes_iff hB hpaused hmB
  refine ⟨(hb.commutes_iff hA hB hAB hda hdb).trans (and_congr hfa hfb), fun v hv => ?_⟩
  exact hb.passed_others hA hAB hv

/-- Two clients, of which each has sent a byte. -/
def twoClients : World :=
  (twoAccepted.feed 1 ⟨[.bytes [67]], [], [], []⟩).feed 2 ⟨[.bytes [79]], [], [], []⟩

lemma run_twoClients : Run (.single 3 3) twoClients :=
  (run_twoAccepted.step (.feed _ 1 _)).step (.feed _ 2 _)

theorem Run.clients_independent_two :
    let u := (twoClients.selectProcessEvents (.reporting {4, 5})).2
    Commutes u 1 2 ∧ ∀ v ∈ Xdbd.passed (.read 1, u), SameButIndex (u.slots 2) (v.slots 2) := by
  have hk : Allowed twoClients (.reporting {4, 5}) := .reporting {4, 5} (by decide) (by decide)
  have h := run_twoClients.clients_independent hk
    (c := (.read 1, (twoClients.selectProcessEvents (.reporting {4, 5})).2)) (A := 1) (B := 2)
    (@List.mem_of_getElem? _ _ 0 _ rfl) (by decide) (by decide) (by decide)
    (fun m hm => absurd hm List.not_mem_nil) fun m hm => absurd hm List.not_mem_nil
  exact ⟨h.1.mpr ⟨fun hp => absurd hp (by decide), fun hp => absurd hp (by decide)⟩, h.2⟩

/-- Where the first client's handler runs into a fault the second one is not served after it. -/
theorem clients_dependent_crossing :
    ¬ ∀ (boot : Boot) (w : World) (kernel : Kernel) (c : Ev × World) (A B : ℕ), Run boot w →
      Allowed w kernel → c ∈ (w.processEventsAndTimers kernel).1 → .read A ∈ c.2.postedEvents →
      .read B ∈ c.2.postedEvents → A ≠ B → (c.2.slots A).AllocsSucceed →
      (c.2.slots B).AllocsSucceed → Commutes c.2 A B := fun h => by
  obtain ⟨v, -, hv, -⟩ := h _ crossing (.reporting {4, 5})
    (.read 1, (crossing.selectProcessEvents (.reporting {4, 5})).2) 1 2 run_crossing
    allowed_crossing
    (@List.mem_of_getElem? _ _ 0 _ rfl) (by decide) (by decide) (by decide)
    (fun m hm => absurd hm List.not_mem_nil) fun m hm => absurd hm List.not_mem_nil
  have hfault : (eventProcessPosted [.read 1, .read 2]
      (crossing.selectProcessEvents (.reporting {4, 5})).2).2 = .error .outOfBounds := rfl
  cases hfault.symm.trans hv

end Xdbd
