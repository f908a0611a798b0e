import Xdbd.Accept

/-!
# One batch of posted events

Between `select` and the next turn the posted lists hold read events of slots in use, the
listening ones apart from the others, and `posted` is set in exactly these events. Each
handler call, with the removal of its event, keeps this.
-/
namespace Xdbd
open Interaction

namespace World
variable {w w' : World} {free : List ℕ}

/-- The posted lists in the course of a batch. -/
structure Batch (w : World) (free : List ℕ) : Prop where
  table : w.Table free
  nodup : (w.postedAcceptEvents ++ w.postedEvents).Nodup
  accepts : ∀ e ∈ w.postedAcceptEvents, ∃ l, e = .read l ∧ w.InUse free l ∧
    (w.slots l).read.accepted = true
  others : ∀ e ∈ w.postedEvents, ∃ i, e = .read i ∧ w.Peer i ∧ i ∉ free ∧
    (w.slots i).read.ready = true
  posted : ∀ e, e.slot ∈ w.issued →
    ((w.event e).posted = true ↔ e ∈ w.postedAcceptEvents ++ w.postedEvents)

lemma slots_deletePostedEvent (i j : ℕ) :
    (w.deletePostedEvent (.read i)).slots j =
      if j = i then { w.slots i with read := { (w.slots i).read with posted := false } }
      else w.slots j :=
  @slots_modSlot w i j fun s => { s with read := { s.read with posted := false } }

lemma event_deletePostedEvent (ev e : Ev) :
    (w.deletePostedEvent ev).event e =
      if e = ev then { w.event ev with posted := false } else w.event e :=
  (event_congr rfl e).trans (@event_modEvent w ev e fun e => { e with posted := false })

lemma Table.deletePostedEvent (h : Table w free) (i : ℕ) :
    Table (w.deletePostedEvent (.read i)) free := by
  have hconn : ∀ j, ((w.deletePostedEvent (.read i)).slots j).conn = (w.slots j).conn :=
    fun j => @conn_modEvent w (.read i) (fun e => { e with posted := false }) j
  refine h.similar ⟨rfl, rfl, rfl, rfl⟩ (fun j _ => link_congr (by rw [hconn])) (fun j => ?_)
    subset_rfl rfl rfl (h.registry.congr (fun e _ => ?_) (fun e _ => fd_congr (hconn e.slot))
      rfl rfl rfl rfl rfl)
  · rw [slots_deletePostedEvent]
    split_ifs with hj
    · rw [hj]
      exact ⟨rfl, rfl, rfl, rfl, Iff.rfl, rfl, rfl, Iff.rfl, .inl rfl⟩
    · exact .refl _
  · rw [event_deletePostedEvent]
    split_ifs with he
    · rw [he]
    · rfl

/-- The batch goes on after a handler that has left the posted lists and the other slots in
the lists alone. -/
lemma Batch.next (h : Batch w free) {i : ℕ} {free' : List ℕ} (ht : Table w' free')
    (hA : w'.postedAcceptEvents = w.postedAcceptEvents) (hP : w'.postedEvents = w.postedEvents)
    (hissued : w.issued ⊆ w'.issued)
    (hother : ∀ j ≠ i, j ∈ w.issued → j ∉ free → j ∉ free' ∧ (w'.slots j).norm = (w.slots j).norm)
    (hposted : ∀ e, e.slot ∈ w'.issued → e ≠ .read i →
      ((w'.event e).posted = true ↔ e ∈ w.postedAcceptEvents ++ w.postedEvents)) :
    Batch (w'.deletePostedEvent (.read i)) free' := by
  have hslots := @slots_deletePostedEvent w' i
  have hA' : (w'.deletePostedEvent (.read i)).postedAcceptEvents =
      w.postedAcceptEvents.erase (.read i) := by rw [← hA]; rfl
  have hP' : (w'.deletePostedEvent (.read i)).postedEvents = w.postedEvents.erase (.read i) := by
    rw [← hP]; rfl
  obtain ⟨hnA, hnP, hdisj⟩ := List.nodup_append.mp h.nodup
  have hmem : ∀ e, e ∈ w.postedAcceptEvents.erase (.read i) ++ w.postedEvents.erase (.read i) ↔
      e ≠ .read i ∧ e ∈ w.postedAcceptEvents ++ w.postedEvents := by
    intro e
    rw [List.mem_append, hnA.mem_erase_iff, hnP.mem_erase_iff, List.mem_append]
    tauto
  have hnorm : ∀ j ≠ i, j ∈ w.issued → j ∉ free →
      ((w'.deletePostedEvent (.read i)).slots j).norm = (w.slots j).norm := by
    intro j hj hj' hf
    rw [hslots, if_neg hj]
    exact (hother j hj hj' hf).2
  refine ⟨ht.deletePostedEvent i, ?_, fun e he => ?_, fun e he => ?_, fun e he => ?_⟩
  · rw [hA', hP', List.nodup_append]
    refine ⟨hnA.erase _, hnP.erase _, fun a ha b hb => hdisj a (List.mem_of_mem_erase ha) b
      (List.mem_of_mem_erase hb)⟩
  · rw [hA', hnA.mem_erase_iff] at he
    obtain ⟨l, rfl, hl, hacc⟩ := h.accepts e he.2
    have hli : l ≠ i := fun hc => he.1 (by rw [hc])
    refine ⟨l, rfl, ⟨hissued hl.1, (hother l hli hl.1 hl.2).1⟩, ?_⟩
    have := congrArg (fun s => s.read.accepted) (hnorm l hli hl.1 hl.2)
    exact this.trans hacc
  · rw [hP', hnP.mem_erase_iff] at he
    obtain ⟨j, rfl, hp, hf, hr⟩ := h.others e he.2
    have hji : j ≠ i := fun hc => he.1 (by rw [hc])
    have hn := hnorm j hji hp.issued hf
    refine ⟨j, rfl, ⟨hissued hp.issued, ?_, ?_⟩, (hother j hji hp.issued hf).1, ?_⟩
    · exact (congrArg (fun s => s.read.accepted) hn).trans hp.accepted
    · rw [show ((w'.deletePostedEvent (.read i)).slots j).conn.listening =
        (w.slots j).conn.listening from congrArg (fun s => s.conn.listening) hn]
      exact hp.listening
    · exact (congrArg (fun s => s.read.ready) hn).trans hr
  · rw [hA', hP', hmem, event_deletePostedEvent]
    split_ifs with hei
    · simp [hei]
    · rw [hposted e he hei]
      simp [hei]

lemma Batch.notMem_free (h : Batch w free) {e : Ev}
    (he : e ∈ w.postedAcceptEvents ++ w.postedEvents) : e.slot ∉ free := by
  rcases List.mem_append.mp he with he | he
  · obtain ⟨l, rfl, hl, -⟩ := h.accepts e he
    exact hl.2
  · obtain ⟨i, rfl, -, hi, -⟩ := h.others e he
    exact hi

lemma posted_congr {e : Ev} (hr : (w'.slots e.slot).read.posted = (w.slots e.slot).read.posted)
    (hw : (w'.slots e.slot).write.posted = (w.slots e.slot).write.posted) :
    (w'.event e).posted = (w.event e).posted := by
  cases e with
  | read i => exact hr
  | write i => exact hw

lemma Accepting.free_subset {l : ℕ} {free' : List ℕ} (h : Accepting l free free' w w') :
    ∀ j ∈ free', j ∈ free := by
  intro j hj
  rcases h.taken with rfl | ⟨i, rfl⟩
  · exact hj
  · exact List.mem_cons_of_mem _ hj

theorem Batch.accept (h : Batch w free) {l : ℕ} (hl : .read l ∈ w.postedAcceptEvents)
    (hok : w.callHandler (.read l) = .ok w') :
    ∃ free', Accepting l free free' w w' ∧ Batch (w'.deletePostedEvent (.read l)) free' := by
  obtain ⟨_, hli, hu, hacc⟩ := h.accepts _ hl
  obtain rfl := Ev.read.inj hli
  have hhandler := (h.table.entry l hu).listener hacc
  have haccept : w.eventAccept l = .ok w' := by
    unfold callHandler at hok
    rw [show (w.event (.read l)).handler = some .eventAccept from hhandler.1] at hok
    exact hok
  obtain ⟨free', ht, hacp⟩ := h.table.eventAccept hu hacc haccept
  refine ⟨free', hacp, h.next ht hacp.postedAcceptEvents hacp.postedEvents
    (fun j hj => (hacp.issued j).mpr (.inl hj)) (fun j hj hji hjf => ⟨?_, ?_⟩) fun e he hne => ?_⟩
  · exact fun hjf' => hjf (hacp.free_subset j hjf')
  · rw [hacp.others j hj fun hjf' => absurd hjf' hjf]
  · by_cases hfresh : e.slot ∈ free ∧ e.slot ∉ free'
    · -- the events of the new slot are fresh and in no list
      have hfalse : (w'.event e).posted = false := by
        rcases hacp.fresh _ hfresh.1 hfresh.2 with ⟨-, hr, hw⟩ | ⟨a, ls, p, q, k, -, hs⟩
        · cases e with
          | read j => exact congrArg Event.posted hr
          | write j => exact congrArg Event.posted hw
        · cases e with
          | read j => exact congrArg (fun s => s.read.posted) hs
          | write j => exact congrArg (fun s => s.write.posted) hs
      rw [hfalse]
      exact ⟨fun hc => absurd hc Bool.false_ne_true, fun hm => absurd hfresh.1 (h.notMem_free hm)⟩
    · have hiss : e.slot ∈ w.issued := ((hacp.issued _).mp he).resolve_right hfresh
      rw [← h.posted e hiss]
      by_cases hel : e.slot = l
      · cases e with
        | read j => exact absurd (congrArg Ev.read hel) hne
        | write j =>
          obtain rfl : j = l := hel
          rw [show (w'.event (.write j)).posted = (w.event (.write j)).posted from
            congrArg Event.posted hacp.write]
      · have hs := hacp.others e.slot hel fun hf => by_contra fun hf' => hfresh ⟨hf, hf'⟩
        have hp : (w'.event e).posted = (w.event e).posted :=
          posted_congr (by rw [hs]) (by rw [hs])
        rw [hp]

/-- A call of the read handler of an accepted connection in a batch. -/
theorem Batch.handler (h : Batch w free) {i : ℕ} (hi : .read i ∈ w.postedEvents)
    (hok : w.callHandler (.read i) = .ok w') :
    ∃ free' hd, (w.slots i).read.handler = some (.adb hd) ∧ Frame i w w' ∧
      Prog.run Slot.exec (code hd) (w.slots i).norm = .ok ((), (w'.slots i).norm) ∧
      Batch (w'.deletePostedEvent (.read i)) free' := by
  obtain ⟨_, hij, hp, hf, -⟩ := h.others _ hi
  obtain rfl := Ev.read.inj hij
  obtain ⟨-, -, -, -, -, hd, hhd⟩ := h.table.peer_entry hp hf
  have hagree := h.table.run hp hf (code hd)
  unfold callHandler at hok
  rw [show (w.event (.read i)).handler = some (.adb hd) from hhd] at hok
  change (Prog.run (World.exec i) (code hd) w).map Prod.snd = .ok w' at hok
  rcases hagree.cases with ⟨e, e', hx, hy⟩ | ⟨⟨⟩, v, t, hx, hy, hlink⟩
  · rw [hx] at hok
    cases hok
  · rw [hx] at hok
    obtain rfl : v = w' := Except.ok.inj hok
    obtain ⟨free', ht, -⟩ := hlink.table
    have hframe := hlink.frame
    refine ⟨free', hd, hhd, hframe, by rw [← hlink.norm]; exact hy, ?_⟩
    refine h.next ht hframe.postedAcceptEvents hframe.postedEvents
      (fun j hj => hframe.issued ▸ hj) (fun j hj hji hjf => ⟨fun hjf' => ?_, ?_⟩)
      fun e he hne => ?_
    · have hdest := ht.released j hjf' (hframe.issued ▸ hji)
      rw [(hframe.others j hj).conn, (h.table.entry j ⟨hji, hjf⟩).alive] at hdest
      cases hdest
    · exact (hframe.others j hj).norm
    · rw [← h.posted e (hframe.issued ▸ he)]
      by_cases hei : e.slot = i
      · cases e with
        | read j => exact absurd (congrArg Ev.read hei) hne
        | write j =>
          obtain rfl : j = i := hei
          rw [show (v.event (.write j)).posted = (w.event (.write j)).posted from
            hframe.writePosted]
      · have hn := (hframe.others e.slot hei).norm
        have hp : (v.event e).posted = (w.event e).posted :=
          posted_congr (congrArg (fun s => s.read.posted) hn)
            (congrArg (fun s => s.write.posted) hn)
        rw [hp]

end World
end Xdbd
