import Xdbd.Runs

/-!
# A turn as a sequence of calls

One turn of the worker loop, taken apart: after `select` the handlers of the posted events
are called one after the other, each call followed by the removal of its event.
-/
namespace Xdbd
open World

variable {u v w w' : World} {free : List ℕ}

/-- A call of the handler of a posted event, with the removal of the event. -/
structure Calling (w : World) (ev : Ev) (w' : World) : Prop where
  batch : ∃ free, Batch w free
  posted : ev ∈ w.postedAcceptEvents ++ w.postedEvents
  call : ∃ u, w.callHandler ev = .ok u ∧ w' = u.deletePostedEvent ev

/-- Calls one after the other, each with the state it is made in. -/
inductive Calls : World → List (Ev × World) → World → Prop
  | none (w : World) : Calls w [] w
  | next {u v w : World} {ev : Ev} {l : List (Ev × World)} (first : Calling u ev v)
      (rest : Calls v l w) : Calls u ((ev, u) :: l) w

lemma Calls.append {l l' : List (Ev × World)} (h : Calls u l v) (h' : Calls v l' w) :
    Calls u (l ++ l') w := by
  induction h with
  | none w => exact h'
  | next first rest ih => exact .next first (ih h')

theorem Calls.preserves {J : World → Prop} (hJ : ∀ {u ev v}, Calling u ev v → J u → J v)
    {l : List (Ev × World)} (h : Calls u l v) (hu : J u) : J v := by
  induction h with
  | none w => exact hu
  | next first rest ih => exact ih (hJ first hu)

namespace World

lemma Batch.calling_accept (h : Batch u free) {ev : Ev} {evs : List Ev}
    (hA : u.postedAcceptEvents = ev :: evs) (hcall : u.callHandler ev = .ok v) :
    Calling u ev (v.deletePostedEvent ev) ∧
      (∃ free', Batch (v.deletePostedEvent ev) free') ∧
        (v.deletePostedEvent ev).postedAcceptEvents = evs ∧
          (v.deletePostedEvent ev).postedEvents = u.postedEvents := by
  have hev : ev ∈ u.postedAcceptEvents := by simp [hA]
  obtain ⟨l, rfl, -⟩ := h.accepts ev hev
  obtain ⟨free', hacc, hb⟩ := h.accept hev hcall
  have hnot : Ev.read l ∉ u.postedEvents := fun hm =>
    (List.nodup_append.mp h.nodup).2.2 _ hev _ hm rfl
  refine ⟨⟨⟨free, h⟩, List.mem_append_left _ hev, v, hcall, rfl⟩, ⟨free', hb⟩, ?_, ?_⟩
  · show v.postedAcceptEvents.erase _ = _
    rw [hacc.postedAcceptEvents, hA, List.erase_cons_head]
  · show v.postedEvents.erase _ = _
    rw [hacc.postedEvents, List.erase_of_not_mem hnot]

lemma Batch.calling_other (h : Batch u free) {ev : Ev} {evs : List Ev}
    (hA : u.postedAcceptEvents = []) (hP : u.postedEvents = ev :: evs)
    (hcall : u.callHandler ev = .ok v) :
    Calling u ev (v.deletePostedEvent ev) ∧
      (∃ free', Batch (v.deletePostedEvent ev) free') ∧
        (v.deletePostedEvent ev).postedAcceptEvents = [] ∧
          (v.deletePostedEvent ev).postedEvents = evs := by
  have hev : ev ∈ u.postedEvents := by simp [hP]
  obtain ⟨i, rfl, -⟩ := h.others ev hev
  obtain ⟨free', hd, -, hframe, -, hb⟩ := h.handler hev hcall
  refine ⟨⟨⟨free, h⟩, List.mem_append_right _ hev, v, hcall, rfl⟩, ⟨free', hb⟩, ?_, ?_⟩
  · show v.postedAcceptEvents.erase _ = _
    rw [hframe.postedAcceptEvents, hA, List.erase_nil]
  · show v.postedEvents.erase _ = _
    rw [hframe.postedEvents, hP, List.erase_cons_head]

lemma eventProcessPosted_calls {I : List Ev → World → Prop}
    (hstep : ∀ {ev evs u v}, I (ev :: evs) u → u.callHandler ev = .ok v →
      Calling u ev (v.deletePostedEvent ev) ∧ I evs (v.deletePostedEvent ev))
    (evs : List Ev) {u : World} (hu : I evs u) (h : (eventProcessPosted evs u).2 = .ok w) :
    Calls u (eventProcessPosted evs u).1 w ∧ I [] w ∧
      (eventProcessPosted evs u).1.map Prod.fst = evs ∧
        ∀ c ∈ (eventProcessPosted evs u).1, ∃ rest, I (c.1 :: rest) c.2 := by
  induction evs generalizing u with
  | nil =>
    obtain rfl : u = w := Except.ok.inj h
    exact ⟨.none u, hu, rfl, fun c hc => absurd hc List.not_mem_nil⟩
  | cons ev evs ih =>
    simp only [eventProcessPosted] at h ⊢
    cases hcall : u.callHandler ev with
    | error f =>
      rw [hcall] at h
      cases h
    | ok v =>
      rw [hcall] at h
      obtain ⟨hfirst, hv⟩ := hstep hu hcall
      obtain ⟨hrest, hw, hmap, hall⟩ := ih hv h
      refine ⟨.next hfirst hrest, hw, by simp [hmap], fun c hc => ?_⟩
      rcases List.mem_cons.mp hc with rfl | hc
      · exact ⟨evs, hu⟩
      · exact hall c hc

/-- A batch that comes to its end: the calls of `xdbd_event_accept`, and then those of the
handlers of accepted connections. -/
theorem Batch.calls (h : Batch u free) {kernel : Kernel}
    (hw : (w.selectProcessEvents kernel).2 = u)
    (hfin : (w.processEventsAndTimers kernel).2 = .ok w') :
    ∃ l m x, (w.processEventsAndTimers kernel).1 = l ++ m ∧ Calls u l x ∧ Calls x m w' ∧
      m.map Prod.fst = u.postedEvents ∧
      (∀ c ∈ l, (c.2.event c.1).handler = some .eventAccept) ∧
      ∀ c ∈ m, ∃ hd, (c.2.event c.1).handler = some (.adb hd) := by
  have hfirst : ∀ {ev evs x y}, ((∃ free, Batch x free) ∧ x.postedAcceptEvents = ev :: evs ∧
      x.postedEvents = u.postedEvents) → x.callHandler ev = .ok y →
      Calling x ev (y.deletePostedEvent ev) ∧ (∃ free, Batch (y.deletePostedEvent ev) free) ∧
        (y.deletePostedEvent ev).postedAcceptEvents = evs ∧
          (y.deletePostedEvent ev).postedEvents = u.postedEvents := by
    rintro ev evs x y ⟨⟨_, hb⟩, hA, hP⟩ hcall
    obtain ⟨hc, hb', hA', hP'⟩ := hb.calling_accept hA hcall
    exact ⟨hc, hb', hA', hP'.trans hP⟩
  have hsecond : ∀ {ev evs x y}, ((∃ free, Batch x free) ∧ x.postedAcceptEvents = [] ∧
      x.postedEvents = ev :: evs) → x.callHandler ev = .ok y →
      Calling x ev (y.deletePostedEvent ev) ∧ (∃ free, Batch (y.deletePostedEvent ev) free) ∧
        (y.deletePostedEvent ev).postedAcceptEvents = [] ∧
          (y.deletePostedEvent ev).postedEvents = evs := by
    rintro ev evs x y ⟨⟨_, hb⟩, hA, hP⟩ hcall
    exact hb.calling_other hA hP hcall
  unfold processEventsAndTimers at hfin ⊢
  simp only [hw] at hfin ⊢
  cases hr : (eventProcessPosted u.postedAcceptEvents u).2 with
  | error f =>
    rw [hr] at hfin
    cases hfin
  | ok x =>
    rw [hr] at hfin
    obtain ⟨hcalls, ⟨hb, hA, hP⟩, -, hall⟩ := eventProcessPosted_calls
      (I := fun evs x => (∃ free, Batch x free) ∧ x.postedAcceptEvents = evs ∧
        x.postedEvents = u.postedEvents) hfirst _ ⟨⟨free, h⟩, rfl, rfl⟩ hr
    obtain ⟨hcalls', -, hmap, hall'⟩ := eventProcessPosted_calls
      (I := fun evs x => (∃ free, Batch x free) ∧ x.postedAcceptEvents = [] ∧
        x.postedEvents = evs) hsecond _ ⟨hb, hA, rfl⟩ hfin
    refine ⟨_, _, x, rfl, hcalls, hcalls', hmap.trans hP, fun c hc => ?_, fun c hc => ?_⟩
    · obtain ⟨rest, ⟨free', hb'⟩, hA', -⟩ := hall c hc
      obtain ⟨l, he, hl, hacc⟩ := hb'.accepts c.1 (by simp [hA'])
      rw [he]
      exact ((hb'.table.entry l hl).listener hacc).1
    · obtain ⟨rest, ⟨free', hb'⟩, -, hP'⟩ := hall' c hc
      obtain ⟨i, he, hp, hi, -⟩ := hb'.others c.1 (by simp [hP'])
      obtain ⟨-, -, -, -, -, hd, hhd⟩ := hb'.table.peer_entry hp hi
      rw [he]
      exact ⟨hd, hhd⟩

theorem Idle.calls (h : Idle w free) {kernel : Kernel} (hk : Allowed w kernel)
    (hfin : (w.processEventsAndTimers kernel).2 = .ok w') :
    Calls (w.selectProcessEvents kernel).2 (w.processEventsAndTimers kernel).1 w' := by
  obtain ⟨l, m, x, hlm, hl, hm, -⟩ := ((h.selected hk).batch h).calls rfl hfin
  rw [hlm]
  exact hl.append hm

end World
end Xdbd
