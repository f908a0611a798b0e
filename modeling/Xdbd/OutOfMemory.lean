import Xdbd.ReplyRuns

/-!
# A packet without memory

What an allocation that fails does to a packet: the reply is left out as a whole, except where the
reply is dumped, since the dump is read without a check.
-/
namespace Xdbd
open Interaction Code

variable {s t : Slot} {r : Request}

/-- `xdbd_process_packet` left one whole reply to `p` in `r->out`, or an error and nothing. -/
def Atomic (p : Header) : Rc → Slot → Prop
  | .ok, t => ∃ r o h payload, t.conn.data = .request r ∧ r.out = some o ∧
    o.live = h.bytes ++ payload ∧ Frame p h payload
  | .err, t => ∃ r, t.conn.data = .request r ∧ ∀ o, r.out = some o → o.live = []
  | .again, _ => False

lemma Served.atomic_iff {m : Mem} {x : Except Fault (Rc × Slot)} (h : Served s r x)
    (hs : s.conn.destroyed = false) (hr : s.conn.data = .request r)
    (ho : r.out = some ⟨m, 1024, 0, 0⟩) :
    (∃ rc t, x = .ok (rc, t) ∧ Atomic r.p.header rc t) ↔
      (r.p.header.Supported → r.p.header.pcmd ≠ pcmdAuth → (∀ j < 3, s.granted j = true) →
        ∀ j < 5, s.granted j = true) := by
  have hnothing : ∀ o', r.out = some o' → o'.live = [] := fun o' h' => by
    rw [← Option.some.inj (ho.symm.trans h')]
    rfl
  cases h with
  | refused unsupported =>
    exact iff_of_true ⟨_, _, rfl, r, hr, hnothing⟩ fun hsup => absurd hsup unsupported
  | starved supported denied spent =>
    refine iff_of_true ⟨_, _, rfl, r, by rw [spent.conn, hr], hnothing⟩ fun _ _ hg => ?_
    obtain ⟨j, hj, hd⟩ := denied
    rw [hg j hj] at hd
    cases hd
  | crashed supported dumps granted denied =>
    refine iff_of_false ?_ fun hall => ?_
    · rintro ⟨rc, t, hx, -⟩
      cases hx
    · obtain ⟨j, hj, hd⟩ := denied
      rw [hall supported dumps granted j hj] at hd
      cases hd
  | @replied out k t supported granted dumped frame composed spent =>
    obtain ⟨o', u, hrun, hput⟩ := composed.appendOut hs hr ho (Buf.ok_of_new (by norm_num))
      (s.room_new m r.p.header) spent
    exact iff_of_true ⟨_, _, hrun, _, o', out.header, _, by rw [hput.conn], rfl, hput.grown.live,
      frame⟩ fun _ hd _ => dumped hd

/-- A packet is handled atomically, whatever the pool answers, exactly if the dump of the reply
finds memory whenever it is reached. -/
theorem Slot.packet_atomic_iff (hs : s.conn.destroyed = false) (hr : s.conn.data = .request r)
    (hout : r.out = none) (hclse : r.p.header.pcmd ≠ pcmdClse) :
    (∃ rc t, Prog.run Slot.exec processPacket s = .ok (rc, t) ∧ Atomic r.p.header rc t) ↔
      (r.p.header.Supported → r.p.header.pcmd ≠ pcmdAuth → (∀ j < 5, s.granted j = true) →
        ∀ j < 7, s.granted j = true) := by
  have h := answered_processPacket hs hr hclse
  generalize Prog.run Slot.exec processPacket s = x at h ⊢
  have hnothing : ∀ o, r.out = some o → o.live = [] := fun o ho => by
    rw [hout] at ho
    cases ho
  cases h with
  | invalid magic =>
    exact iff_of_true ⟨_, _, rfl, r, hr, hnothing⟩ fun hsup => absurd hsup.1 magic
  | noBuffer magic out denied spent =>
    refine iff_of_true ⟨_, _, rfl, r, by rw [spent.conn, hr], hnothing⟩ fun _ _ hg => ?_
    obtain ⟨j, hj, hd⟩ := denied
    rw [hg j (by omega)] at hd
    cases hd
  | reused out served =>
    rw [hout] at out
    cases out
  | @created t u m x out granted spent set served =>
    have hu : ∀ j, u.granted j = s.granted (2 + j) := fun j => by
      rw [← spent.granted, set]
      rfl
    rw [served.atomic_iff (by rw [set]; exact spent.alive hs) (by rw [set]) rfl]
    simp only [hu]
    refine forall₂_congr fun _ _ => ?_
    constructor
    · intro h hg j hj
      by_cases hj2 : j < 2
      · exact granted j hj2
      · have := h (fun i hi => hg (2 + i) (by omega)) (j - 2) (by omega)
        rwa [show 2 + (j - 2) = j by omega] at this
    · intro h hg j hj
      refine h (fun i hi => ?_) (2 + j) (by omega)
      by_cases hi2 : i < 2
      · exact granted i hi2
      · have := hg (i - 2) (by omega)
        rwa [show 2 + (i - 2) = i by omega] at this

/-- A connection with an OKAY packet, and the answers of its pool. -/
def okaySlot (allocs : List (Option Mem)) : Slot :=
  ⟨{ Connection.zero 5 with
      data := .request ⟨Header.zero, ⟨{ Header.zero with pcmd := pcmdOkay, magic := ~~~pcmdOkay },
        ⟨fun _ => 0, 0, 0, 0⟩⟩, none⟩ },
    Event.zero, Event.zero, { Wire.fresh with allocs := allocs }⟩

/-- The third allocation fails. -/
theorem Slot.packet_atomic_iff_third :
    ∃ rc t, Prog.run Slot.exec processPacket (okaySlot [some fun _ => 0, some fun _ => 0, none]) =
      .ok (rc, t) ∧ Atomic { Header.zero with pcmd := pcmdOkay, magic := ~~~pcmdOkay } rc t :=
  (Slot.packet_atomic_iff (s := okaySlot [some fun _ => 0, some fun _ => 0, none]) rfl rfl rfl
    (by decide)).mpr fun _ _ hg => absurd (hg 2 (by decide)) (by decide)

/-- The allocation for the dump fails, and the dump is read. -/
theorem Slot.dump_not_atomic : ¬ ∀ (s : Slot) (r : Request), s.conn.destroyed = false →
    s.conn.data = .request r → r.out = none → r.p.header.pcmd ≠ pcmdClse →
      ∃ rc t, Prog.run Slot.exec processPacket s = .ok (rc, t) ∧ Atomic r.p.header rc t :=
        fun h => by
  have hfault : Prog.run Slot.exec processPacket
      (okaySlot (List.replicate 5 (some fun _ => 0) ++ [none])) = .error .nullDeref := rfl
  obtain ⟨rc, t, hrun, -⟩ := h (okaySlot (List.replicate 5 (some fun _ => 0) ++ [none])) _ rfl rfl
    rfl
    (by decide)
  rw [hfault] at hrun
  cases hrun

end Xdbd
