import Mathlib

/-!
# Resources and their owners

Each live resource belongs to exactly one owner. This is kept when an owner acquires a new
resource and when an owner gives up all it has, and the shares add up to what is live.
-/
namespace Ownership

variable {ι R : Type} {live : Finset R} {own own' : ι → Finset R}

structure Owned (live : Finset R) (own : ι → Finset R) : Prop where
  mem : ∀ r, r ∈ live ↔ ∃ i, r ∈ own i
  disjoint : ∀ i j, i ≠ j → Disjoint (own i) (own j)

lemma Owned.owner_unique (h : Owned live own) {r : R} {i j : ι} (hi : r ∈ own i)
    (hj : r ∈ own j) : i = j := by
  by_contra hne
  exact Finset.disjoint_left.mp (h.disjoint i j hne) hi hj

lemma Owned.sole_owner (h : Owned live own) {r : R} (hr : r ∈ live) : ∃! i, r ∈ own i := by
  obtain ⟨i, hi⟩ := (h.mem r).mp hr
  exact ⟨i, hi, fun j hj => h.owner_unique hj hi⟩

lemma Owned.empty (h : ∀ i, own i = ∅) : Owned ∅ own :=
  ⟨fun r => by simp [h], fun i j _ => by simp [h]⟩

lemma Owned.sole {i : ι} (hi : own i = live) (hj : ∀ j ≠ i, own j = ∅) : Owned live own := by
  have hnone : ∀ {j} {r : R}, r ∈ own j → j = i := fun {j r} hr => by
    by_contra hne
    simp [hj j hne] at hr
  refine ⟨fun r => ⟨fun hr => ⟨i, hi ▸ hr⟩, fun ⟨j, hr⟩ => ?_⟩, fun a b hab => ?_⟩
  · obtain rfl := hnone hr
    exact hi ▸ hr
  · refine Finset.disjoint_left.mpr fun r ha hb => hab ?_
    rw [hnone ha, hnone hb]

variable [DecidableEq R]

theorem Owned.acquire (h : Owned live own) {r : R} {i : ι} (hr : r ∉ live)
    (hi : own' i = insert r (own i)) (hj : ∀ j ≠ i, own' j = own j) :
    Owned (insert r live) own' := by
  have hnone : ∀ j, r ∉ own j := fun j hm => hr ((h.mem r).mpr ⟨j, hm⟩)
  have hapart : ∀ j ≠ i, Disjoint (own' i) (own' j) := fun j hji => by
    rw [hi, hj j hji, Finset.disjoint_insert_left]
    exact ⟨hnone j, h.disjoint i j hji.symm⟩
  refine ⟨fun x => ?_, fun a b hab => ?_⟩
  · rw [Finset.mem_insert, h.mem]
    constructor
    · rintro (rfl | ⟨j, hx⟩)
      · exact ⟨i, by simp [hi]⟩
      · by_cases hji : j = i
        · subst hji
          exact ⟨j, by simp [hi, hx]⟩
        · exact ⟨j, by simpa [hj j hji] using hx⟩
    · rintro ⟨j, hx⟩
      by_cases hji : j = i
      · subst hji
        rw [hi] at hx
        exact (Finset.mem_insert.mp hx).imp_right fun hm => ⟨j, hm⟩
      · exact .inr ⟨j, by simpa [hj j hji] using hx⟩
  · by_cases ha : a = i
    · subst ha
      exact hapart b hab.symm
    · by_cases hb : b = i
      · subst hb
        exact (hapart a ha).symm
      · rw [hj a ha, hj b hb]
        exact h.disjoint a b hab

theorem Owned.release (h : Owned live own) {i : ι} (hi : own' i = ∅)
    (hj : ∀ j ≠ i, own' j = own j) : Owned (live \ own i) own' := by
  refine ⟨fun x => ?_, fun a b hab => ?_⟩
  · rw [Finset.mem_sdiff, h.mem]
    constructor
    · rintro ⟨⟨j, hx⟩, hout⟩
      have hji : j ≠ i := fun he => hout (he ▸ hx)
      exact ⟨j, by simpa [hj j hji] using hx⟩
    · rintro ⟨j, hx⟩
      have hji : j ≠ i := fun he => by simp [he, hi] at hx
      rw [hj j hji] at hx
      exact ⟨⟨j, hx⟩, fun hm => hji (h.owner_unique hx hm)⟩
  · by_cases ha : a = i
    · simp [ha, hi]
    · by_cases hb : b = i
      · simp [hb, hi]
      · rw [hj a ha, hj b hb]
        exact h.disjoint a b hab

lemma Owned.eq_biUnion (h : Owned live own) {s : Finset ι} (hs : ∀ i ∉ s, own i = ∅) :
    live = s.biUnion own := by
  ext r
  rw [h.mem, Finset.mem_biUnion]
  refine exists_congr fun i => ⟨fun hr => ⟨?_, hr⟩, fun hr => hr.2⟩
  by_contra hi
  simp [hs i hi] at hr

theorem Owned.card (h : Owned live own) {s : Finset ι} (hs : ∀ i ∉ s, own i = ∅) :
    live.card = ∑ i ∈ s, (own i).card := by
  rw [h.eq_biUnion hs, Finset.card_biUnion fun i _ j _ hij => h.disjoint i j hij]

end Ownership
