import Mathlib

/-!
# Dense arrays with a back index

A registry keeps its members in the first `n` cells of an array, and each member keeps
its own position. A new member goes to the end; to remove one, the last member moves
into its cell. Only the objects of `dom` have a back index that means anything.
-/
namespace DenseIndex
variable {α : Type*}

structure Valid (dom : Set α) (arr : ℕ → α) (n : ℕ) (idx : α → Option ℕ) : Prop where
  stored : ∀ k < n, arr k ∈ dom ∧ idx (arr k) = some k
  found : ∀ a ∈ dom, ∀ k, idx a = some k → k < n ∧ arr k = a

def members (arr : ℕ → α) (n : ℕ) : List α := (List.range n).map arr

variable {dom dom' : Set α} {arr arr' : ℕ → α} {n : ℕ} {idx idx' : α → Option ℕ}

theorem Valid.empty (dom : Set α) (arr : ℕ → α) (h : ∀ a ∈ dom, idx a = none) :
    Valid dom arr 0 idx :=
  ⟨fun k hk => absurd hk (by omega), fun a ha k hk => by rw [h a ha] at hk; cases hk⟩

lemma Valid.inj (h : Valid dom arr n idx) {j k : ℕ} (hj : j < n) (hk : k < n)
    (he : arr j = arr k) : j = k := by
  have hj' := (h.stored j hj).2
  rw [he, (h.stored k hk).2] at hj'
  exact (Option.some.inj hj').symm

lemma mem_members {a : α} : a ∈ members arr n ↔ ∃ k < n, arr k = a := by
  simp [members]

lemma Valid.mem_iff (h : Valid dom arr n idx) {a : α} (ha : a ∈ dom) :
    a ∈ members arr n ↔ idx a ≠ none := by
  rw [mem_members]
  constructor
  · rintro ⟨k, hk, rfl⟩
    rw [(h.stored k hk).2]
    exact Option.some_ne_none k
  · intro hn
    obtain ⟨k, hk⟩ := Option.ne_none_iff_exists'.mp hn
    exact ⟨k, h.found a ha k hk⟩

lemma Valid.mem_dom (h : Valid dom arr n idx) {a : α} (ha : a ∈ members arr n) : a ∈ dom := by
  obtain ⟨k, hk, rfl⟩ := mem_members.mp ha
  exact (h.stored k hk).1

lemma Valid.nodup (h : Valid dom arr n idx) : (members arr n).Nodup := by
  apply List.Nodup.map_on _ List.nodup_range
  intro j hj k hk he
  exact h.inj (List.mem_range.mp hj) (List.mem_range.mp hk) he

/-- The registry may be read over another set of objects, as long as the members stay in it
and the newcomers are not indexed. -/
theorem Valid.change_dom (h : Valid dom arr n idx) (hmem : ∀ k < n, arr k ∈ dom')
    (hnew : ∀ a ∈ dom', a ∉ dom → idx a = none) : Valid dom' arr n idx := by
  refine ⟨fun k hk => ⟨hmem k hk, (h.stored k hk).2⟩, fun a ha k hk => ?_⟩
  by_cases had : a ∈ dom
  · exact h.found a had k hk
  · rw [hnew a ha had] at hk; cases hk

theorem Valid.congr (h : Valid dom arr n idx) (hidx : ∀ a ∈ dom, idx' a = idx a) :
    Valid dom arr n idx' := by
  refine ⟨fun k hk => ?_, fun a ha k hk => h.found a ha k (by rw [← hidx a ha]; exact hk)⟩
  obtain ⟨hd, hi⟩ := h.stored k hk
  exact ⟨hd, by rw [hidx _ hd]; exact hi⟩

/-- Storing a new member behind the others. -/
theorem Valid.push (h : Valid dom arr n idx) {a : α} (ha : a ∈ dom) (hnone : idx a = none)
    (hlast : arr' n = a) (harr : ∀ k < n, arr' k = arr k) (hnew : idx' a = some n)
    (hidx : ∀ b ∈ dom, b ≠ a → idx' b = idx b) : Valid dom arr' (n + 1) idx' := by
  refine ⟨fun k hk => ?_, fun b hb k hk => ?_⟩
  · rcases Nat.lt_succ_iff_lt_or_eq.mp hk with hk | rfl
    · obtain ⟨hd, hi⟩ := h.stored k hk
      have hne : arr k ≠ a := by
        intro he
        rw [he, hnone] at hi
        cases hi
      rw [harr k hk]
      exact ⟨hd, (hidx _ hd hne).trans hi⟩
    · rw [hlast]
      exact ⟨ha, hnew⟩
  · by_cases hba : b = a
    · subst hba
      rw [hnew] at hk
      cases hk
      exact ⟨by omega, hlast⟩
    · rw [hidx b hb hba] at hk
      obtain ⟨hlt, he⟩ := h.found b hb k hk
      exact ⟨by omega, (harr k hlt).trans he⟩

theorem Valid.remove [DecidableEq α] (h : Valid dom arr n idx) {a : α} {k : ℕ} (ha : a ∈ dom)
    (hk : idx a = some k) (harr : ∀ j < n - 1, arr' j = if j = k then arr (n - 1) else arr j)
    (hgone : idx' a = none)
    (hidx : ∀ b ∈ dom, b ≠ a → idx' b = if b = arr (n - 1) then some k else idx b) :
    Valid dom arr' (n - 1) idx' := by
  obtain ⟨hkn, hka⟩ := h.found a ha k hk
  have hlast := h.stored (n - 1) (by omega)
  refine ⟨fun j hj => ?_, fun b hb j hj => ?_⟩
  · by_cases hjk : j = k
    · subst hjk
      have hne : arr (n - 1) ≠ a := by
        intro he
        have := h.inj (by omega) hkn (he.trans hka.symm)
        omega
      rw [harr j hj, if_pos rfl]
      exact ⟨hlast.1, by rw [hidx _ hlast.1 hne, if_pos rfl]⟩
    · obtain ⟨hd, hi⟩ := h.stored j (by omega)
      have hne : arr j ≠ a := by
        intro he
        rw [he, hk] at hi
        exact hjk (Option.some.inj hi).symm
      have hne' : arr j ≠ arr (n - 1) := by
        intro he
        have := h.inj (by omega) (by omega) he
        omega
      rw [harr j hj, if_neg hjk]
      exact ⟨hd, by rw [hidx _ hd hne, if_neg hne', hi]⟩
  · by_cases hba : b = a
    · subst hba
      rw [hgone] at hj
      cases hj
    · rw [hidx b hb hba] at hj
      by_cases hbl : b = arr (n - 1)
      · rw [if_pos hbl] at hj
        cases hj
        have hlt : k < n - 1 := by
          rcases Nat.lt_or_ge k (n - 1) with hlt | hge
          · exact hlt
          · have : k = n - 1 := by omega
            rw [this] at hka
            exact absurd (hbl.trans hka) hba
        exact ⟨hlt, by rw [harr k hlt, if_pos rfl, hbl]⟩
      · rw [if_neg hbl] at hj
        obtain ⟨hjn, hje⟩ := h.found b hb j hj
        have hjn' : j < n - 1 := by
          rcases Nat.lt_or_ge j (n - 1) with hlt | hge
          · exact hlt
          · have : j = n - 1 := by omega
            rw [this] at hje
            exact absurd hje.symm hbl
        have hjk : j ≠ k := by
          rintro rfl
          exact hba (hje.symm.trans hka)
        exact ⟨hjn', by rw [harr j hjn', if_neg hjk, hje]⟩

lemma mem_members_push {a b : α} (hlast : arr' n = a) (harr : ∀ k < n, arr' k = arr k) :
    b ∈ members arr' (n + 1) ↔ b = a ∨ b ∈ members arr n := by
  rw [mem_members, mem_members]
  constructor
  · rintro ⟨k, hk, rfl⟩
    rcases Nat.lt_succ_iff_lt_or_eq.mp hk with hk | rfl
    · exact .inr ⟨k, hk, (harr k hk).symm⟩
    · exact .inl hlast
  · rintro (rfl | ⟨k, hk, rfl⟩)
    · exact ⟨n, by omega, hlast⟩
    · exact ⟨k, by omega, harr k hk⟩

lemma Valid.mem_members_remove (h : Valid dom arr n idx) {a b : α} {k : ℕ} (hkn : k < n)
    (hka : arr k = a) (harr : ∀ j < n - 1, arr' j = if j = k then arr (n - 1) else arr j) :
    b ∈ members arr' (n - 1) ↔ b ≠ a ∧ b ∈ members arr n := by
  rw [mem_members, mem_members]
  constructor
  · rintro ⟨j, hj, rfl⟩
    rw [harr j hj]
    -- the cell that is read, in the array before the removal
    obtain ⟨m, hm, hmk, he⟩ : ∃ m < n, m ≠ k ∧ arr m = if j = k then arr (n - 1) else arr j := by
      by_cases hjk : j = k
      · exact ⟨n - 1, by omega, by omega, (if_pos hjk).symm⟩
      · exact ⟨j, by omega, hjk, (if_neg hjk).symm⟩
    rw [← he]
    refine ⟨fun hma => hmk (h.inj hm hkn (hma.trans hka.symm)), m, hm, rfl⟩
  · rintro ⟨hne, j, hj, rfl⟩
    have hjk : j ≠ k := by
      rintro rfl
      exact hne hka
    by_cases hjl : j = n - 1
    · subst hjl
      exact ⟨k, by omega, by rw [harr k (by omega), if_pos rfl]⟩
    · exact ⟨j, by omega, by rw [harr j (by omega), if_neg hjk]⟩

end DenseIndex
