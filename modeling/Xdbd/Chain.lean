import Mathlib

/-!
# Linked chains

A chain through objects that carry their own link. `link a` is the successor stored in
`a`, `some none` at the end of a chain and `none` when `a` holds something else.
-/
namespace LinkedChain
variable {α : Type*}

/-- The chain from `head` visits exactly `l`, in order, and ends. -/
def Chain (link : α → Option (Option α)) : Option α → List α → Prop
  | head, [] => head = none
  | head, a :: l => head = some a ∧ ∃ next, link a = some next ∧ Chain link next l

variable {link link' : α → Option (Option α)}

lemma Chain.nil : Chain link none [] := rfl

lemma Chain.head_eq {head : Option α} {l : List α} (h : Chain link head l) : head = l.head? := by
  cases l with
  | nil => exact h
  | cons a l => exact h.1

lemma Chain.congr {head : Option α} {l : List α} (h : Chain link head l)
    (hl : ∀ a ∈ l, link' a = link a) : Chain link' head l := by
  induction l generalizing head with
  | nil => exact h
  | cons a l ih =>
    obtain ⟨hhead, next, hnext, hrest⟩ := h
    exact ⟨hhead, next, (hl a (by simp)).trans hnext, ih hrest fun b hb => hl b (by simp [hb])⟩

lemma Chain.push {head : Option α} {l : List α} {a : α} (h : Chain link head l)
    (ha : link' a = some head) (hl : ∀ b ∈ l, link' b = link b) :
    Chain link' (some a) (a :: l) :=
  ⟨rfl, head, ha, h.congr hl⟩

lemma Chain.unique {head : Option α} {l l' : List α} (h : Chain link head l)
    (h' : Chain link head l') : l = l' := by
  induction l generalizing head l' with
  | nil =>
    cases l' with
    | nil => rfl
    | cons b l' => cases h.symm.trans h'.1
  | cons a l ih =>
    obtain ⟨rfl, next, hnext, hrest⟩ := h
    cases l' with
    | nil => cases h'
    | cons b l' =>
      obtain ⟨hhead, next', hnext', hrest'⟩ := h'
      obtain rfl := Option.some.inj hhead
      obtain rfl := Option.some.inj (hnext.symm.trans hnext')
      rw [ih hrest hrest']

end LinkedChain
