import Mathlib

/-!
# Systems of independent components

The state of the system is a family of states, one for each component, and a step belongs to
one component and changes no other. What happens to a component in a run of the system is
what happens to it by itself, with the steps of its own, however the steps of the components
are interleaved.
-/
namespace Components

variable {ι σ Λ : Type} [DecidableEq ι]

/-- The steps of the component `i`. -/
def own (i : ι) (l : List (ι × Λ)) : List Λ :=
  l.filterMap fun a => if a.1 = i then some a.2 else none

@[simp] lemma own_nil (i : ι) : own i ([] : List (ι × Λ)) = [] := rfl

@[simp] lemma own_cons (i j : ι) (a : Λ) (l : List (ι × Λ)) :
    own i ((j, a) :: l) = if j = i then a :: own i l else own i l := by
  unfold own
  rw [List.filterMap_cons]
  by_cases h : j = i <;> simp [h]

@[simp] lemma own_append (i : ι) (l l' : List (ι × Λ)) :
    own i (l ++ l') = own i l ++ own i l' := List.filterMap_append

/-- A component by itself. -/
def alone (next : Λ → σ → Option σ) : List Λ → σ → Option σ
  | [], s => some s
  | a :: l, s => (next a s).bind (alone next l)

variable {next : Λ → σ → Option σ} {f g h : ι → σ} {l l' : List (ι × Λ)}

lemma alone_append (l l' : List Λ) (s : σ) :
    alone next (l ++ l') s = (alone next l s).bind (alone next l') := by
  induction l generalizing s with
  | nil => rfl
  | cons a l ih =>
    simp only [List.cons_append, alone]
    cases next a s with
    | none => rfl
    | some t => exact ih t

/-- A run of the system with the steps `l`. -/
inductive Path (next : Λ → σ → Option σ) : (ι → σ) → List (ι × Λ) → (ι → σ) → Prop
  | done (f : ι → σ) : Path next f [] f
  | step {f g : ι → σ} {l : List (ι × Λ)} {i : ι} {a : Λ} {s : σ} (moved : next a (f i) = some s)
      (rest : Path next (Function.update f i s) l g) : Path next f ((i, a) :: l) g

lemma Path.append (hl : Path next f l g) (hl' : Path next g l' h) : Path next f (l ++ l') h := by
  induction hl with
  | done f => exact hl'
  | step moved rest ih => exact .step moved (ih hl')

lemma Path.single {i : ι} {a : Λ} (moved : next a (f i) = some (g i))
    (others : ∀ j ≠ i, g j = f j) : Path next f [(i, a)] g := by
  have hg : Function.update f i (g i) = g := by
    funext j
    by_cases hj : j = i
    · subst hj
      simp
    · simp [hj, others j hj]
  refine .step moved ?_
  rw [hg]
  exact .done g

/-- The components go through the run each by itself, and nothing else is needed for a run. -/
theorem path_iff : Path next f l g ↔ ∀ i, alone next (own i l) (f i) = some (g i) := by
  induction l generalizing f with
  | nil =>
    constructor
    · rintro ⟨⟩ i
      rfl
    · intro h
      obtain rfl : f = g := funext fun i => Option.some.inj (h i)
      exact .done f
  | cons a l ih =>
    obtain ⟨j, a⟩ := a
    constructor
    · intro h i
      cases h with
      | @step _ _ _ _ _ s moved rest =>
        have hrest := ih.mp rest i
        by_cases hi : j = i
        · subst hi
          simpa [alone, moved] using hrest
        · simpa [hi, Function.update_of_ne (Ne.symm hi)] using hrest
    · intro h
      have hj := h j
      simp only [own_cons, if_true, alone] at hj
      obtain ⟨s, moved, hs⟩ := Option.bind_eq_some_iff.mp hj
      refine .step moved (ih.mpr fun i => ?_)
      by_cases hi : i = j
      · subst hi
        simpa using hs
      · have := h i
        simpa [Ne.symm hi, hi] using this

lemma Path.component (hl : Path next f l g) (i : ι) :
    alone next (own i l) (f i) = some (g i) := path_iff.mp hl i

/-- Where two systems give a component the same steps, it comes to the same state. -/
theorem Path.agree {κ : Type} [DecidableEq κ] {f' g' : κ → σ} {m : List (κ × Λ)}
    (hl : Path next f l g) (hm : Path next f' m g') {i : ι} {j : κ} (hf : f i = f' j)
    (hown : own i l = own j m) : g i = g' j := by
  have hi := hl.component i
  rw [hf, hown, hm.component j] at hi
  exact (Option.some.inj hi).symm

end Components
