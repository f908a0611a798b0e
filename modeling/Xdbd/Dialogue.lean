import Mathlib

/-!
# Questions and answers

The log of a server that answers every question before it hears the next one. A log is orderly
if that is so for all of its questions but perhaps the last; then the answers are those to the
questions in their order, and a beginning of an orderly log is orderly.
-/
namespace Dialogue

/-- An entry of the log. -/
inductive Turn (Q R : Type)
  | ask (q : Q)
  | reply (r : R)

variable {Q R : Type} {answers : Q → R → Prop} {l l' : List (Turn Q R)}

/-- Every question is answered before the next. -/
inductive Complete (answers : Q → R → Prop) : List (Turn Q R) → Prop
  | nil : Complete answers []
  | exchange {l : List (Turn Q R)} {q : Q} {r : R} (prior : Complete answers l)
      (answer : answers q r) : Complete answers (l ++ [.ask q, .reply r])

/-- Every question but perhaps the last is answered before the next. -/
inductive Orderly (answers : Q → R → Prop) : List (Turn Q R) → Prop
  | complete {l : List (Turn Q R)} (all : Complete answers l) : Orderly answers l
  | pending {l : List (Turn Q R)} (prior : Complete answers l) (q : Q) :
      Orderly answers (l ++ [.ask q])

def Turn.question : Turn Q R → Option Q
  | .ask q => some q
  | .reply _ => none

def Turn.answer : Turn Q R → Option R
  | .ask _ => none
  | .reply r => some r

def questions (l : List (Turn Q R)) : List Q := l.filterMap Turn.question

def replies (l : List (Turn Q R)) : List R := l.filterMap Turn.answer

@[simp] lemma questions_append (l l' : List (Turn Q R)) :
    questions (l ++ l') = questions l ++ questions l' := List.filterMap_append

@[simp] lemma replies_append (l l' : List (Turn Q R)) :
    replies (l ++ l') = replies l ++ replies l' := List.filterMap_append

theorem Complete.forall₂ (h : Complete answers l) :
    List.Forall₂ answers (questions l) (replies l) := by
  induction h with
  | nil => exact .nil
  | @exchange l q r prior answer ih =>
    rw [questions_append, replies_append]
    exact List.rel_append ih (.cons answer .nil)

theorem Orderly.forall₂ (h : Orderly answers l) : ∃ answered,
    List.Forall₂ answers answered (replies l) ∧
      (questions l = answered ∨ ∃ q, questions l = answered ++ [q]) := by
  cases h with
  | complete all => exact ⟨questions l, all.forall₂, .inl rfl⟩
  | @pending l prior q =>
    refine ⟨questions l, ?_, .inr ⟨q, questions_append l [.ask q]⟩⟩
    rw [replies_append]
    show List.Forall₂ answers (questions l) (replies l ++ [])
    rw [List.append_nil]
    exact prior.forall₂

/-- Where every question has one answer at most, the log is determined by its questions. -/
theorem Orderly.replies_eq {serve : Q → R} (hserve : ∀ q r, answers q r → r = serve q)
    (h : Orderly answers l) : ∃ answered, replies l = answered.map serve ∧
      (questions l = answered ∨ ∃ q, questions l = answered ++ [q]) := by
  obtain ⟨answered, hall, hlast⟩ := h.forall₂
  refine ⟨answered, ?_, hlast⟩
  clear hlast
  generalize replies l = rs at hall
  induction hall with
  | nil => rfl
  | @cons q r qs rs hqr hall ih => rw [List.map_cons, ih, hserve q r hqr]

end Dialogue
