import Mathlib

/-!
# Interaction trees with a fallible interpreter

A program is a tree of requests: each node names an operation and branches on its
answer. The same tree can be run against any interpreter, so that one text is read
both over the state of a whole system and over the state of one of its parts. The
rules below are proved once, by induction on the tree.
-/
namespace Interaction

/-- A program over the operations `Op`, where `op` is answered by a value of `Res op`. -/
inductive Prog (Op : Type) (Res : Op → Type) (α : Type) : Type
  | pure (a : α)
  | call (op : Op) (k : Res op → Prog Op Res α)

namespace Prog
variable {Op : Type} {Res : Op → Type} {α β γ : Type}

def bind : Prog Op Res α → (α → Prog Op Res β) → Prog Op Res β
  | .pure a, f => f a
  | .call op k, f => .call op fun r => (k r).bind f

instance : Monad (Prog Op Res) where
  pure := Prog.pure
  bind := Prog.bind

theorem bind_eq (p : Prog Op Res α) (f : α → Prog Op Res β) : p >>= f = p.bind f := rfl

theorem bind_pure (p : Prog Op Res α) : p.bind .pure = p := by
  induction p with
  | pure a => rfl
  | call op k ih => simp only [bind, ih]

theorem bind_bind (p : Prog Op Res α) (f : α → Prog Op Res β) (g : β → Prog Op Res γ) :
    (p.bind f).bind g = p.bind fun a => (f a).bind g := by
  induction p with
  | pure a => rfl
  | call op k ih => simp only [bind, ih]

instance : LawfulMonad (Prog Op Res) :=
  LawfulMonad.mk' _ (fun p => bind_pure p) (fun _ _ => rfl) (fun p f g => bind_bind p f g)

/-- The one-node program that asks `op` and returns its answer. -/
def ask (op : Op) : Prog Op Res (Res op) := .call op .pure

variable {σ τ ε : Type}

/-- An interpreter answers one operation in a state, or fails. -/
abbrev Interp (Op : Type) (Res : Op → Type) (ε σ : Type) : Type :=
  (op : Op) → σ → Except ε (Res op × σ)

def run (exec : Interp Op Res ε σ) : Prog Op Res α → σ → Except ε (α × σ)
  | .pure a, s => .ok (a, s)
  | .call op k, s =>
    match exec op s with
    | .error e => .error e
    | .ok (r, s') => run exec (k r) s'

theorem run_ask (exec : Interp Op Res ε σ) (op : Op) (s : σ) :
    run exec (ask op) s = exec op s := by
  simp only [ask, run]
  cases exec op s <;> rfl

@[simp] theorem run_bind (exec : Interp Op Res ε σ) (p : Prog Op Res α)
    (f : α → Prog Op Res β) (s : σ) :
    run exec (p >>= f) s = (run exec p s).bind fun r => run exec (f r.1) r.2 := by
  rw [bind_eq]
  induction p generalizing s with
  | pure a => rfl
  | call op k ih =>
    simp only [bind, run]
    cases h : exec op s with
    | error e => rfl
    | ok r => exact ih r.1 r.2

theorem run_bind_ok {exec : Interp Op Res ε σ} {p : Prog Op Res α} {f : α → Prog Op Res β}
    {s t : σ} {b : β} (h : run exec (p >>= f) s = .ok (b, t)) :
    ∃ a u, run exec p s = .ok (a, u) ∧ run exec (f a) u = .ok (b, t) := by
  rw [run_bind] at h
  cases hp : run exec p s with
  | error e => rw [hp] at h; cases h
  | ok r => rw [hp] at h; exact ⟨r.1, r.2, rfl, h⟩

theorem run_bind_of_ok {exec : Interp Op Res ε σ} {p : Prog Op Res α} {f : α → Prog Op Res β}
    {s t : σ} {a : α} (h : run exec p s = .ok (a, t)) :
    run exec (p >>= f) s = run exec (f a) t := by
  rw [run_bind, h]
  rfl

theorem run_bind_of_error {exec : Interp Op Res ε σ} {p : Prog Op Res α}
    {f : α → Prog Op Res β} {s : σ} {e : ε} (h : run exec p s = .error e) :
    run exec (p >>= f) s = .error e := by
  rw [run_bind, h]
  rfl

/-! ## Invariants -/

def Preserves (exec : Interp Op Res ε σ) (I : σ → Prop) : Prop :=
  ∀ op s r s', I s → exec op s = .ok (r, s') → I s'

theorem Preserves.run {exec : Interp Op Res ε σ} {I : σ → Prop} (h : Preserves exec I)
    (p : Prog Op Res α) {s s' : σ} {a : α} (hs : I s) (hr : run exec p s = .ok (a, s')) :
    I s' := by
  induction p generalizing s with
  | pure b => cases hr; exact hs
  | call op k ih =>
    simp only [Prog.run] at hr
    cases ho : exec op s with
    | error e => rw [ho] at hr; cases hr
    | ok r => rw [ho] at hr; exact ih r.1 (h op s r.1 r.2 hs ho) hr

/-! ## Pre- and postconditions -/

/-- The states that a run passes through. -/
def states (exec : Interp Op Res ε σ) : Prog Op Res α → σ → List σ
  | .pure _, s => [s]
  | .call op k, s =>
    s :: match exec op s with
      | .error _ => []
      | .ok (r, s') => states exec (k r) s'

theorem states_eq_cons (exec : Interp Op Res ε σ) (p : Prog Op Res α) (s : σ) :
    ∃ l, states exec p s = s :: l := by
  cases p with
  | pure a => exact ⟨[], rfl⟩
  | call op k => exact ⟨_, by rw [states]⟩

theorem start_mem_states (exec : Interp Op Res ε σ) (p : Prog Op Res α) (s : σ) :
    s ∈ states exec p s := by
  obtain ⟨l, hl⟩ := states_eq_cons exec p s
  simp [hl]

theorem Preserves.states {exec : Interp Op Res ε σ} {I : σ → Prop} (h : Preserves exec I)
    (p : Prog Op Res α) {s : σ} (hs : I s) : ∀ t ∈ states exec p s, I t := by
  induction p generalizing s with
  | pure a =>
    intro t ht
    rw [List.mem_singleton.mp ht]
    exact hs
  | call op k ih =>
    intro t ht
    rw [Prog.states] at ht
    rcases List.mem_cons.mp ht with rfl | ht
    · exact hs
    · cases ho : exec op s with
      | error e =>
        rw [ho] at ht
        cases ht
      | ok r =>
        rw [ho] at ht
        exact ih r.1 (h op s r.1 r.2 hs ho) t ht

theorem mem_states {exec : Interp Op Res ε σ} {p : Prog Op Res α} {s t : σ} {a : α}
    (h : run exec p s = .ok (a, t)) : t ∈ states exec p s := by
  induction p generalizing s with
  | pure b =>
    cases h
    exact List.mem_singleton_self _
  | call op k ih =>
    rw [states]
    simp only [run] at h
    cases ho : exec op s with
    | error e =>
      rw [ho] at h
      cases h
    | ok r =>
      rw [ho] at h
      exact List.mem_cons_of_mem _ (ih r.1 h)

section
variable {exec : Interp Op Res ε σ} {R : σ → σ → Prop} (hrefl : ∀ s, R s s)
    (htrans : ∀ {s t u}, R s t → R t u → R s u)
  (hexec : ∀ op s r t, exec op s = .ok (r, t) → R s t)
include hrefl htrans hexec

/-- The states that a run passes through are related as those of one operation are. -/
theorem states_pairwise (p : Prog Op Res α) (s : σ) :
    (states exec p s).Pairwise R ∧ ∀ t ∈ states exec p s, R s t := by
  induction p generalizing s with
  | pure a => simp [states, hrefl]
  | call op k ih =>
    rw [states]
    cases ho : exec op s with
    | error e => simp [hrefl]
    | ok r =>
      obtain ⟨hpair, hfrom⟩ := ih r.1 r.2
      have hall : ∀ t ∈ states exec (k r.1) r.2, R s t := fun t ht =>
        htrans (hexec op s r.1 r.2 ho) (hfrom t ht)
      exact ⟨List.pairwise_cons.mpr ⟨hall, hpair⟩, List.forall_mem_cons.mpr ⟨hrefl s, hall⟩⟩

theorem states_result {p : Prog Op Res α} {s t : σ} {a : α} (h : run exec p s = .ok (a, t)) :
    ∀ u ∈ states exec p s, R u t := by
  induction p generalizing s with
  | pure b =>
    cases h
    simp [states, hrefl]
  | call op k ih =>
    rw [states]
    simp only [run] at h
    cases ho : exec op s with
    | error e =>
      rw [ho] at h
      cases h
    | ok r =>
      rw [ho] at h
      have hnext := ih r.1 h
      exact List.forall_mem_cons.mpr ⟨htrans (hexec op s r.1 r.2 ho)
        (hnext r.2 (start_mem_states _ _ _)), hnext⟩

end

/-- What a program owes its surroundings: as long as `assume` holds of the states reached, `keep`
holds of them, and an operation may fail only if `fail`. -/
structure Contract (σ : Type) where
  assume : σ → Prop
  keep : σ → Prop
  fail : Prop

/-- From `s` on, the contract is kept, and `Q` holds of the result. -/
def Ensures (exec : Interp Op Res ε σ) (κ : Contract σ) (Q : α → σ → Prop) :
    Prog Op Res α → σ → Prop
  | .pure a, s => κ.keep s ∧ Q a s
  | .call op k, s =>
    κ.keep s ∧ match exec op s with
      | .error _ => κ.fail
      | .ok (r, s') => κ.assume s' → Ensures exec κ Q (k r) s'

variable {exec : Interp Op Res ε σ} {κ : Contract σ}

theorem Ensures.call {Q : α → σ → Prop} {op : Op} {k : Res op → Prog Op Res α} {s : σ}
    (hs : κ.keep s) (he : ∀ e, exec op s = .error e → κ.fail)
    (hk : ∀ r t, exec op s = .ok (r, t) → κ.assume t → Ensures exec κ Q (k r) t) :
    Ensures exec κ Q (.call op k) s := by
  rw [Ensures]
  refine ⟨hs, ?_⟩
  cases ho : exec op s with
  | error e => exact he e ho
  | ok r => exact hk r.1 r.2 ho

theorem Ensures.of_call {Q : α → σ → Prop} {op : Op} {k : Res op → Prog Op Res α} {s : σ}
    (h : Ensures exec κ Q (.call op k) s) : κ.keep s ∧ (∀ e, exec op s = .error e → κ.fail) ∧
      ∀ r t, exec op s = .ok (r, t) → κ.assume t → Ensures exec κ Q (k r) t := by
  rw [Ensures] at h
  refine ⟨h.1, fun e he => ?_, fun r t hr => ?_⟩
  · rw [he] at h
    exact h.2
  · rw [hr] at h
    exact h.2

theorem Ensures.keep {Q : α → σ → Prop} {p : Prog Op Res α} {s : σ}
    (h : Ensures exec κ Q p s) : κ.keep s := by
  cases p with
  | pure a => exact h.1
  | call op k => exact h.of_call.1

/-- Where the assumption holds in a state passed, it held in all states before. -/
def Lasting (exec : Interp Op Res ε σ) (A : σ → Prop) : Prop :=
  ∀ op s r t, exec op s = .ok (r, t) → A t → A s

theorem Lasting.states {A : σ → Prop} (hA : Lasting exec A) (p : Prog Op Res α) {s : σ} :
    ∀ u ∈ states exec p s, A u → A s :=
  (states_pairwise (R := fun s t => A t → A s) (fun _ => id) (fun h h' hu => h (h' hu)) hA p s).2

theorem Ensures.states {Q : α → σ → Prop} {p : Prog Op Res α} {s : σ}
    (h : Ensures exec κ Q p s) (hA : Lasting exec κ.assume) :
    ∀ u ∈ states exec p s, κ.assume u → κ.keep u := by
  induction p generalizing s with
  | pure a =>
    intro u hu _
    rw [List.mem_singleton.mp hu]
    exact h.keep
  | call op k ih =>
    intro u hu ha
    rw [Prog.states] at hu
    rcases List.mem_cons.mp hu with rfl | hu
    · exact h.keep
    · cases ho : exec op s with
      | error e =>
        rw [ho] at hu
        cases hu
      | ok r =>
        rw [ho] at hu
        exact ih r.1 (h.of_call.2.2 r.1 r.2 ho (hA.states _ u hu ha)) u hu ha

theorem Ensures.result {Q : α → σ → Prop} {p : Prog Op Res α} {s t : σ} {a : α}
    (h : Ensures exec κ Q p s) (hA : Lasting exec κ.assume) (hr : run exec p s = .ok (a, t))
    (ha : κ.assume t) : Q a t := by
  induction p generalizing s with
  | pure b =>
    cases hr
    exact h.2
  | call op k ih =>
    simp only [run] at hr
    cases ho : exec op s with
    | error e =>
      rw [ho] at hr
      cases hr
    | ok r =>
      rw [ho] at hr
      exact ih r.1 (h.of_call.2.2 r.1 r.2 ho (hA.states _ t (mem_states hr) ha)) hr

/-- Where the assumption holds all along there is a result, or a failure that is allowed. -/
theorem Ensures.completes {Q : α → σ → Prop} {p : Prog Op Res α} {s : σ}
    (h : Ensures exec κ Q p s) (ha : ∀ t ∈ Prog.states exec p s, κ.assume t) :
    (∃ a t, run exec p s = .ok (a, t) ∧ Q a t) ∨ κ.fail ∧ ∃ e, run exec p s = .error e := by
  induction p generalizing s with
  | pure a => exact .inl ⟨a, s, rfl, h.2⟩
  | call op k ih =>
    obtain ⟨-, he, hk⟩ := h.of_call
    rw [Prog.states] at ha
    simp only [run]
    cases ho : exec op s with
    | error e => exact .inr ⟨he e ho, e, rfl⟩
    | ok r =>
      rw [ho] at ha
      have hnext : ∀ t ∈ Prog.states exec (k r.1) r.2, κ.assume t := fun t ht =>
        ha t (List.mem_cons_of_mem _ ht)
      exact ih r.1 (hk r.1 r.2 ho (hnext r.2 (start_mem_states _ _ _))) hnext

theorem Ensures.outcome {Q : α → σ → Prop} {p : Prog Op Res α} {s : σ}
    (h : Ensures exec κ Q p s) (hA : ∀ t, κ.assume t) :
    (∃ a t, run exec p s = .ok (a, t) ∧ Q a t) ∨ κ.fail ∧ ∃ e, run exec p s = .error e :=
  h.completes fun t _ => hA t

theorem Ensures.finishes {Q : α → σ → Prop} {p : Prog Op Res α} {s : σ}
    (h : Ensures exec κ Q p s) (hA : ∀ t, κ.assume t) (hf : ¬ κ.fail) :
    ∃ a t, run exec p s = .ok (a, t) ∧ Q a t :=
  (h.outcome hA).resolve_right fun hn => hf hn.1

theorem Ensures.pure {Q : α → σ → Prop} {a : α} {s : σ} (hs : κ.keep s) (hq : Q a s) :
    Ensures exec κ Q (Pure.pure a) s := ⟨hs, hq⟩

theorem Ensures.bind {Q : β → σ → Prop} {p : Prog Op Res α} {f : α → Prog Op Res β} {s : σ}
    (h : Ensures exec κ (fun a t => Ensures exec κ Q (f a) t) p s) :
    Ensures exec κ Q (p >>= f) s := by
  rw [bind_eq]
  induction p generalizing s with
  | pure a => exact h.2
  | call op k ih =>
    obtain ⟨hs, he, hk⟩ := h.of_call
    exact .call hs he fun r t ho ht => ih r (hk r t ho ht)

theorem Ensures.mono {Q Q' : α → σ → Prop} {p : Prog Op Res α} {s : σ}
    (h : Ensures exec κ Q p s) (hq : ∀ a t, Q a t → Q' a t) : Ensures exec κ Q' p s := by
  induction p generalizing s with
  | pure a => exact ⟨h.1, hq a s h.2⟩
  | call op k ih =>
    obtain ⟨hs, he, hk⟩ := h.of_call
    exact .call hs he fun r t ho ht => ih r (hk r t ho ht)

/-- A program and then another one that starts where the first is known to end. -/
theorem Ensures.andThen {Q : α → σ → Prop} {Q' : β → σ → Prop} {p : Prog Op Res α}
    {f : α → Prog Op Res β} {s : σ} (h : Ensures exec κ Q p s)
    (hf : ∀ a t, Q a t → Ensures exec κ Q' (f a) t) : Ensures exec κ Q' (p >>= f) s :=
  .bind (h.mono hf)

theorem Ensures.step {op : Op} {Q : β → σ → Prop} {f : Res op → Prog Op Res β} {s t : σ}
    {r : Res op} (hs : κ.keep s) (ho : exec op s = .ok (r, t))
    (hk : κ.assume t → Ensures exec κ Q (f r) t) : Ensures exec κ Q (Prog.ask op >>= f) s := by
  refine .bind (.call hs (fun e he => by rw [ho] at he; cases he) fun r' t' ho' ht => ?_)
  rw [ho] at ho'
  cases ho'
  exact ⟨(hk ht).keep, hk ht⟩

/-- An operation that cannot be carried out. -/
theorem Ensures.stuck {op : Op} {Q : β → σ → Prop} {f : Res op → Prog Op Res β} {s : σ} {e : ε}
    (hs : κ.keep s) (ho : exec op s = .error e) (hf : κ.fail) :
    Ensures exec κ Q (Prog.ask op >>= f) s :=
  .bind (.call hs (fun _ _ => hf) fun r t hr => by rw [ho] at hr; cases hr)

theorem Ensures.with_run {Q : α → σ → Prop} {p : Prog Op Res α} {s : σ}
    (h : Ensures exec κ Q p s) :
    Ensures exec κ (fun a t => Q a t ∧ run exec p s = .ok (a, t)) p s := by
  induction p generalizing s with
  | pure a => exact ⟨h.1, h.2, rfl⟩
  | call op k ih =>
    obtain ⟨hs, he, hk⟩ := h.of_call
    refine .call hs he fun r t ho ht => (ih r (hk r t ho ht)).mono fun a u ⟨hq, hrun⟩ => ⟨hq, ?_⟩
    simp only [run, ho]
    exact hrun

theorem Ensures.of_bind_pure {Q : α → σ → Prop} {p : Prog Op Res α} {s : σ}
    (h : Ensures exec κ Q (p >>= Pure.pure) s) : Ensures exec κ Q p s := by
  rw [bind_eq] at h
  exact bind_pure p ▸ h

/-! ## Up to a first state -/

/-- `P` holds of the members of a list before the first one of which `E` holds. -/
def Until (P E : σ → Prop) : List σ → Prop
  | [] => True
  | s :: l => E s ∨ P s ∧ Until P E l

section
variable {P E : σ → Prop} {l l' : List σ}

theorem Until.append (h : Until P E l) (h' : (∀ s ∈ l, ¬ E s) → Until P E l') :
    Until P E (l ++ l') := by
  induction l with
  | nil => exact h' fun s hs => by cases hs
  | cons s l ih =>
    rcases h with he | ⟨hp, hl⟩
    · exact .inl he
    · by_cases he : E s
      · exact .inl he
      · exact .inr ⟨hp, ih hl fun hn => h' (List.forall_mem_cons.mpr ⟨he, hn⟩)⟩

/-- If `P` excludes `e` and `E` includes it, the first member with `e` is one with `E`. -/
theorem Until.first {e : σ → Bool} (h : Until P E l) (hP : ∀ s, P s → e s = false)
    (hE : ∀ s, E s → e s = true) {s : σ} (hs : l.find? e = some s) : E s := by
  induction l with
  | nil => cases hs
  | cons t l ih =>
    rcases h with he | ⟨hp, hl⟩
    · rw [List.find?_cons_of_pos (hE t he)] at hs
      exact Option.some.inj hs ▸ he
    · rw [List.find?_cons_of_neg (by simp [hP t hp])] at hs
      exact ih hl hs

/-- What follows from `P`, and from `E` for all later members as well, holds of every member. -/
theorem Until.lasting {R : σ → σ → Prop} {S : σ → Prop} (h : Until P E l) (hl : l.Pairwise R)
    (hP : ∀ s, P s → S s) (hE : ∀ s, E s → S s) (hR : ∀ s t, E s → R s t → S t) :
    ∀ s ∈ l, S s := by
  induction l with
  | nil => exact fun s hs => by cases hs
  | cons s l ih =>
    obtain ⟨hs, hl⟩ := List.pairwise_cons.mp hl
    rcases h with he | ⟨hp, hu⟩
    · exact List.forall_mem_cons.mpr ⟨hE s he, fun t ht => hR s t he (hs t ht)⟩
    · exact List.forall_mem_cons.mpr ⟨hP s hp, ih hu hl⟩

/-- A contract is kept up to the first state in which its assumption fails. -/
theorem Ensures.until {Q : α → σ → Prop} {p : Prog Op Res α} {s : σ}
    (h : Ensures exec κ Q p s) : Until κ.keep (fun t => ¬ κ.assume t) (Prog.states exec p s) := by
  induction p generalizing s with
  | pure a => exact .inr ⟨h.keep, trivial⟩
  | call op k ih =>
    obtain ⟨hs, -, hk⟩ := h.of_call
    rw [Prog.states]
    refine .inr ⟨hs, ?_⟩
    cases ho : exec op s with
    | error e => trivial
    | ok r =>
      by_cases ha : κ.assume r.2
      · exact ih r.1 (hk r.1 r.2 ho ha)
      · obtain ⟨l, hl⟩ := states_eq_cons exec (k r.1) r.2
        simp only [hl]
        exact .inl ha

end

/-! ## Restricted programs -/

/-- Every request is one of `P` and the result is one of `Q`, if the answers are as `A` says. -/
def Obeys (P : Op → Prop) (A : (op : Op) → Res op → Prop) (Q : α → Prop) : Prog Op Res α → Prop
  | .pure a => Q a
  | .call op k => P op ∧ ∀ r, A op r → Obeys P A Q (k r)

section
variable {P : Op → Prop} {A : (op : Op) → Res op → Prop} {Q : α → Prop} {Q' : β → Prop}

theorem Obeys.pure {a : α} (h : Q a) : Obeys P A Q (Pure.pure a : Prog Op Res α) := h

theorem Obeys.bind {p : Prog Op Res α} {f : α → Prog Op Res β} (hp : Obeys P A Q p)
    (hf : ∀ a, Q a → Obeys P A Q' (f a)) : Obeys P A Q' (p >>= f) := by
  rw [bind_eq]
  induction p with
  | pure a => exact hf a hp
  | call op k ih => exact ⟨hp.1, fun r hr => ih r (hp.2 r hr)⟩

theorem Obeys.ask {op : Op} {f : Res op → Prog Op Res β} (ho : P op)
    (hf : ∀ r, A op r → Obeys P A Q' (f r)) : Obeys P A Q' (Prog.ask op >>= f) := ⟨ho, hf⟩

theorem Obeys.mono {Q₁ : α → Prop} {p : Prog Op Res α} (hp : Obeys P A Q p)
    (hq : ∀ a, Q a → Q₁ a) : Obeys P A Q₁ p := by
  induction p with
  | pure a => exact hq a hp
  | call op k ih => exact ⟨hp.1, fun r hr => ih r (hp.2 r hr)⟩

theorem Obeys.ensures {I : σ → Prop} {p : Prog Op Res α} (hp : Obeys P A Q p) (hf : κ.fail)
    (hkeep : ∀ s, I s → κ.assume s → κ.keep s)
    (hstep : ∀ op s r t, P op → I s → exec op s = .ok (r, t) → I t ∧ A op r) {s : σ} (hs : I s)
    (ha : κ.assume s) : Ensures exec κ (fun a t => Q a ∧ I t ∧ κ.assume t) p s := by
  induction p generalizing s with
  | pure a => exact ⟨hkeep s hs ha, hp, hs, ha⟩
  | call op k ih =>
    refine .call (hkeep s hs ha) (fun _ _ => hf) fun r t hr ht => ?_
    obtain ⟨hI, hA⟩ := hstep op s r t hp.1 hs hr
    exact ih r (hp.2 r hA) hI ht

end

/-! ## Final requests -/

/-- A request of `L` is the last one, and the result is then one of `C`. -/
def EndsWith (L : Op → Prop) (C : α → Prop) : Prog Op Res α → Prop
  | .pure _ => True
  | .call op k =>
    (L op → ∀ r, ∃ a, k r = .pure a ∧ C a) ∧ (¬ L op → ∀ r, EndsWith L C (k r))

section
variable {L : Op → Prop} {C : α → Prop} {C' : β → Prop}

theorem EndsWith.pure {a : α} : EndsWith L C (Pure.pure a : Prog Op Res α) := trivial

theorem EndsWith.ask {op : Op} {f : Res op → Prog Op Res β} (ho : ¬ L op)
    (hf : ∀ r, EndsWith L C' (f r)) : EndsWith L C' (Prog.ask op >>= f) :=
  ⟨fun hl => absurd hl ho, fun _ => hf⟩

theorem EndsWith.last {op : Op} {f : Res op → Prog Op Res β} {b : β}
    (hf : ∀ r, f r = Pure.pure b) (hb : C' b) : EndsWith L C' (Prog.ask op >>= f) :=
  ⟨fun _ r => ⟨b, hf r, hb⟩, fun _ r => by
    show EndsWith L C' (f r)
    rw [hf r]
    trivial⟩

/-- After a final request of the first half the second half has to be idle. -/
theorem EndsWith.bind {p : Prog Op Res α} {f : α → Prog Op Res β} (hp : EndsWith L C p)
    (hidle : ∀ a, C a → ∃ b, f a = Pure.pure b ∧ C' b) (hf : ∀ a, EndsWith L C' (f a)) :
    EndsWith L C' (p >>= f) := by
  rw [bind_eq]
  induction p with
  | pure a => exact hf a
  | call op k ih =>
    refine ⟨fun hl r => ?_, fun hl r => ih r (hp.2 hl r)⟩
    obtain ⟨a, hk, ha⟩ := hp.1 hl r
    obtain ⟨b, hb, hc⟩ := hidle a ha
    refine ⟨b, ?_, hc⟩
    show (k r).bind f = _
    rw [hk]
    exact hb

theorem Obeys.endsWith {A : (op : Op) → Res op → Prop} {Q : α → Prop} {p : Prog Op Res α}
    (hA : ∀ op r, A op r) (hp : Obeys (fun op => ¬ L op) A Q p) : EndsWith L C p := by
  induction p with
  | pure a => trivial
  | call op k ih => exact ⟨fun hl => absurd hl hp.1, fun _ r => ih r (hp.2 r (hA op r))⟩

/-- The requests of a run, the one that fails included. -/
def requests (exec : Interp Op Res ε σ) : Prog Op Res α → σ → List Op
  | .pure _, _ => []
  | .call op k, s =>
    op :: match exec op s with
      | .error _ => []
      | .ok (r, s') => requests exec (k r) s'

theorem EndsWith.requests {p : Prog Op Res α} (hp : EndsWith L C p) {s : σ} {before after : List Op}
    {op : Op} (h : requests exec p s = before ++ op :: after) (hl : L op) : after = [] := by
  induction p generalizing s before with
  | pure a => simp [Prog.requests] at h
  | call op' k ih =>
    rw [Prog.requests] at h
    cases before with
    | nil =>
      obtain ⟨rfl, ht⟩ := List.cons.inj h
      cases ho : exec op' s with
      | error e =>
        rw [ho] at ht
        exact ht.symm
      | ok r =>
        rw [ho] at ht
        obtain ⟨a, hk, -⟩ := hp.1 hl r.1
        rw [← ht]
        show Prog.requests exec (k r.1) r.2 = []
        rw [hk]
        rfl
    | cons op'' before =>
      obtain ⟨-, ht⟩ := List.cons.inj h
      cases ho : exec op' s with
      | error e =>
        rw [ho] at ht
        simp at ht
      | ok r =>
        rw [ho] at ht
        by_cases hl' : L op'
        · obtain ⟨a, hk, -⟩ := hp.1 hl' r.1
          change Prog.requests exec (k r.1) r.2 = _ at ht
          rw [hk] at ht
          simp [Prog.requests] at ht
        · exact ih r.1 (hp.2 hl' r.1) ht

end

/-! ## Simulation -/

/-- Two outcomes agree: both fail, or both finish with the same value in related states. -/
def Agree (R : σ → τ → Prop) : Except ε (α × σ) → Except ε (α × τ) → Prop
  | .error _, .error _ => True
  | .ok (a, s), .ok (b, t) => a = b ∧ R s t
  | _, _ => False

def Simulates (exec : Interp Op Res ε σ) (exec' : Interp Op Res ε τ) (R : σ → τ → Prop) : Prop :=
  ∀ op s t, R s t → Agree R (exec op s) (exec' op t)

theorem Agree.cases {R : σ → τ → Prop} {x : Except ε (α × σ)} {y : Except ε (α × τ)}
    (h : Agree R x y) : (∃ e e', x = .error e ∧ y = .error e') ∨
      ∃ a s t, x = .ok (a, s) ∧ y = .ok (a, t) ∧ R s t := by
  match x, y, h with
  | .error e, .error e', _ => exact .inl ⟨e, e', rfl, rfl⟩
  | .ok (a, s), .ok (b, t), ⟨hab, hst⟩ => exact .inr ⟨a, s, t, rfl, by rw [hab], hst⟩

theorem Simulates.run {exec : Interp Op Res ε σ} {exec' : Interp Op Res ε τ} {R : σ → τ → Prop}
    (h : Simulates exec exec' R) (p : Prog Op Res α) {s : σ} {t : τ} (hst : R s t) :
    Agree R (run exec p s) (Prog.run exec' p t) := by
  induction p generalizing s t with
  | pure a => exact ⟨rfl, hst⟩
  | call op k ih =>
    simp only [Prog.run]
    rcases (h op s t hst).cases with ⟨e, e', hx, hy⟩ | ⟨r, s', t', hx, hy, hR⟩
    · rw [hx, hy]; trivial
    · rw [hx, hy]; exact ih r hR

/-- A program that makes only requests on which the two sides agree. -/
theorem Obeys.agree {exec : Interp Op Res ε σ} {exec' : Interp Op Res ε τ} {R : σ → τ → Prop}
    {P : Op → Prop} {A : (op : Op) → Res op → Prop} {Q : α → Prop} {p : Prog Op Res α}
    (hp : Obeys P A Q p) (hA : ∀ op r, A op r)
    (h : ∀ op s t, P op → R s t → Agree R (exec op s) (exec' op t)) {s : σ} {t : τ} (hst : R s t) :
    Agree R (run exec p s) (Prog.run exec' p t) := by
  induction p generalizing s t with
  | pure a => exact ⟨rfl, hst⟩
  | call op k ih =>
    simp only [Prog.run]
    rcases (h op s t hp.1 hst).cases with ⟨e, e', hx, hy⟩ | ⟨r, s', t', hx, hy, hR⟩
    · rw [hx, hy]
      trivial
    · rw [hx, hy]
      exact ih r (hp.2 r (hA op r)) hR

theorem Simulates.states {exec : Interp Op Res ε σ} {exec' : Interp Op Res ε τ}
    {R : σ → τ → Prop} (h : Simulates exec exec' R) (p : Prog Op Res α) {s : σ} {t : τ}
    (hst : R s t) : ∀ u ∈ states exec p s, ∃ v ∈ Prog.states exec' p t, R u v := by
  induction p generalizing s t with
  | pure a =>
    intro u hu
    rw [List.mem_singleton.mp hu]
    exact ⟨t, List.mem_singleton_self t, hst⟩
  | call op k ih =>
    intro u hu
    rw [Prog.states] at hu ⊢
    rcases List.mem_cons.mp hu with rfl | hu
    · exact ⟨t, List.mem_cons_self, hst⟩
    · rcases (h op s t hst).cases with ⟨e, e', hx, hy⟩ | ⟨r, s', t', hx, hy, hR⟩
      · rw [hx] at hu
        cases hu
      · rw [hx] at hu
        obtain ⟨v, hv, huv⟩ := ih r hR u hu
        rw [hy]
        exact ⟨v, List.mem_cons_of_mem _ hv, huv⟩

theorem Simulates.symm {exec : Interp Op Res ε σ} {exec' : Interp Op Res ε τ} {R : σ → τ → Prop}
    (h : Simulates exec exec' R) : Simulates exec' exec fun t s => R s t := fun op t s hst => by
  rcases (h op s t hst).cases with ⟨e, e', hx, hy⟩ | ⟨r, s', t', hx, hy, hR⟩
  · rw [hx, hy]
    trivial
  · rw [hx, hy]
    exact ⟨rfl, hR⟩

theorem Simulates.requests {exec : Interp Op Res ε σ} {exec' : Interp Op Res ε τ}
    {R : σ → τ → Prop} (h : Simulates exec exec' R) (p : Prog Op Res α) {s : σ} {t : τ}
    (hst : R s t) : requests exec p s = Prog.requests exec' p t := by
  induction p generalizing s t with
  | pure a => rfl
  | call op k ih =>
    rw [Prog.requests, Prog.requests]
    rcases (h op s t hst).cases with ⟨e, e', hx, hy⟩ | ⟨r, s', t', hx, hy, hR⟩
    · rw [hx, hy]
    · rw [hx, hy]
      exact congrArg (op :: ·) (ih r hR)

end Prog
end Interaction
