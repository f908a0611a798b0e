import Mathlib

/-!
# Streams of self-delimiting items

An item that is written says itself where it ends. Items written one after the other are read back
as they were, whatever follows them, and a stream is divided into items in one way only.
-/
namespace Framing

/-- A format for items in streams over `β`: how a valid item is written, and how one is read off the
beginning of a stream. -/
structure Format (α β : Type) where
  encode : α → List β
  Valid : α → Prop
  decode : List β → Option (α × List β)
  encode_ne_nil : ∀ a, Valid a → encode a ≠ []
  decode_encode : ∀ a, Valid a → ∀ l, decode (encode a ++ l) = some (a, l)
  encode_decode : ∀ l a rest, decode l = some (a, rest) → Valid a ∧ encode a ++ rest = l

variable {α β : Type} (f : Format α β) {as : List α} {l rest : List β}

/-- Read `n` items at most; the rest of the stream is returned with them. -/
def splitAux : ℕ → List β → List α × List β
  | 0, l => ([], l)
  | n + 1, l =>
    match f.decode l with
    | none => ([], l)
    | some (a, rest) => (a :: (splitAux n rest).1, (splitAux n rest).2)

/-- Read as many items as there are; the length of the stream is always enough. -/
def split (l : List β) : List α × List β := splitAux f l.length l

theorem splitAux_flatMap (hvalid : ∀ a ∈ as, f.Valid a) (hrest : f.decode rest = none) {n : ℕ}
    (hn : as.length ≤ n) : splitAux f n (as.flatMap f.encode ++ rest) = (as, rest) := by
  induction as generalizing n with
  | nil => cases n <;> simp [splitAux, hrest]
  | cons a as ih =>
    cases n with
    | zero => simp at hn
    | succ n =>
      have hdec := f.decode_encode a (hvalid a List.mem_cons_self) (as.flatMap f.encode ++ rest)
      have hi := ih (fun b hb => hvalid b (List.mem_cons_of_mem a hb)) (by simpa using hn)
      simp [splitAux, hdec, hi]

lemma length_le_flatMap (hvalid : ∀ a ∈ as, f.Valid a) :
    as.length ≤ (as.flatMap f.encode).length := by
  induction as with
  | nil => simp
  | cons a as ih =>
    have hpos := List.length_pos_of_ne_nil (f.encode_ne_nil a (hvalid a List.mem_cons_self))
    have hi := ih fun b hb => hvalid b (List.mem_cons_of_mem a hb)
    simp only [List.flatMap_cons, List.length_append, List.length_cons]
    omega

/-- What was written item by item is read back, up to a rest that begins with no item. -/
theorem split_flatMap (hvalid : ∀ a ∈ as, f.Valid a) (hrest : f.decode rest = none) :
    split f (as.flatMap f.encode ++ rest) = (as, rest) := by
  have hlen := length_le_flatMap f hvalid
  apply splitAux_flatMap f hvalid hrest
  simp only [List.length_append]
  omega

theorem splitAux_valid (n : ℕ) (l : List β) : ∀ a ∈ (splitAux f n l).1, f.Valid a := by
  induction n generalizing l with
  | zero => simp [splitAux]
  | succ n ih =>
    cases hdec : f.decode l with
    | none => simp [splitAux, hdec]
    | some p =>
      have hvalid := (f.encode_decode l p.1 p.2 hdec).1
      intro a ha
      simp only [splitAux, hdec, List.mem_cons] at ha
      rcases ha with rfl | ha
      · exact hvalid
      · exact ih p.2 a ha

theorem split_valid (l : List β) : ∀ a ∈ (split f l).1, f.Valid a := splitAux_valid f l.length l

/-- A stream is divided as it was written exactly if it was written in valid items. -/
theorem split_eq_iff (hrest : f.decode rest = none) :
    (split f (as.flatMap f.encode ++ rest)).1 = as ↔ ∀ a ∈ as, f.Valid a := by
  constructor
  · intro he
    have hvalid := split_valid f (as.flatMap f.encode ++ rest)
    rwa [he] at hvalid
  · intro hvalid
    rw [split_flatMap f hvalid hrest]

end Framing
