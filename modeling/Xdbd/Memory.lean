import Mathlib

/-!
# Blocks of cells

A block is read and written through consecutive runs of cells. The contents outside
the written run stay, and a run reads back as it was written.
-/
namespace Block
variable {β : Type}

/-- The `n` cells from `off` on. -/
def read (m : ℕ → β) (off n : ℕ) : List β := (List.range n).map fun k => m (off + k)

/-- The block after the run `bs` is stored at `off`. -/
def write (m : ℕ → β) (off : ℕ) (bs : List β) : ℕ → β :=
  fun k => if off ≤ k then (bs[k - off]?).getD (m k) else m k

@[simp] lemma read_length (m : ℕ → β) (off n : ℕ) : (read m off n).length = n := by
  simp [read]

@[simp] lemma write_nil (m : ℕ → β) (off : ℕ) : write m off [] = m := by
  funext k
  simp [write]

lemma write_below (m : ℕ → β) {off k : ℕ} (bs : List β) (h : k < off) :
    write m off bs k = m k := by
  simp [write, Nat.not_le.mpr h]

lemma write_above (m : ℕ → β) {off k : ℕ} (bs : List β) (h : off + bs.length ≤ k) :
    write m off bs k = m k := by
  have hk : bs[k - off]? = none := List.getElem?_eq_none (by omega)
  simp [write, hk]

lemma write_inside (m : ℕ → β) {off k : ℕ} (bs : List β) (h : k < bs.length) :
    write m off bs (off + k) = bs[k] := by
  simp [write, h]

lemma read_add (m : ℕ → β) (off a b : ℕ) :
    read m off (a + b) = read m off a ++ read m (off + a) b := by
  simp [read, List.range_add, Nat.add_assoc]

lemma read_congr {m m' : ℕ → β} {off n : ℕ} (h : ∀ k < n, m (off + k) = m' (off + k)) :
    read m off n = read m' off n := by
  apply List.map_congr_left
  intro k hk
  exact h k (List.mem_range.mp hk)

lemma read_write_self (m : ℕ → β) (off : ℕ) (bs : List β) :
    read (write m off bs) off bs.length = bs := by
  apply List.ext_getElem (by simp)
  intro k hk hk'
  simp only [read, List.getElem_map, List.getElem_range]
  exact write_inside m bs hk'

lemma read_write_before (m : ℕ → β) {off n off' : ℕ} (bs : List β) (h : off + n ≤ off') :
    read (write m off' bs) off n = read m off n :=
  read_congr fun _ hk => write_below m bs (by omega)

lemma read_write_append (m : ℕ → β) (off n : ℕ) (bs : List β) :
    read (write m (off + n) bs) off (n + bs.length) = read m off n ++ bs := by
  rw [read_add, read_write_before m bs le_rfl, read_write_self]

lemma read_take (m : ℕ → β) (off n k : ℕ) (h : k ≤ n) :
    (read m off n).take k = read m off k := by
  obtain ⟨d, rfl⟩ := Nat.exists_eq_add_of_le h
  rw [read_add, List.take_append_of_le_length (by simp), List.take_of_length_le (by simp)]

lemma read_drop (m : ℕ → β) (off n k : ℕ) (h : k ≤ n) :
    (read m off n).drop k = read m (off + k) (n - k) := by
  obtain ⟨d, rfl⟩ := Nat.exists_eq_add_of_le h
  rw [read_add, List.drop_append_of_le_length (by simp), List.drop_of_length_le (by simp),
    List.nil_append]
  congr 1
  omega

end Block
