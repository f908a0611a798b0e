import Xdbd.Appending

/-!
# Growth of a buffer

What `xdbd_buf_append_mem` asks the pool for. The new capacity is computed in 32 bits, and it is
large enough exactly if the bytes of the buffer and the new ones can be counted in 32 bits.
-/
namespace Xdbd
open Interaction Code

variable {b : Buf} {src : Src} {len : ℕ}

/-- The four pointers of a buffer in order, as far apart as pointers can be. -/
structure Buf.WellFormed (b : Buf) : Prop where
  pos : 0 ≤ b.pos
  size : b.pos ≤ b.last
  last : b.last ≤ b.cap
  cap : b.cap < 2^63

/-- Storage is asked for at least `m` bytes, and a copy that leaves its bounds is the source's
fault. -/
def Op.Grows (m : ℤ) (src : Src) (len : ℕ) : Op → Prop
  | .slot (.palloc n) => m ≤ n
  | .slot (.fault _) => src.avail < len
  | _ => True

/-- All that `xdbd_buf_append_mem` does when it appends `len` bytes of `src`. -/
def GrowsEnough (b : Buf) (src : Src) (len : ℕ) : Prop :=
  Prog.Obeys (Op.Grows (bufSize b + len) src len) (fun _ _ => True) (fun _ => True)
    (bufAppendMem b src len)

lemma cpymem_grows {m : ℤ} {α : Type} {f : Buf → Code α} (hlast : 0 ≤ b.last)
    (hfit : b.last + len ≤ b.cap)
    (hf : Prog.Obeys (Op.Grows m src len) (fun _ _ => True) (fun _ => True)
      (f (b.extend (src.take len)))) :
    Prog.Obeys (Op.Grows m src len) (fun _ _ => True) (fun _ => True)
      (cpymem b src len >>= f) := by
  by_cases hsrc : len ≤ src.avail
  · rw [cpymem_eq hsrc hlast hfit]
    exact hf
  · unfold cpymem
    rw [if_pos ⟨by omega, .inl (by omega)⟩]
    exact ⟨Nat.lt_of_not_le hsrc, fun e => Empty.elim e⟩

lemma GrowsEnough.le (h : GrowsEnough b src len) (hgrow : sizeT (b.cap - b.last) < len) :
    bufSize b + len ≤ grownCapacity b len := by
  unfold GrowsEnough bufAppendMem at h
  rw [if_pos hgrow] at h
  exact h.1

/-- Exactly if no sum is cut off to 32 bits, the storage asked for is large enough. -/
theorem grows_enough_iff (hb : b.WellFormed) (src : Src) (len : ℕ) :
    GrowsEnough b src len ↔ (sizeT (b.cap - b.last) < len → bufSize b + len < 2^32) := by
  have hpos := hb.pos
  have hsize := hb.size
  have hlast := hb.last
  have hcap := hb.cap
  have hroom : (sizeT (b.cap - b.last) : ℤ) = b.cap - b.last := sizeT_of_nat (by omega) (by omega)
  have hnn : 0 ≤ bufSize b := sub_nonneg.mpr hsize
  constructor
  · intro h hgrow
    have hle := h.le hgrow
    have hlt := grownCapacity_lt b len
    omega
  · intro h
    unfold GrowsEnough bufAppendMem
    split_ifs with hgrow
    · have hle := le_grownCapacity hnn (h hgrow)
      refine .ask hle fun p _ => ?_
      cases p with
      | none => exact .pure trivial
      | some p =>
        -- the bytes of the buffer fit its old storage, and so they fit the new one
        have hus : (unsigned (bufSize b) : ℤ) = bufSize b := unsigned_of_nat hnn (by omega)
        have hbs : bufSize b = b.last - b.pos := rfl
        have havail : unsigned (bufSize b) ≤ (Src.ofBuf b).avail := by
          simp only [Src.ofBuf, if_pos hpos]
          omega
        dsimp only
        rw [cpymem_eq havail le_rfl (by show (0 : ℤ) + _ ≤ (grownCapacity b len : ℤ); omega)]
        have hend : (Buf.extend ⟨p, grownCapacity b len, 0, 0⟩
            ((Src.ofBuf b).take (unsigned (bufSize b)))).last = bufSize b := by
          simp [Buf.extend, Src.take_length, hus]
        refine cpymem_grows ?_ ?_ (.pure trivial)
        · omega
        · rw [hend]
          exact hle
    · exact cpymem_grows (by omega) (by omega) (.pure trivial)

def fullBuf : Buf := ⟨fun _ => 0, 4, 0, 4⟩

theorem grows_enough_iff_full :
    GrowsEnough fullBuf (Src.ofList [1, 2]) 2 ↔
      (sizeT (fullBuf.cap - fullBuf.last) < 2 → bufSize fullBuf + (2 : ℕ) < 2^32) :=
  grows_enough_iff ⟨by decide, by decide, by decide, by decide⟩ _ 2

/-- For 2^32 + 1 bytes one byte is asked for. -/
theorem growth_cut_off :
    ¬ ∀ (b : Buf) (src : Src) (len : ℕ), b.WellFormed → bufSize b + len < 2^64 →
      GrowsEnough b src len := fun h => by
  have hgrows := h ⟨fun _ => 0, 2^20, 0, 0⟩ ⟨fun _ => 0, 2^32 + 1⟩ (2^32 + 1)
    ⟨by decide, by decide, by decide, by decide⟩ (by decide)
  exact absurd (hgrows.le (by decide)) (by decide)

end Xdbd
