import Xdbd.Collecting

/-!
# The bytes of a packet

What the handlers do to the bytes they receive: the receive buffer holds them from its start on,
the header is read from the first 24, and the rest becomes the payload.
-/
namespace Xdbd
open Interaction Code

variable {b : Buf} {bs c : List UInt8} {pos : ℕ}

/-- The buffer holds the bytes `bs` from its start on, and the first `k` are consumed. -/
structure Buf.Holds (b : Buf) (bs : List UInt8) (k : ℕ) : Prop where
  cap : b.cap = adbMaxPacketSize
  pos : b.pos = k
  last : b.last = bs.length
  le : k ≤ bs.length
  fits : bs.length ≤ adbMaxPacketSize
  bytes : Block.read b.mem 0 bs.length = bs

lemma Buf.holds_new (m : Mem) : Buf.Holds ⟨m, adbMaxPacketSize, 0, 0⟩ [] 0 :=
  ⟨rfl, rfl, rfl, le_rfl, Nat.zero_le _, rfl⟩

namespace Buf.Holds

lemma ok (h : b.Holds bs pos) : b.Ok where
  pos := by
    rw [h.pos]
    exact Int.natCast_nonneg _
  size := by
    rw [h.pos, h.last]
    exact_mod_cast h.le
  last := by
    rw [h.last, h.cap]
    exact_mod_cast h.fits
  cap := by
    rw [h.cap]
    decide

lemma bufSize (h : b.Holds bs pos) : bufSize b = bs.length - pos := by
  unfold Xdbd.bufSize
  rw [h.pos, h.last]

lemma sizeT (h : b.Holds bs pos) : sizeT (Xdbd.bufSize b) = bs.length - pos := by
  have hs := h.ok.sizeT
  have hb := h.bufSize
  have hl := h.le
  omega

lemma window (h : b.Holds bs pos) : b.window = adbMaxPacketSize - bs.length := by
  have hw := h.ok.window
  have hl := h.last
  have hc := h.cap
  have hf := h.fits
  omega

lemma live (h : b.Holds bs pos) : b.live = bs.drop pos := by
  have hsize := h.bufSize
  have hle := h.le
  unfold Buf.live
  rw [h.pos, Int.toNat_natCast, show (Xdbd.bufSize b).toNat = bs.length - pos by omega]
  have := Block.read_drop b.mem 0 bs.length pos hle
  rw [Nat.zero_add] at this
  rw [← this, h.bytes]

lemma appended (h : b.Holds bs pos) : b.appended = bs.drop pos := by
  rw [Buf.appended, Src.take_live h.ok h.ok.sizeT, h.live]

lemma advance (h : b.Holds bs pos) (hc : bs.length + c.length ≤ adbMaxPacketSize) :
    (b.advance c c.length).Holds (bs ++ c) pos where
  cap := h.cap
  pos := h.pos
  last := by
    show b.last + c.length = _
    rw [h.last, List.length_append, Nat.cast_add]
  le := h.le.trans (by simp)
  fits := by
    rw [List.length_append]
    exact hc
  bytes := by
    have := Block.read_write_append b.mem 0 bs.length c
    rw [Nat.zero_add] at this
    show Block.read (Block.write b.mem b.last.toNat c) 0 (bs ++ c).length = _
    rw [h.last, Int.toNat_natCast, List.length_append, this, h.bytes]

lemma header (h : b.Holds bs pos) (hbs : headerSize ≤ bs.length) :
    b.header = Header.ofBytes (bs.take headerSize) := by
  unfold Buf.header
  rw [← Block.read_take b.mem 0 bs.length headerSize hbs, h.bytes]

lemma skip (h : b.Holds bs pos) {k : ℕ} (hk : pos + k ≤ bs.length) :
    Buf.Holds { b with pos := b.pos + k } bs (pos + k) where
  cap := h.cap
  pos := by
    show b.pos + k = _
    rw [h.pos, Nat.cast_add]
  last := h.last
  le := hk
  fits := h.fits
  bytes := h.bytes

end Buf.Holds

lemma Buf.holds_nil {b : Buf} (hcap : b.cap = adbMaxPacketSize) : (resetBuf b).Holds [] 0 :=
  ⟨hcap, rfl, rfl, le_rfl, Nat.zero_le _, rfl⟩

end Xdbd
