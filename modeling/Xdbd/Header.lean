import Mathlib

/-!
# The adb packet header

The packed 24-byte header, six little-endian 32-bit words, and the eight commands
of the protocol. A header is decoded by copying its bytes.
-/
namespace Xdbd

/-- The four bytes of a word as they lie in memory, least significant first. -/
def wordBytes (x : UInt32) : List UInt8 :=
  [UInt8.ofNat x.toNat, UInt8.ofNat (x.toNat / 2^8), UInt8.ofNat (x.toNat / 2^16),
    UInt8.ofNat (x.toNat / 2^24)]

def byteAt (bs : List UInt8) (k : ℕ) : ℕ := (bs[k]?.getD 0).toNat

/-- The word whose bytes start at `k`. -/
def wordAt (bs : List UInt8) (k : ℕ) : UInt32 :=
  UInt32.ofNat (byteAt bs k + 2^8 * byteAt bs (k + 1) + 2^16 * byteAt bs (k + 2)
    + 2^24 * byteAt bs (k + 3))

structure Header where
  pcmd : UInt32
  arg0 : UInt32
  arg1 : UInt32
  dlen : UInt32
  dchecksum : UInt32
  magic : UInt32
  deriving DecidableEq, Repr

/-- `sizeof(xdbd_adb_header_t)`; the structure is packed. -/
def headerSize : ℕ := 24

def Header.bytes (h : Header) : List UInt8 :=
  wordBytes h.pcmd ++ wordBytes h.arg0 ++ wordBytes h.arg1 ++ wordBytes h.dlen
    ++ wordBytes h.dchecksum ++ wordBytes h.magic

def Header.ofBytes (bs : List UInt8) : Header :=
  ⟨wordAt bs 0, wordAt bs 4, wordAt bs 8, wordAt bs 12, wordAt bs 16, wordAt bs 20⟩

/-- `PCMD_ASCII` of a four-letter name. -/
def pcmdAscii (a b c d : Char) : UInt32 :=
  UInt32.ofNat (a.toNat + 2^8 * b.toNat + 2^16 * c.toNat + 2^24 * d.toNat)

def pcmdSync : UInt32 := pcmdAscii 'S' 'Y' 'N' 'C'
def pcmdCnxn : UInt32 := pcmdAscii 'C' 'N' 'X' 'N'
def pcmdOpen : UInt32 := pcmdAscii 'O' 'P' 'E' 'N'
def pcmdOkay : UInt32 := pcmdAscii 'O' 'K' 'A' 'Y'
def pcmdClse : UInt32 := pcmdAscii 'C' 'L' 'S' 'E'
def pcmdWrte : UInt32 := pcmdAscii 'W' 'R' 'T' 'E'
def pcmdAuth : UInt32 := pcmdAscii 'A' 'U' 'T' 'H'
def pcmdStls : UInt32 := pcmdAscii 'S' 'T' 'L' 'S'

@[simp] lemma wordBytes_length (x : UInt32) : (wordBytes x).length = 4 := rfl

@[simp] lemma Header.bytes_length (h : Header) : h.bytes.length = headerSize := rfl

lemma wordAt_wordBytes (pre post : List UInt8) (x : UInt32) {k : ℕ} (hk : pre.length = k) :
    wordAt (pre ++ wordBytes x ++ post) k = x := by
  subst hk
  have hb : ∀ j < 4, byteAt (pre ++ wordBytes x ++ post) (pre.length + j) =
      ((wordBytes x)[j]?.getD 0).toNat := by
    intro j hj
    unfold byteAt
    rw [List.append_assoc, List.getElem?_append_right (by omega),
      List.getElem?_append_left (by simp; omega)]
    simp
  have h0 := hb 0 (by omega)
  have h1 := hb 1 (by omega)
  have h2 := hb 2 (by omega)
  have h3 := hb 3 (by omega)
  rw [Nat.add_zero] at h0
  unfold wordAt
  rw [h0, h1, h2, h3]
  apply UInt32.toNat_inj.mp
  have hx := x.toNat_lt
  simp only [wordBytes, List.getElem?_cons_zero, List.getElem?_cons_succ, Option.getD_some,
    UInt8.toNat_ofNat', UInt32.toNat_ofNat']
  omega

theorem Header.ofBytes_bytes (h : Header) (rest : List UInt8) :
    Header.ofBytes (h.bytes ++ rest) = h := by
  have hw : ∀ (pre post : List UInt8) (x : UInt32) (k : ℕ), pre.length = k →
      wordAt (pre ++ (wordBytes x ++ post)) k = x := by
    intro pre post x k hk
    rw [← List.append_assoc]
    exact wordAt_wordBytes pre post x hk
  unfold Header.ofBytes Header.bytes
  simp only [List.append_assoc]
  congr 1
  · exact hw [] _ h.pcmd 0 rfl
  · exact hw (wordBytes h.pcmd) _ h.arg0 4 rfl
  · have := hw (wordBytes h.pcmd ++ wordBytes h.arg0)
      (wordBytes h.dlen ++ (wordBytes h.dchecksum ++ (wordBytes h.magic ++ rest))) h.arg1 8 rfl
    simpa only [List.append_assoc] using this
  · have := hw (wordBytes h.pcmd ++ wordBytes h.arg0 ++ wordBytes h.arg1)
      (wordBytes h.dchecksum ++ (wordBytes h.magic ++ rest)) h.dlen 12 rfl
    simpa only [List.append_assoc] using this
  · have := hw (wordBytes h.pcmd ++ wordBytes h.arg0 ++ wordBytes h.arg1 ++ wordBytes h.dlen)
      (wordBytes h.magic ++ rest) h.dchecksum 16 rfl
    simpa only [List.append_assoc] using this
  · have := hw (wordBytes h.pcmd ++ wordBytes h.arg0 ++ wordBytes h.arg1 ++ wordBytes h.dlen
      ++ wordBytes h.dchecksum) rest h.magic 20 rfl
    simpa only [List.append_assoc] using this

lemma wordBytes_wordAt {bs : List UInt8} {k : ℕ} (hk : k + 4 ≤ bs.length) :
    wordBytes (wordAt bs k) = (bs.drop k).take 4 := by
  have hbyte : ∀ j < 4, byteAt bs (k + j) = ((bs.drop k)[j]?.getD 0).toNat := fun j _ => by
    rw [byteAt, List.getElem?_drop]
  have h0 := hbyte 0 (by omega)
  have h1 := hbyte 1 (by omega)
  have h2 := hbyte 2 (by omega)
  have h3 := hbyte 3 (by omega)
  obtain ⟨a, b, c, d, rest, hdrop⟩ : ∃ a b c d rest, bs.drop k = a :: b :: c :: d :: rest := by
    have hlen : 4 ≤ (bs.drop k).length := by simp; omega
    match bs.drop k, hlen with
    | a :: b :: c :: d :: rest, _ => exact ⟨a, b, c, d, rest, rfl⟩
  rw [Nat.add_zero] at h0
  simp only [hdrop, List.getElem?_cons_zero, List.getElem?_cons_succ, Option.getD_some]
    at h0 h1 h2 h3
  have ha := a.toNat_lt
  have hb := b.toNat_lt
  have hc := c.toNat_lt
  have hd := d.toNat_lt
  have hword : (wordAt bs k).toNat =
      a.toNat + 2^8 * b.toNat + 2^16 * c.toNat + 2^24 * d.toNat := by
    rw [wordAt, h0, h1, h2, h3, UInt32.toNat_ofNat']
    omega
  have hcut : ∀ {n : ℕ} {x : UInt8}, n % 2^8 = x.toNat → UInt8.ofNat n = x := fun hn =>
    UInt8.toNat_inj.mp (by rw [UInt8.toNat_ofNat']; exact hn)
  rw [wordBytes, hword, hdrop, hcut (x := a) (by omega), hcut (x := b) (by omega),
    hcut (x := c) (by omega), hcut (x := d) (by omega)]
  rfl

theorem Header.bytes_ofBytes {bs : List UInt8} (hbs : headerSize ≤ bs.length) :
    (Header.ofBytes bs).bytes = bs.take headerSize := by
  have hword : ∀ k, k + 4 ≤ headerSize → wordBytes (wordAt bs k) = (bs.drop k).take 4 :=
    fun k hk => wordBytes_wordAt (by omega)
  have hcat : ∀ n k, bs.take n ++ (bs.drop n).take k = bs.take (n + k) := fun n k =>
    List.take_add.symm
  unfold Header.ofBytes Header.bytes
  rw [hword 0 (by decide), hword 4 (by decide), hword 8 (by decide), hword 12 (by decide),
    hword 16 (by decide), hword 20 (by decide), List.drop_zero, hcat, hcat, hcat, hcat, hcat]
  rfl

end Xdbd
