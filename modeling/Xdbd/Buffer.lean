import Xdbd.Operations

/-!
# Buffers

`xdbd_buf.c`: creation, growth and append, with the widths of the C code. `size` and
`capacity` are 32 bits wide, lengths and pointer differences 64 bits.
-/
namespace Xdbd
open Interaction Code

def bufSize (b : Buf) : ℤ := b.last - b.pos

def resetBuf (b : Buf) : Buf := { b with pos := 0, last := 0 }

/-- The bytes between `pos` and `last`. -/
def Buf.live (b : Buf) : List UInt8 := Block.read b.mem b.pos.toNat (bufSize b).toNat

/-- The source of a copy: the bytes from a pointer on, of which `avail` are allocated. -/
structure Src where
  bytes : ℕ → UInt8
  avail : ℕ

def Src.ofList (bs : List UInt8) : Src := ⟨fun k => (bs[k]?).getD 0, bs.length⟩

/-- The storage of a buffer from `pos` on. -/
def Src.ofBuf (b : Buf) : Src :=
  ⟨fun k => b.mem (b.pos + k).toNat, if 0 ≤ b.pos then (b.cap - b.pos).toNat else 0⟩

def Src.take (src : Src) (len : ℕ) : List UInt8 := Block.read src.bytes 0 len

/-- `sizeof(xdbd_buf_t)`. -/
def sizeofBuf : ℕ := 32

def createBuf (size : ℕ) : Code (Option Buf) := do
  match ← palloc sizeofBuf with
  | none => return none
  | some _ =>
    match ← palloc size with
    | none => return none
    | some m => return some ⟨m, size, 0, 0⟩

/-- `b->last = xdbd_cpymem(b->last, mem, len)`. -/
def cpymem (b : Buf) (src : Src) (len : ℕ) : Code Buf :=
  if 0 < len ∧ (src.avail < len ∨ b.last < 0 ∨ (b.cap : ℤ) < b.last + len) then fault .outOfBounds
  else return { b with mem := Block.write b.mem b.last.toNat (src.take len), last := b.last + len }

/-- The capacity of a grown buffer: doubled, and raised to the bytes needed if that is less. -/
def grownCapacity (b : Buf) (len : ℕ) : ℕ :=
  let size := unsigned (bufSize b)
  let capacity := (unsigned b.cap * 2) % 2^32
  if capacity < (size + len) % 2^64 then (size + len) % 2^32 else capacity

/-- `xdbd_buf_append_mem`; `none` is a `NULL` result, which leaves the buffer as it is. -/
def bufAppendMem (b : Buf) (src : Src) (len : ℕ) : Code (Option Buf) := do
  if sizeT (b.cap - b.last) < len then
    match ← palloc (grownCapacity b len) with
    | none => return none
    | some p =>
      let moved ← cpymem ⟨p, grownCapacity b len, 0, 0⟩ (Src.ofBuf b) (unsigned (bufSize b))
      return some (← cpymem moved src len)
  else return some (← cpymem b src len)

/-- The bytes of a C string. -/
def cstring (s : String) : List UInt8 := s.toList.map fun c => UInt8.ofNat c.toNat

/-- `xdbd_buf_append_string`, of a pointer and a size. -/
def bufAppendString (b : Buf) (str : Src) (size : ℕ) : Code (Option Buf) :=
  bufAppendMem b str size

/-- `xdbd_buf_append_cstring`, and `xdbd_buf_append_string` of a constant. -/
def bufAppendCstring (b : Buf) (str : List UInt8) : Code (Option Buf) :=
  bufAppendMem b (Src.ofList str) str.length

def bufAppendBuf (b buf : Buf) : Code (Option Buf) := do
  note (.append buf.pos buf.last (sizeT (bufSize buf)))
  bufAppendMem b (Src.ofBuf buf) (sizeT (bufSize buf))

end Xdbd
