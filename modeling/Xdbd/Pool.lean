import Xdbd.Heap

/-!
# Pools

A pool serves small requests from pages that it fills one after the other, and gives every large
request a chunk of its own. Pages and chunks come with a descriptor, and all are given back
together.
-/
namespace Xdbd
open Interaction

/-- `XDBD_PAGE_SIZE` -/
def pageSize : ℕ := 4096

/-- `XDBD_ALIGN_SIZE`, the bytes of a `long` -/
def alignSize : ℕ := 8

/-- `bfdev_allocpool_t`: it fills one page from the bottom, and a fresh page of `XDBD_PAGE_SIZE`
serves any request up to that size. -/
structure Allocpool (σ : Type) where
  sizeof : ℕ
  init : ℕ → ℕ → σ
  alloc : σ → ℕ → ℕ → Option (ℕ × σ)
  page : σ → Span
  top : σ → ℕ
  page_init : ∀ a n, page (init a n) = ⟨a, n⟩
  top_init : ∀ a n, top (init a n) = a
  page_alloc : ∀ {p p' : σ} {n al q : ℕ}, alloc p n al = some (q, p') → page p' = page p
  le_addr : ∀ {p p' : σ} {n al q : ℕ}, alloc p n al = some (q, p') → top p ≤ q
  stop_le : ∀ {p p' : σ} {n al q : ℕ}, alloc p n al = some (q, p') → q + n ≤ top p'
  top_le : ∀ {p p' : σ} {n al q : ℕ}, alloc p n al = some (q, p') → top p' ≤ (page p).stop
  fresh : ∀ (a : ℕ) {n : ℕ}, n ≤ pageSize → (alloc (init a pageSize) n 0).isSome

/-- What the pools use of bfdev: `bfdev_allocpool_t`, and `bfdev_align_high`, which rounds a
`size_t` up to a multiple of a power of two. -/
structure Bfdev (σ : Type) extends Allocpool σ where
  alignHigh : ℕ → ℕ → ℕ
  le_alignHigh : ∀ {size align : ℕ}, (∃ k, align = 2 ^ k) → size + align ≤ 2^64 →
    size ≤ alignHigh size align
  alignHigh_le : ∀ {size align n : ℕ}, (∃ k, align = 2 ^ k) → align ∣ n → size ≤ n → n < 2^64 →
    alignHigh size align ≤ n

abbrev HeapProg : Type → Type := Prog Heap.Op Heap.Res

def bfdevMalloc (size : ℕ) : HeapProg (Option ℕ) := Prog.ask (Heap.Op.malloc size)

def bfdevFree (p : ℕ) : HeapProg Unit := Prog.ask (Heap.Op.free p)

def memzero (p size : ℕ) : HeapProg Unit := Prog.ask (Heap.Op.zero ⟨p, size⟩)

def bugOn : HeapProg Unit := Prog.ask Heap.Op.bug

/-- `struct xdbd_cache`, at the address `self` -/
structure Pool.Cache (σ : Type) where
  self : ℕ
  pool : σ
  data : ℕ

/-- `struct xdbd_block`, at the address `self` -/
structure Pool.Block where
  self : ℕ
  data : ℕ

/-- `struct xdbd_pool`, at the address `self` -/
structure Pool (σ : Type) where
  self : ℕ
  cache : List (Pool.Cache σ)
  block : List Pool.Block

namespace Pool

/-- Two heads of a list. -/
def sizeofPool : ℕ := 16

/-- A link and a pointer. -/
def sizeofBlock : ℕ := 16

section
variable {σ : Type} (A : Bfdev σ)

def sizeofCache : ℕ := 16 + A.sizeof

/-- The second half of `cache_alloc`: a new page for a request that does not fit the first one. -/
def addCache (pool : Pool σ) (size : ℕ) : HeapProg (Option ℕ × Pool σ) := do
  match ← bfdevMalloc (sizeofCache A) with
  | none => return (none, pool)
  | some cache =>
    match ← bfdevMalloc pageSize with
    | none =>
      bfdevFree cache
      return (none, pool)
    | some data =>
      match A.alloc (A.init data pageSize) size 0 with
      | none =>
        bugOn
        return (none, { pool with cache := ⟨cache, A.init data pageSize, data⟩ :: pool.cache })
      | some (retval, p) =>
        return (some retval, { pool with cache := ⟨cache, p, data⟩ :: pool.cache })

def cacheAlloc (pool : Pool σ) (size : ℕ) : HeapProg (Option ℕ × Pool σ) :=
  let size := A.alignHigh size alignSize
  match pool.cache with
  | [] => addCache A pool size
  | cache :: rest =>
    match A.alloc cache.pool size 0 with
    | some (retval, p) =>
      return (some retval, { pool with cache := { cache with pool := p } :: rest })
    | none => addCache A pool size

def blockAlloc (pool : Pool σ) (size : ℕ) : HeapProg (Option ℕ × Pool σ) := do
  let size := A.alignHigh size pageSize
  match ← bfdevMalloc sizeofBlock with
  | none => return (none, pool)
  | some block =>
    match ← bfdevMalloc size with
    | none =>
      bfdevFree block
      return (none, pool)
    | some retval => return (some retval, { pool with block := ⟨block, retval⟩ :: pool.block })

def palloc (pool : Pool σ) (size : ℕ) : HeapProg (Option ℕ × Pool σ) :=
  if size = 0 then return (none, pool)
  else if size < pageSize then cacheAlloc A pool size
  else blockAlloc A pool size

def pcalloc (pool : Pool σ) (size : ℕ) : HeapProg (Option ℕ × Pool σ) := do
  match ← palloc A pool size with
  | (none, pool) => return (none, pool)
  | (some p, pool) =>
    memzero p size
    return (some p, pool)

end

section
variable {σ : Type}

def createPool : HeapProg (Option (Pool σ)) := do
  match ← bfdevMalloc sizeofPool with
  | none => return none
  | some self => return some ⟨self, [], []⟩

/-- The loop over a list, by the chunks and the descriptors of its entries. -/
def freeEntries : List (ℕ × ℕ) → HeapProg Unit
  | [] => return ()
  | (data, self) :: entries => do
    bfdevFree data
    bfdevFree self
    freeEntries entries

def releasePool (pool : Pool σ) : HeapProg (Pool σ) := do
  freeEntries (pool.cache.map fun cache => (cache.data, cache.self))
  freeEntries (pool.block.map fun block => (block.data, block.self))
  return { pool with cache := [], block := [] }

def destroyPool (pool : Pool σ) : HeapProg Unit := do
  let pool ← releasePool pool
  bfdevFree pool.self

end
end Pool
end Xdbd
