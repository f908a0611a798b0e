import Xdbd.Pool

/-!
# Runs of a pool

The spans that a pool has given away since its last release are apart, each lies in a chunk that the
pool owns, and each chunk it has obtained is taken back once.
-/
namespace Xdbd
open Interaction

namespace Pool
variable {σ : Type} {A : Bfdev σ} {M : Heap.Malloc} {pool : Pool σ} {h t : Heap} {size n : ℕ}

/-- All that a request for `size` bytes can do to a pool and to the chunks in use. -/
inductive Outcome (A : Bfdev σ) (pool : Pool σ) (h : Heap) (size : ℕ) :
    Option ℕ × Pool σ → Heap → Prop
  | refused {t : Heap} (hl : t.live = h.live) : Outcome A pool h size (none, pool) t
  | bumped {c : Cache σ} {cs : List (Cache σ)} {n q : ℕ} {p : σ} {t : Heap}
    (hc : pool.cache = c :: cs) (hn : size ≤ n) (ha : A.alloc c.pool n 0 = some (q, p))
    (hl : t.live = h.live) (hf : t.freed = h.freed) :
    Outcome A pool h size (some q, { pool with cache := { c with pool := p } :: cs }) t
  | paged {d g : Chunk} {n q : ℕ} {p : σ} {t : Heap} (hg : g.size = pageSize) (hn : size ≤ n)
    (ha : A.alloc (A.init g.addr pageSize) n 0 = some (q, p)) (hd : h.requests ≤ d.id)
    (hid : h.requests ≤ g.id) (hl : t.live = g :: d :: h.live) (hf : t.freed = h.freed) :
    Outcome A pool h size (some q, { pool with cache := ⟨d.addr, p, g.addr⟩ :: pool.cache }) t
  | alone {d g : Chunk} {t : Heap} (hn : size ≤ g.size) (hd : h.requests ≤ d.id)
    (hid : h.requests ≤ g.id) (hl : t.live = g :: d :: h.live) (hf : t.freed = h.freed) :
    Outcome A pool h size (some g.addr, { pool with block := ⟨d.addr, g.addr⟩ :: pool.block }) t

lemma Outcome.congr {r : Option ℕ × Pool σ} {u : Heap} (h' : Outcome A pool h size r t)
    (hl : u.live = t.live) (hf : u.freed = t.freed) : Outcome A pool h size r u := by
  cases h' with
  | refused hl' => exact .refused (hl.trans hl')
  | bumped hc hn ha hl' hf' => exact .bumped hc hn ha (hl.trans hl') (hf.trans hf')
  | paged hg hn ha hd hid hl' hf' =>
    exact .paged hg hn ha hd hid (hl.trans hl') (hf.trans hf')
  | alone hn hd hid hl' hf' => exact .alone hn hd hid (hl.trans hl') (hf.trans hf')

lemma addCache_spec (ho : h.Ok) (hn : n ≤ pageSize) (hs : size ≤ n) :
    Prog.Ensures M.exec Heap.total (fun r t => t.Ok ∧ Outcome A pool h size r t)
      (addCache A pool n) h := by
  refine Heap.malloc_rule (.pure trivial ⟨ho.refuse, .refused rfl⟩) fun d hd => ?_
  have hdOk := ho.grant hd
  refine Heap.malloc_rule ?_ fun g hg => ?_
  · refine Heap.free_rule (c := ⟨⟨d, sizeofCache A⟩, h.requests⟩) hdOk.refuse List.mem_cons_self ?_
    exact .pure trivial ⟨hdOk.refuse.takeBack List.mem_cons_self, .refused (Heap.Ok.undone hd)⟩
  · obtain ⟨⟨q, p⟩, ha⟩ := Option.isSome_iff_exists.mp (A.fresh g hn)
    dsimp only
    rw [ha]
    exact .pure trivial ⟨hdOk.grant hg, .paged (g := ⟨⟨g, pageSize⟩, _⟩)
      (d := ⟨⟨d, sizeofCache A⟩, _⟩) rfl hs ha le_rfl (Nat.le_succ _) rfl rfl⟩

/-- The rest of the first page serves the request, or a new page does. -/
theorem cacheAlloc_spec (ho : h.Ok) (hs : size < pageSize) :
    Prog.Ensures M.exec Heap.total (fun r t => t.Ok ∧ Outcome A pool h size r t)
      (cacheAlloc A pool size) h := by
  have hlt : size < 4096 := hs
  have hle : size ≤ A.alignHigh size alignSize := A.le_alignHigh ⟨3, rfl⟩ (by
    show size + 8 ≤ 2^64
    omega)
  have hpage : A.alignHigh size alignSize ≤ pageSize :=
    A.alignHigh_le ⟨3, rfl⟩ (by decide) hs.le (by decide)
  unfold cacheAlloc
  dsimp only
  split
  · exact addCache_spec ho hpage hle
  · rename_i c cs hc
    split
    · rename_i q p ha
      exact .pure trivial ⟨ho, .bumped hc hle ha rfl rfl⟩
    · exact addCache_spec ho hpage hle

theorem blockAlloc_spec (ho : h.Ok) (hs : size < 2^32) :
    Prog.Ensures M.exec Heap.total (fun r t => t.Ok ∧ Outcome A pool h size r t)
      (blockAlloc A pool size) h := by
  have hle : size ≤ A.alignHigh size pageSize := A.le_alignHigh ⟨12, rfl⟩ (by
    show size + 4096 ≤ 2^64
    omega)
  refine Heap.malloc_rule (.pure trivial ⟨ho.refuse, .refused rfl⟩) fun d hd => ?_
  have hdOk := ho.grant hd
  refine Heap.malloc_rule ?_ fun g hg => ?_
  · refine Heap.free_rule (c := ⟨⟨d, sizeofBlock⟩, h.requests⟩) hdOk.refuse List.mem_cons_self ?_
    exact .pure trivial ⟨hdOk.refuse.takeBack List.mem_cons_self, .refused (Heap.Ok.undone hd)⟩
  · exact .pure trivial ⟨hdOk.grant hg, .alone (g := ⟨⟨g, A.alignHigh size pageSize⟩, _⟩)
      (d := ⟨⟨d, sizeofBlock⟩, _⟩) hle le_rfl (Nat.le_succ _) rfl rfl⟩

theorem palloc_spec (ho : h.Ok) (hs : size < 2^32) :
    Prog.Ensures M.exec Heap.total (fun r t => t.Ok ∧ Outcome A pool h size r t)
      (palloc A pool size) h := by
  unfold palloc
  split
  · exact .pure trivial ⟨ho, .refused rfl⟩
  · split
    · rename_i hlt
      exact cacheAlloc_spec ho hlt
    · exact blockAlloc_spec ho hs

/-! ## What a pool owns -/

/-- The chunks of the entries with their descriptors, in the order in which they are freed. -/
def entries (pool : Pool σ) : List (ℕ × ℕ) :=
  (pool.cache.map fun cache => (cache.data, cache.self)) ++
    pool.block.map fun block => (block.data, block.self)

/-- The addresses of all chunks that it got for its entries. -/
def chunks (pool : Pool σ) : List ℕ := pool.entries.flatMap fun e => [e.1, e.2]

lemma freeEntries_eq (es : List (ℕ × ℕ)) :
    freeEntries es = Heap.freeAll (es.flatMap fun e => [e.1, e.2]) := by
  induction es with
  | nil => rfl
  | cons e es ih =>
    rw [freeEntries, ih]
    rfl

lemma releasePool_eq (pool : Pool σ) : releasePool pool =
    Heap.freeAll pool.chunks >>= fun _ => return { pool with cache := [], block := [] } := by
  rw [chunks, entries, List.flatMap_append, Heap.freeAll_append, ← freeEntries_eq,
    ← freeEntries_eq, bind_assoc]
  rfl

lemma destroyPool_eq (pool : Pool σ) :
    destroyPool pool = Heap.freeAll (pool.chunks ++ [pool.self]) := by
  rw [destroyPool, releasePool_eq, Heap.freeAll_append, bind_assoc]
  refine congrArg _ (funext fun _ => ?_)
  rfl

/-- The page of a cache entry, filled up to where its allocpool stands. -/
def Cache.region (A : Bfdev σ) (c : Cache σ) : Region := ⟨⟨c.data, pageSize⟩, A.top c.pool⟩

/-- The regions of a pool: its pages, and the chunks `bs` given away as a whole. -/
def regions (A : Bfdev σ) (pool : Pool σ) (bs : List Region) : List Region :=
  pool.cache.map (Cache.region A) ++ bs

end Pool

/-- A pool with its heap, the spans returned since the last release, and the numbers of the chunks
that its requests have kept since then. -/
structure PoolState (σ : Type) where
  heap : Heap
  pool : Pool σ
  given : List Span
  kept : List ℕ

namespace PoolState
variable {σ : Type} {A : Bfdev σ} {M : Heap.Malloc} {s s' : PoolState σ} {t : Heap}
  {bs : List Region}

def after (s : PoolState σ) (size : ℕ) (r : Option ℕ × Pool σ) (t : Heap) : PoolState σ :=
  ⟨t, r.2, (r.1.map fun p => ⟨p, size⟩).toList ++ s.given, t.since s.heap.requests ++ s.kept⟩

/-- `c` is a page or a block of the pool, and in use. -/
structure Owns (s : PoolState σ) (c : Chunk) : Prop where
  live : c ∈ s.heap.live
  data : c.addr ∈ s.pool.entries.map Prod.fst

structure Inv (A : Bfdev σ) (bs : List Region) (s : PoolState σ) : Prop where
  heap : s.heap.Ok
  arena : Arena.Ok ⟨s.pool.regions A bs, s.given⟩
  blocks : bs.map (fun g => g.chunk.addr) = s.pool.block.map Pool.Block.data
  pages : ∀ c ∈ s.pool.cache, A.page c.pool = ⟨c.data, pageSize⟩
  regions : ∀ g ∈ s.pool.regions A bs, ∃ c ∈ s.heap.live, c.toSpan = g.chunk
  owned : Heap.Owned s.heap.live s.pool.chunks s.kept
  self : ∃ c ∈ s.heap.live, c.addr = s.pool.self
  self_notMem : s.pool.self ∉ s.pool.chunks

lemma Inv.owns (hi : s.Inv A bs) {g : Region} (hg : g ∈ s.pool.regions A bs) :
    ∃ c, s.Owns c ∧ c.toSpan = g.chunk := by
  obtain ⟨c, hc, hcg⟩ := hi.regions g hg
  refine ⟨c, ⟨hc, ?_⟩, hcg⟩
  have haddr : c.addr = g.chunk.addr := congrArg Span.addr hcg
  rw [haddr, Pool.entries, List.map_append, List.map_map, List.map_map]
  rcases List.mem_append.mp hg with hg | hg
  · obtain ⟨e, he, rfl⟩ := List.mem_map.mp hg
    exact List.mem_append_left _ (List.mem_map.mpr ⟨e, he, rfl⟩)
  · have hmem : g.chunk.addr ∈ s.pool.block.map Pool.Block.data :=
      hi.blocks ▸ List.mem_map_of_mem hg
    exact List.mem_append_right _ hmem

lemma Inv.within (hi : s.Inv A bs) {r : Span} (hr : r ∈ s.given) :
    ∃ c, s.Owns c ∧ r.Within c.toSpan := by
  obtain ⟨g, hg, hrg⟩ := hi.arena.within hr
  obtain ⟨c, hc, hcg⟩ := hi.owns hg
  exact ⟨c, hc, hcg ▸ hrg⟩

lemma Inv.same (hi : s.Inv A bs) (ht : t.Ok) (hl : t.live = s.heap.live) :
    Inv A bs { s with heap := t } := by
  obtain ⟨-, harena, hblocks, hpages, hregions, howned, hself, hnot⟩ := hi
  rw [← hl] at hregions howned hself
  exact ⟨ht, harena, hblocks, hpages, hregions, howned, hself, hnot⟩

lemma Inv.apart (hi : s.Inv A bs) (ht : t.Ok) {g d : Chunk} (hl : t.live = g :: d :: s.heap.live) :
    ∀ x ∈ s.pool.regions A bs, g.toSpan.Apart x.chunk := by
  intro x hx
  obtain ⟨c, hc, hcx⟩ := hi.regions x hx
  rw [← hcx]
  exact (ht.head_distinct hl c (List.mem_cons_of_mem _ hc)).2

lemma Inv.self_of_add (hi : s.Inv A bs) (ht : t.Ok) {g d : Chunk}
    (hl : t.live = g :: d :: s.heap.live) :
    (∃ c ∈ t.live, c.addr = s.pool.self) ∧ g.addr ≠ s.pool.self ∧ d.addr ≠ s.pool.self := by
  obtain ⟨c, hc, hcs⟩ := hi.self
  have hg := ht.head_distinct hl c (List.mem_cons_of_mem _ hc)
  have hdis := ht.distinct
  rw [hl, List.pairwise_cons, List.pairwise_cons] at hdis
  refine ⟨⟨c, ?_, hcs⟩, hcs ▸ hg.1, hcs ▸ (hdis.2.1 c hc).1⟩
  rw [hl]
  exact List.mem_cons_of_mem _ (List.mem_cons_of_mem _ hc)

lemma Inv.bumped (hi : s.Inv A bs) (ht : t.Ok) {c : Pool.Cache σ} {cs : List (Pool.Cache σ)}
    {size n q : ℕ} {p : σ} (hc : s.pool.cache = c :: cs) (hn : size ≤ n)
    (ha : A.alloc c.pool n 0 = some (q, p)) (hl : t.live = s.heap.live) :
    Inv A bs ⟨t, { s.pool with cache := { c with pool := p } :: cs }, ⟨q, size⟩ :: s.given,
      s.kept⟩ := by
  have hmem : c ∈ s.pool.cache := hc ▸ List.mem_cons_self
  have hpage := hi.pages c hmem
  have hstop : A.top p ≤ (Span.mk c.data pageSize).stop := hpage ▸ A.top_le ha
  have hregions : s.pool.regions A bs = c.region A :: (cs.map (Pool.Cache.region A) ++ bs) := by
    rw [Pool.regions, hc]
    rfl
  have hchunks : s.pool.chunks =
      Pool.chunks { s.pool with cache := { c with pool := p } :: cs } := by
    rw [Pool.chunks, Pool.entries, hc]
    rfl
  have hlive := hi.same ht hl
  refine ⟨ht, ?_, hi.blocks, fun e he => ?_, fun g hg => ?_, hchunks ▸ hlive.owned, hlive.self,
    hchunks ▸ hi.self_notMem⟩
  · have harena := hi.arena
    rw [hregions] at harena
    have hgives := @Arena.Gives.bump ⟨q, size⟩ (c.region A) []
      (cs.map (Pool.Cache.region A) ++ bs) s.given (A.top p) (A.le_addr ha)
      ((Nat.add_le_add_left hn q).trans (A.stop_le ha)) hstop
    exact hgives.ok harena
  · rcases List.mem_cons.mp he with rfl | he
    · exact (A.page_alloc ha).trans hpage
    · exact hi.pages e (hc ▸ List.mem_cons_of_mem _ he)
  · rcases List.mem_cons.mp hg with rfl | hg
    · exact hlive.regions (c.region A) (hregions ▸ List.mem_cons_self)
    · exact hlive.regions g (hregions ▸ List.mem_cons_of_mem _ hg)

lemma Inv.paged (hi : s.Inv A bs) (ht : t.Ok) {d g : Chunk} {size n q : ℕ} {p : σ}
    (hg : g.size = pageSize) (hn : size ≤ n)
    (ha : A.alloc (A.init g.addr pageSize) n 0 = some (q, p))
    (hl : t.live = g :: d :: s.heap.live) :
    Inv A bs ⟨t, { s.pool with cache := ⟨d.addr, p, g.addr⟩ :: s.pool.cache },
      ⟨q, size⟩ :: s.given, g.id :: d.id :: s.kept⟩ := by
  have hspan : g.toSpan = ⟨g.addr, pageSize⟩ := hg ▸ rfl
  have hpage : A.page p = ⟨g.addr, pageSize⟩ := (A.page_alloc ha).trans (A.page_init _ _)
  have hbot : g.addr ≤ q := A.top_init g.addr pageSize ▸ A.le_addr ha
  have htop : q + size ≤ A.top p := (Nat.add_le_add_left hn q).trans (A.stop_le ha)
  have hstop : A.top p ≤ (Span.mk g.addr pageSize).stop :=
    (A.top_le ha).trans (by rw [A.page_init])
  obtain ⟨hself, hgs, hds⟩ := hi.self_of_add ht hl
  refine ⟨ht, ?_, hi.blocks, fun e he => ?_, fun x hx => ?_, hi.owned.add ht hl, hself,
    fun hm => ?_⟩
  · have hgives := @Arena.Gives.add ⟨q, size⟩ ⟨⟨g.addr, pageSize⟩, A.top p⟩ []
      (s.pool.regions A bs) s.given ⟨hbot.trans ((Nat.le_add_right _ _).trans htop), hstop⟩
      ⟨hbot, htop⟩ (hspan ▸ hi.apart ht hl)
    exact hgives.ok hi.arena
  · rcases List.mem_cons.mp he with rfl | he
    · exact hpage
    · exact hi.pages e he
  · rw [hl]
    rcases List.mem_cons.mp hx with rfl | hx
    · exact ⟨g, List.mem_cons_self, hspan⟩
    · obtain ⟨c, hc, hcx⟩ := hi.regions x hx
      exact ⟨c, List.mem_cons_of_mem _ (List.mem_cons_of_mem _ hc), hcx⟩
  · rcases List.mem_cons.mp hm with hm | hm
    · exact hgs hm.symm
    rcases List.mem_cons.mp hm with hm | hm
    · exact hds hm.symm
    · exact hi.self_notMem hm

lemma Inv.alone (hi : s.Inv A bs) (ht : t.Ok) {d g : Chunk} {size : ℕ} (hn : size ≤ g.size)
    (hl : t.live = g :: d :: s.heap.live) :
    Inv A (⟨g.toSpan, g.stop⟩ :: bs) ⟨t, { s.pool with block := ⟨d.addr, g.addr⟩ :: s.pool.block },
      ⟨g.addr, size⟩ :: s.given, g.id :: d.id :: s.kept⟩ := by
  obtain ⟨hself, hgs, hds⟩ := hi.self_of_add ht hl
  set pool : Pool σ := { s.pool with block := ⟨d.addr, g.addr⟩ :: s.pool.block } with hpool
  have hperm : (g.addr :: d.addr :: s.pool.chunks).Perm pool.chunks := by
    rw [Pool.chunks, Pool.chunks, Pool.entries, Pool.entries, List.flatMap_append,
      List.flatMap_append]
    exact List.perm_append_comm_assoc [g.addr, d.addr] _ _
  have hregions : ∀ x, x ∈ pool.regions A (⟨g.toSpan, g.stop⟩ :: bs) ↔
      x = ⟨g.toSpan, g.stop⟩ ∨ x ∈ s.pool.regions A bs := fun x => Arena.mem_middle
  refine ⟨ht, ?_, ?_, hi.pages, fun x hx => ?_, (hi.owned.add ht hl).perm hperm, hself,
    fun hm => ?_⟩
  · have hgives := @Arena.Gives.add ⟨g.addr, size⟩ ⟨g.toSpan, g.stop⟩
      (s.pool.cache.map (Pool.Cache.region A)) bs s.given ⟨Nat.le_add_right _ _, le_rfl⟩
      ⟨le_rfl, Nat.add_le_add_left hn _⟩ (hi.apart ht hl)
    exact hgives.ok hi.arena
  · exact congrArg (g.addr :: ·) hi.blocks
  · rw [hl]
    rcases (hregions x).mp hx with rfl | hx
    · exact ⟨g, List.mem_cons_self, rfl⟩
    · obtain ⟨c, hc, hcx⟩ := hi.regions x hx
      exact ⟨c, List.mem_cons_of_mem _ (List.mem_cons_of_mem _ hc), hcx⟩
  · rcases List.mem_cons.mp (hperm.mem_iff.mpr hm) with hm | hm
    · exact hgs hm.symm
    rcases List.mem_cons.mp hm with hm | hm
    · exact hds hm.symm
    · exact hi.self_notMem hm

theorem Inv.outcome (hi : s.Inv A bs) (ht : t.Ok) {size : ℕ} {r : Option ℕ × Pool σ}
    (ho : Pool.Outcome A s.pool s.heap size r t) : ∃ bs', (s.after size r t).Inv A bs' := by
  cases ho with
  | refused hl =>
    refine ⟨bs, ?_⟩
    rw [after, hi.heap.since_same hl]
    exact hi.same ht hl
  | bumped hc hn ha hl hf =>
    refine ⟨bs, ?_⟩
    rw [after, hi.heap.since_same hl]
    exact hi.bumped ht hc hn ha hl
  | paged hg hn ha hd hid hl hf =>
    refine ⟨bs, ?_⟩
    rw [after, hi.heap.since_add hl hid hd]
    exact hi.paged ht hg hn ha hl
  | @alone d g t hn hd hid hl hf =>
    refine ⟨⟨g.toSpan, g.stop⟩ :: bs, ?_⟩
    rw [after, hi.heap.since_add hl hid hd]
    exact hi.alone ht hn hl

lemma Inv.pcalloc (hi : s.Inv A bs) {size : ℕ} (hs : size < 2^32) :
    Prog.Ensures M.exec Heap.total (fun r t => t.Ok ∧ Pool.Outcome A s.pool s.heap size r t)
      (Pool.pcalloc A s.pool size) s.heap := by
  refine (Pool.palloc_spec hi.heap hs).andThen fun r t hrt => ?_
  obtain ⟨ht, ho⟩ := hrt
  obtain ⟨p, pool⟩ := r
  cases p with
  | none => exact .pure trivial ⟨ht, ho⟩
  | some p =>
    obtain ⟨bs', hi'⟩ := hi.outcome ht ho
    obtain ⟨c, hc, hpc⟩ := hi'.within (r := ⟨p, size⟩) List.mem_cons_self
    exact Heap.zero_rule hc.live hpc (.pure trivial ⟨ht.zero _, ho.congr rfl rfl⟩)

end PoolState

/-! ## Runs -/

inductive PoolRequest
  | palloc (size : ℕ)
  | pcalloc (size : ℕ)

def PoolRequest.size : PoolRequest → ℕ
  | .palloc size | .pcalloc size => size

section
variable {σ : Type} (A : Bfdev σ) (M : Heap.Malloc)

def PoolRequest.prog (pool : Pool σ) : PoolRequest → HeapProg (Option ℕ × Pool σ)
  | .palloc size => Pool.palloc A pool size
  | .pcalloc size => Pool.pcalloc A pool size

namespace PoolState

def request (c : PoolRequest) (s : PoolState σ) : Except Heap.Fault (Option ℕ × PoolState σ) :=
  (Prog.run M.exec (c.prog A s.pool) s.heap).map fun r => (r.1.1, s.after c.size r.1 r.2)

def release (s : PoolState σ) : Except Heap.Fault (PoolState σ) :=
  (Prog.run M.exec (Pool.releasePool s.pool) s.heap).map fun r => ⟨r.2, r.1, [], []⟩

def destroy (s : PoolState σ) : Except Heap.Fault Heap :=
  (Prog.run M.exec (Pool.destroyPool s.pool) s.heap).map Prod.snd

end PoolState

/-- A pool is created, serves requests and is released, in any order, while others use the heap. -/
inductive PoolRun : PoolState σ → Prop
  | created {h h' : Heap} {pool : Pool σ} (ho : h.Ok)
    (hc : Prog.run M.exec Pool.createPool h = .ok (some pool, h')) : PoolRun ⟨h', pool, [], []⟩
  | requested {s t : PoolState σ} {c : PoolRequest} {p : Option ℕ} (hs : PoolRun s)
    (hsize : c.size < 2^32) (hc : s.request A M c = .ok (p, t)) : PoolRun t
  | released {s t : PoolState σ} (hs : PoolRun s) (hc : s.release M = .ok t) : PoolRun t
  | others {s : PoolState σ} {op : Heap.Op} {r : Heap.Res op} {h : Heap} (hs : PoolRun s)
    (ho : op.Spares (s.pool.self :: s.pool.chunks)) (hc : M.exec op s.heap = .ok (r, h)) :
    PoolRun { s with heap := h }

end

namespace PoolState
variable {σ : Type} {A : Bfdev σ} {M : Heap.Malloc} {s s' : PoolState σ} {t : Heap}
  {bs : List Region}

lemma Inv.request (hi : s.Inv A bs) {c : PoolRequest} (hsize : c.size < 2^32) :
    ∃ r t bs', s.request A M c = .ok (r.1, s.after c.size r t) ∧
      Pool.Outcome A s.pool s.heap c.size r t ∧ (s.after c.size r t).Inv A bs' := by
  have hspec : Prog.Ensures M.exec Heap.total
      (fun r t => t.Ok ∧ Pool.Outcome A s.pool s.heap c.size r t) (c.prog A s.pool) s.heap := by
    cases c with
    | palloc size => exact Pool.palloc_spec hi.heap hsize
    | pcalloc size => exact hi.pcalloc hsize
  obtain ⟨r, t, hrun, ht, ho⟩ := hspec.finishes (fun _ => trivial) id
  obtain ⟨bs', hi'⟩ := hi.outcome ht ho
  refine ⟨r, t, bs', ?_, ho, hi'⟩
  rw [PoolState.request, hrun]
  rfl

/-- All chunks of the pool are taken back, and then the pool itself, if `self` is among them. -/
lemma Inv.freeAll (hi : s.Inv A bs) {as : List ℕ} (has : as = s.pool.chunks ∨
    as = s.pool.chunks ++ [s.pool.self]) :
    ∃ t, Prog.run M.exec (Heap.freeAll as) s.heap = .ok ((), t) ∧ s.heap.TakenBack as t := by
  have hlive : ∀ a ∈ as, ∃ c ∈ s.heap.live, c.addr = a := by
    rintro a ha
    rcases has with rfl | rfl
    · exact hi.owned.live a ha
    · rcases List.mem_append.mp ha with ha | ha
      · exact hi.owned.live a ha
      · obtain rfl := List.mem_singleton.mp ha
        exact hi.self
  have hnodup : as.Nodup := by
    rcases has with rfl | rfl
    · exact hi.owned.nodup
    · refine List.nodup_append.mpr ⟨hi.owned.nodup, List.nodup_singleton _, fun a ha b hb hab => ?_⟩
      obtain rfl := List.mem_singleton.mp hb
      exact hi.self_notMem (hab ▸ ha)
  obtain ⟨_, t, hrun, ht⟩ := (Heap.freeAll_ensures hi.heap hlive hnodup).finishes
    (fun _ => trivial) id
  exact ⟨t, hrun, ht⟩

lemma Inv.release (hi : s.Inv A bs) : ∃ t, s.release M = .ok t ∧
    s.heap.TakenBack s.pool.chunks t.heap ∧ t.Inv A [] := by
  obtain ⟨t, hrun, ht⟩ := hi.freeAll (M := M) (.inl rfl)
  refine ⟨⟨t, { s.pool with cache := [], block := [] }, [], []⟩, ?_, ht, ?_⟩
  · rw [PoolState.release, Pool.releasePool_eq, Prog.run_bind_of_ok hrun]
    rfl
  · obtain ⟨c, hc, hcs⟩ := hi.self
    refine ⟨ht.ok, ⟨.nil, fun g hg => absurd hg List.not_mem_nil,
      fun r hr => absurd hr List.not_mem_nil, .nil⟩, rfl, fun c hc => absurd hc List.not_mem_nil,
      fun g hg => absurd hg List.not_mem_nil, Heap.owned_nil,
      ⟨c, (ht.live c).mpr ⟨hc, hcs ▸ hi.self_notMem⟩, hcs⟩, List.not_mem_nil⟩

lemma Inv.destroy (hi : s.Inv A bs) : ∃ t, s.destroy M = .ok t ∧
    s.heap.TakenBack (s.pool.chunks ++ [s.pool.self]) t := by
  obtain ⟨t, hrun, ht⟩ := hi.freeAll (M := M) (.inr rfl)
  refine ⟨t, ?_, ht⟩
  rw [PoolState.destroy, Pool.destroyPool_eq, hrun]
  rfl

lemma Inv.others (hi : s.Inv A bs) {op : Heap.Op} {r : Heap.Res op}
    (ho : op.Spares (s.pool.self :: s.pool.chunks)) (hx : M.exec op s.heap = .ok (r, t)) :
    Inv A bs { s with heap := t } := by
  have hlive : ∀ a ∈ s.pool.self :: s.pool.chunks, ∃ c ∈ s.heap.live, c.addr = a := fun a ha => by
    rcases List.mem_cons.mp ha with rfl | ha
    · exact hi.self
    · exact hi.owned.live a ha
  have hspared := hi.heap.spared ho hlive hx
  refine ⟨Heap.ok_preserved M op s.heap r t hi.heap hx, hi.arena, hi.blocks, hi.pages,
    fun g hg => ?_, hi.owned.congr fun c hc => hspared c (List.mem_cons_of_mem _ hc), ?_,
    hi.self_notMem⟩
  · obtain ⟨c, hc, hcg⟩ := hi.owns hg
    refine ⟨c, (hspared c (List.mem_cons_of_mem _ ?_)).mpr hc.live, hcg⟩
    obtain ⟨e, he, hec⟩ := List.mem_map.mp hc.data
    exact List.mem_flatMap.mpr ⟨e, he, hec ▸ List.mem_cons_self⟩
  · obtain ⟨c, hc, hcs⟩ := hi.self
    exact ⟨c, (hspared c (hcs ▸ List.mem_cons_self)).mpr hc, hcs⟩

lemma inv_created {h h' : Heap} {pool : Pool σ} (ho : h.Ok)
    (hc : Prog.run M.exec Pool.createPool h = .ok (some pool, h')) :
    Inv A [] ⟨h', pool, [], []⟩ := by
  have hspec : Prog.Ensures M.exec Heap.total (fun r t => t.Ok ∧ ∀ pool : Pool σ, r = some pool →
      pool.cache = [] ∧ pool.block = [] ∧ ∃ c ∈ t.live, c.addr = pool.self) Pool.createPool h := by
    refine Heap.malloc_rule (.pure trivial ⟨ho.refuse, fun _ hp => by cases hp⟩) fun a ha => ?_
    refine .pure trivial ⟨ho.grant ha, fun _ hp => ?_⟩
    cases hp
    exact ⟨rfl, rfl, _, List.mem_cons_self, rfl⟩
  obtain ⟨ht, hp⟩ := hspec.result (fun _ _ _ _ _ _ => trivial) hc trivial
  obtain ⟨hcache, hblock, hself⟩ := hp pool rfl
  obtain ⟨self, cache, block⟩ := pool
  obtain rfl : cache = [] := hcache
  obtain rfl : block = [] := hblock
  exact ⟨ht, ⟨.nil, fun g hg => absurd hg List.not_mem_nil,
    fun r hr => absurd hr List.not_mem_nil, .nil⟩, rfl, fun c hc => absurd hc List.not_mem_nil,
    fun g hg => absurd hg List.not_mem_nil, Heap.owned_nil, hself, List.not_mem_nil⟩

structure Granted (s t : PoolState σ) (r : Span) : Prop where
  given : t.given = r :: s.given
  owned : ∃ c, t.Owns c ∧ r.Within c.toSpan
  apart : ∀ q ∈ s.given, r.Apart q
  freed : t.heap.freed = s.heap.freed

/-- The request has returned `NULL`. -/
structure Unchanged (s t : PoolState σ) : Prop where
  pool : t.pool = s.pool
  given : t.given = s.given
  kept : t.kept = s.kept
  live : t.heap.live = s.heap.live

/-- The chunks that the requests have kept were taken back, each once. -/
structure FreedOnce (s : PoolState σ) (h : Heap) : Prop where
  before : ∀ k ∈ s.kept, k ∉ s.heap.freed
  once : ∀ k ∈ s.kept, h.freed.count k = 1
  gone : ∀ c ∈ h.live, c.addr ∉ s.pool.chunks

lemma Inv.granted (hi : s.Inv A bs) {size p : ℕ} {pool : Pool σ} (ht : t.Ok)
    (ho : Pool.Outcome A s.pool s.heap size (some p, pool) t) :
    s.Granted (s.after size (some p, pool) t) ⟨p, size⟩ := by
  obtain ⟨bs', hi'⟩ := hi.outcome ht ho
  refine ⟨rfl, hi'.within List.mem_cons_self, fun q hq => ?_, ?_⟩
  · exact (List.pairwise_cons.mp hi'.arena.disjoint).1 q hq
  · cases ho with
    | bumped _ _ _ _ hf => exact hf
    | paged _ _ _ _ _ _ hf => exact hf
    | alone _ _ _ _ hf => exact hf

lemma Inv.unchanged (hi : s.Inv A bs) {size : ℕ} {pool : Pool σ}
    (ho : Pool.Outcome A s.pool s.heap size (none, pool) t) :
    s.Unchanged (s.after size (none, pool) t) := by
  cases ho with
  | refused hl =>
    refine ⟨rfl, rfl, ?_, hl⟩
    show t.since s.heap.requests ++ s.kept = _
    rw [hi.heap.since_same hl]
    rfl

lemma Inv.freedOnce (hi : s.Inv A bs) {as : List ℕ} (ht : s.heap.TakenBack as t)
    (has : ∀ a ∈ s.pool.chunks, a ∈ as) : s.FreedOnce t where
  before k hk := by
    obtain ⟨c, hc, -, rfl⟩ := (hi.owned.mem k).mp hk
    exact hi.heap.not_freed hc
  once k hk := by
    obtain ⟨c, hc, ha, rfl⟩ := (hi.owned.mem k).mp hk
    refine List.count_eq_one_of_mem ht.ok.freed_nodup ?_
    exact (ht.freed _).mpr (.inr ⟨c, hc, has _ ha, rfl⟩)
  gone c hc ha := ((ht.live c).mp hc).2 (has _ ha)

end PoolState

variable {σ : Type} {A : Bfdev σ} {M : Heap.Malloc} {s : PoolState σ}

theorem PoolRun.inv (hr : PoolRun A M s) : ∃ bs, s.Inv A bs := by
  induction hr with
  | created ho hc => exact ⟨[], PoolState.inv_created ho hc⟩
  | requested _ hsize hc ih =>
    obtain ⟨bs, hi⟩ := ih
    obtain ⟨r, t, bs', hreq, -, hi'⟩ := hi.request (M := M) hsize
    rw [hreq] at hc
    cases hc
    exact ⟨bs', hi'⟩
  | released _ hc ih =>
    obtain ⟨bs, hi⟩ := ih
    obtain ⟨t, hrel, -, hi'⟩ := hi.release (M := M)
    rw [hrel] at hc
    cases hc
    exact ⟨[], hi'⟩
  | others _ ho hc ih =>
    obtain ⟨bs, hi⟩ := ih
    exact ⟨bs, hi.others ho hc⟩

/-- What a pool has returned since its last release lies apart in chunks that it owns, no request
and no release of it is a fault, a refused request leaves nothing behind, and what the requests have
kept is taken back once. -/
theorem PoolRun.allocations_owned (hr : PoolRun A M s) :
    s.given.Pairwise Span.Apart ∧ (∀ r ∈ s.given, ∃ c, s.Owns c ∧ r.Within c.toSpan) ∧
      (∀ c : PoolRequest, c.size < 2^32 → ∃ p t, s.request A M c = .ok (p, t) ∧
        (∀ a, p = some a → s.Granted t ⟨a, c.size⟩) ∧ (p = none → s.Unchanged t)) ∧
      (∃ t, s.release M = .ok t ∧ s.FreedOnce t.heap) ∧
        ∃ h, s.destroy M = .ok h ∧ s.FreedOnce h := by
  obtain ⟨bs, hi⟩ := hr.inv
  refine ⟨hi.arena.disjoint, fun r hr => hi.within hr, fun c hsize => ?_, ?_, ?_⟩
  · obtain ⟨⟨p, pool⟩, t, bs', hreq, ho, hi'⟩ := hi.request (M := M) hsize
    refine ⟨p, _, hreq, fun a ha => ?_, fun hp => ?_⟩
    · subst ha
      exact hi.granted hi'.heap ho
    · subst hp
      exact hi.unchanged ho
  · obtain ⟨t, hrel, ht, -⟩ := hi.release (M := M)
    exact ⟨t, hrel, hi.freedOnce ht fun _ ha => ha⟩
  · obtain ⟨t, hdes, ht⟩ := hi.destroy (M := M)
    exact ⟨t, hdes, hi.freedOnce ht fun _ ha => List.mem_append_left _ ha⟩

/-! ## A run -/

/-- An allocpool that is given by its page and where the rest of it begins. -/
def bumpPool : Bfdev Region where
  sizeof := 32
  init a n := ⟨⟨a, n⟩, a⟩
  alloc p n _ :=
    if p.top + n ≤ p.chunk.stop then some (p.top, { p with top := p.top + n }) else none
  page p := p.chunk
  top p := p.top
  page_init _ _ := rfl
  top_init _ _ := rfl
  page_alloc h := by
    split at h <;> cases h
    rfl
  le_addr h := by
    split at h <;> cases h
    exact le_rfl
  stop_le h := by
    split at h <;> cases h
    exact le_rfl
  top_le h := by
    split at h <;> cases h
    assumption
  fresh a n hn := by
    simp [Span.stop, hn]
  alignHigh size align := (size + (align - 1)) / align * align
  le_alignHigh := by
    rintro size _ ⟨k, rfl⟩ -
    have hpos : 0 < 2 ^ k := Nat.two_pow_pos k
    have hlt := Nat.mod_lt (size + (2 ^ k - 1)) hpos
    have hsum := Nat.div_add_mod' (size + (2 ^ k - 1)) (2 ^ k)
    omega
  alignHigh_le := by
    rintro size _ _ ⟨k, rfl⟩ ⟨j, rfl⟩ hs -
    have hpos : 0 < 2 ^ k := Nat.two_pow_pos k
    have hdiv : (size + (2 ^ k - 1)) / 2 ^ k ≤ j := by
      refine (Nat.div_le_div_right (Nat.add_le_add_right hs _)).trans (le_of_eq ?_)
      rw [Nat.mul_add_div hpos, Nat.div_eq_of_lt (by omega), Nat.add_zero]
    rw [mul_comm]
    exact Nat.mul_le_mul_left _ hdiv

/-- The first address behind all chunks in use. -/
def behind (cs : List Chunk) : ℕ := cs.foldr (fun c a => max (c.stop + 1) a) 16

lemma stop_lt_behind {cs : List Chunk} {c : Chunk} (hc : c ∈ cs) : c.stop < behind cs := by
  induction cs with
  | nil => cases hc
  | cons d cs ih =>
    rcases List.mem_cons.mp hc with rfl | hc
    · exact lt_of_lt_of_le (Nat.lt_succ_self _) (le_max_left _ _)
    · exact lt_of_lt_of_le (ih hc) (le_max_right _ _)

/-- The third request is refused, and all others are granted behind what is in use. -/
def ascending : Heap.Malloc where
  answer h _ := if h.requests = 3 then none else some (behind h.live)
  fresh h c hc := by
    split at h <;> cases h
    have hlt := stop_lt_behind hc
    exact ⟨fun ha => absurd hlt (by rw [← ha]; exact Nat.not_lt.mpr (Nat.le_add_right _ _)),
      .inl hlt.le⟩

def newPool : PoolState Region := ⟨Heap.empty.grant 16 16, ⟨16, [], []⟩, [], []⟩

def PoolState.requested (s : PoolState Region) (c : PoolRequest) : PoolState Region :=
  match s.request bumpPool ascending c with
  | .ok (_, t) => t
  | .error _ => s

/-- After a page was begun, a large request was refused and a second one was granted. -/
def servedPool : PoolState Region :=
  ((newPool.requested (.palloc 4089)).requested (.palloc 5000)).requested (.pcalloc 5000)

lemma run_servedPool : PoolRun bumpPool ascending servedPool := by
  have h₀ : PoolRun bumpPool ascending newPool := .created Heap.ok_empty rfl
  have h₁ : PoolRun bumpPool ascending (newPool.requested (.palloc 4089)) :=
    .requested (c := .palloc 4089) h₀ (by decide) rfl
  have h₂ : PoolRun bumpPool ascending ((newPool.requested (.palloc 4089)).requested
      (.palloc 5000)) := .requested (c := .palloc 5000) h₁ (by decide) rfl
  exact .requested (c := .pcalloc 5000) h₂ (by decide) rfl

theorem PoolRun.allocations_owned_served :
    servedPool.given.length = 2 ∧ servedPool.kept.length = 4 ∧
      servedPool.given.Pairwise Span.Apart ∧
      (∀ r ∈ servedPool.given, ∃ c, servedPool.Owns c ∧ r.Within c.toSpan) ∧
      (∀ c : PoolRequest, c.size < 2^32 → ∃ p t, servedPool.request bumpPool ascending c =
        .ok (p, t) ∧ (∀ a, p = some a → servedPool.Granted t ⟨a, c.size⟩) ∧
          (p = none → servedPool.Unchanged t)) ∧
      (∃ t, servedPool.release ascending = .ok t ∧ servedPool.FreedOnce t.heap) ∧
        ∃ h, servedPool.destroy ascending = .ok h ∧ servedPool.FreedOnce h :=
  ⟨by decide, by decide, PoolRun.allocations_owned run_servedPool⟩

end Xdbd
