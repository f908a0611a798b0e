import Xdbd.Runs

/-!
# The free list

The chain from `free_connections` through `c->data` in every state of a run: no slot is on
it twice, none that a connection still holds, and none whose events are registered. When a
handler is called, no event of a free slot waits in a posted list.
-/
namespace Xdbd
open LinkedChain World

variable {boot : Boot} {w : World} {free : List ℕ}

/-- The free list is the chain `free` of idle slots, counted by `free_connection_n`. -/
structure FreeList (w : World) (free : List ℕ) : Prop where
  chain : Chain w.link w.freeConnections free
  inTable : ∀ i ∈ free, i < w.connectionN
  nodup : free.Nodup
  count : w.freeConnectionN = free.length
  fd : ∀ i ∈ free, (w.slots i).conn.fd = -1
  released : ∀ i ∈ free, i ∈ w.issued → (w.slots i).conn.destroyed = true
  unregistered : ∀ e ∈ w.registered, e.slot ∉ free

/-- No event of a free slot is linked in a posted list. -/
def Unposted (w : World) (free : List ℕ) : Prop :=
  ∀ e ∈ w.postedAcceptEvents ++ w.postedEvents, e.slot ∉ free

lemma World.Table.freeList (h : Table w free) : FreeList w free where
  chain := h.chain
  inTable i hi := h.inTable i (.inl hi)
  nodup := h.nodup
  count := h.count
  fd := h.freeFd
  released := h.released
  unregistered _ he := (h.registered_inUse he).2

/-- At the top of the loop, at every call of a handler and all along the handlers. -/
theorem Run.free_list_invariant (h : Run boot w) :
    (∃ free, FreeList w free ∧ Unposted w free) ∧
      ∀ kernel, Allowed w kernel → ∀ c ∈ (w.processEventsAndTimers kernel).1,
        (∃ free, FreeList c.2 free ∧ Unposted c.2 free ∧ c.1.slot ∉ free) ∧
          ∀ v ∈ passed c, ∃ free, FreeList v free := by
  constructor
  · obtain ⟨free, hidle⟩ := h.idle
    exact ⟨free, hidle.table.freeList, fun _ he => hidle.batch.notMem_free he⟩
  · intro kernel hk c hc
    have hcalled := (RunInvariant.trivial boot).called h hk c hc
    obtain ⟨free, hb⟩ := hcalled.batch
    refine ⟨⟨free, hb.table.freeList, fun _ he => hb.notMem_free he,
      hb.notMem_free hcalled.posted⟩, fun v hv => ?_⟩
    rcases hb.passed hcalled.posted hv with rfl | ⟨i, hd, s, -, -, -, -, -, hlink, -⟩
    · exact ⟨free, hb.table.freeList⟩
    · obtain ⟨free', ht, -⟩ := hlink.table
      exact ⟨free', ht.freeList⟩

/-- A client is accepted and hangs up, and its slot is free again. -/
theorem Run.free_list_invariant_hungUp :
    (∃ free, FreeList hungUp free ∧ Unposted hungUp free) ∧
      ∀ c ∈ ((oneClient ⟨[.bytes []], [], [], []⟩).processEventsAndTimers (.reporting {4})).1,
        (∃ free, FreeList c.2 free ∧ Unposted c.2 free ∧ c.1.slot ∉ free) ∧
          ∀ v ∈ passed c, ∃ free, FreeList v free :=
  ⟨(Run.free_list_invariant run_hungUp).1,
    (Run.free_list_invariant (run_oneClient _)).2 _ (allowed_oneClient _)⟩

end Xdbd
