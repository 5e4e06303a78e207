import Mathlib.Order.Preorder.Finite

/-!
Who waits for whom. A set is stuck when everyone in it waits for somebody in it; that cannot
happen among finitely many when waiting goes up in an order.
-/
namespace WaitFor

universe u v
variable {α : Type u} {β : Type v}

def Stuck (waits : α → α → Prop) (set : Set α) : Prop :=
  set.Nonempty ∧ ∀ a ∈ set, ∃ b ∈ set, waits a b

/-- Waits go up: among finitely many there is one at the top. -/
theorem not_stuck_of_lt [Preorder β] {waits : α → α → Prop} {set : Set α} (rank : α → β)
    (finite : set.Finite) (up : ∀ a ∈ set, ∀ b ∈ set, waits a b → rank a < rank b) :
    ¬ Stuck waits set := by
  rintro ⟨some, each⟩
  obtain ⟨top, maximal⟩ := finite.exists_maximalFor rank set some
  obtain ⟨next, inside, waits⟩ := each top maximal.1
  exact not_le_of_gt (up top maximal.1 next inside waits)
    (maximal.2 inside (up top maximal.1 next inside waits).le)

end WaitFor
