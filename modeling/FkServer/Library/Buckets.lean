import Mathlib.Data.List.Basic
import Mathlib.Logic.Function.Basic

/-!
Items sorted into buckets. Each bucket is a list that keeps the order in which the items came in;
a node shows what the store knows of its item, and the slot of an item is the slot of its node.
Emptying one bucket and sorting its nodes again keeps the order if no other item is where they go.
-/
namespace Buckets

universe u v w
variable {Item : Type u} {Node : Type v} {Slot : Type w} [DecidableEq Slot]

/-- Behind the nodes that are in the slot already. -/
def link (store : Slot → List Node) (s : Slot) (node : Node) : Slot → List Node :=
  Function.update store s (store s ++ [node])

def relink (slot : Node → Slot) (store : Slot → List Node) (nodes : List Node) :
    Slot → List Node :=
  nodes.foldl (fun store node => link store (slot node) node) store

theorem relink_apply (slot : Node → Slot) (store : Slot → List Node) (nodes : List Node)
    (s : Slot) : relink slot store nodes s = store s ++ nodes.filter (slot · = s) := by
  induction nodes generalizing store with
  | nil => simp [relink]
  | cons node nodes ih =>
      have rest := ih (link store (slot node) node)
      rw [relink, List.foldl_cons, ← relink, rest, List.filter_cons, link]
      by_cases here : slot node = s
      · simp [here]
      · rw [Function.update_of_ne (Ne.symm here), if_neg (by simpa using here)]

/-- Every bucket holds the nodes of its items, in the order of the items. -/
def Holds (node : Item → Node) (slot : Item → Slot) (store : Slot → List Node)
    (items : List Item) : Prop :=
  ∀ s, store s = (items.filter (slot · = s)).map node

namespace Holds

variable {node : Item → Node} {slot slot' : Item → Slot} {store : Slot → List Node}
variable {items : List Item}

theorem empty : Holds node slot (fun _ => []) [] := fun _ => rfl

theorem link (h : Holds node slot store items) (a : Item) :
    Holds node slot (link store (slot a) (node a)) (items ++ [a]) := by
  intro s
  rw [Buckets.link, List.filter_append, List.map_append, List.filter_singleton]
  by_cases here : slot a = s
  · subst here
    simp [h (slot a)]
  · rw [Function.update_of_ne (Ne.symm here), h s]
    simp [here]

/-- Items that a slot function does not tell apart. -/
theorem congr (h : Holds node slot store items) (same : ∀ a ∈ items, slot' a = slot a) :
    Holds node slot' store items := by
  intro s
  rw [h s]
  congr 1
  exact List.filter_congr fun a mem => by rw [same a mem]

/-- A bucket is emptied and its items go. -/
theorem clear (h : Holds node slot store items) (s₀ : Slot) :
    Holds node slot (Function.update store s₀ []) (items.filter (slot · ≠ s₀)) := by
  intro s
  rw [List.filter_filter]
  by_cases here : s = s₀
  · subst here
    have none : items.filter (fun a => decide (slot a = s) && decide (slot a ≠ s)) = [] := by
      simp
    rw [Function.update_self, none, List.map_nil]
  · rw [Function.update_of_ne here, h s]
    congr 1
    refine List.filter_congr fun a _ => ?_
    by_cases at_s : slot a = s
    · simp [at_s, here]
    · simp [at_s]

/-- A bucket is emptied and its nodes are sorted again; the others stay where they are, and none
of them is where one of the nodes goes. -/
theorem relink (h : Holds node slot store items) {s₀ : Slot} {nodeSlot : Node → Slot}
    (known : ∀ a ∈ items, slot a = s₀ → nodeSlot (node a) = slot' a)
    (stay : ∀ a ∈ items, slot a ≠ s₀ → slot' a = slot a)
    (free : ∀ a ∈ items, slot a = s₀ → ∀ b ∈ items, slot b ≠ s₀ → slot b ≠ slot' a) :
    Holds node slot' (relink nodeSlot (Function.update store s₀ []) (store s₀)) items := by
  intro s
  have left : Function.update store s₀ [] s =
      (items.filter fun a => decide (slot a ≠ s₀) && decide (slot a = s)).map node := by
    rw [h.clear s₀ s, List.filter_filter]
    congr 1
    exact List.filter_congr fun a _ => Bool.and_comm _ _
  have moved : (store s₀).filter (nodeSlot · = s) =
      (items.filter fun a => decide (slot a = s₀) && decide (slot' a = s)).map node := by
    rw [h s₀, List.filter_map, List.filter_filter]
    congr 1
    refine List.filter_congr fun a mem => ?_
    by_cases here : slot a = s₀
    · simp [here, known a mem here]
    · simp [here]
  rw [relink_apply, left, moved, ← List.map_append]
  congr 1
  by_cases goes : ∃ a ∈ items, slot a = s₀ ∧ slot' a = s
  · obtain ⟨a, mem, here, rfl⟩ := goes
    have none : items.filter (fun b => decide (slot b ≠ s₀) && decide (slot b = slot' a)) = [] := by
      rw [List.filter_eq_nil_iff]
      intro b memB both
      simp only [ne_eq, Bool.and_eq_true, decide_eq_true_eq] at both
      exact free a mem here b memB both.1 both.2
    rw [none, List.nil_append]
    refine List.filter_congr fun b memB => ?_
    by_cases at_b : slot b = s₀
    · simp [at_b]
    · have other := stay b memB at_b
      have apart := free a mem here b memB at_b
      simp [at_b, other, apart]
  · have none : items.filter (fun b => decide (slot b = s₀) && decide (slot' b = s)) = [] := by
      rw [List.filter_eq_nil_iff]
      intro b memB both
      simp only [Bool.and_eq_true, decide_eq_true_eq] at both
      exact goes ⟨b, memB, both⟩
    rw [none, List.append_nil]
    refine List.filter_congr fun b memB => ?_
    by_cases at_b : slot b = s₀
    · have elsewhere : slot' b ≠ s := fun at_s => goes ⟨b, memB, at_b, at_s⟩
      simp [at_b, elsewhere]
    · simp [at_b, stay b memB at_b]

end Holds

end Buckets
