import Mathlib.Data.List.Sort

/-!
`table.sort` of Lua as its manual describes it: it rearranges the list so that no element
is less than one before it. Which of two equal elements comes first is left open.
-/

universe u

/-- The comparison is a strict weak order. -/
structure StrictOrder {α : Type u} (lt : α → α → Bool) : Prop where
  asymm : ∀ a b, lt a b = true → lt b a = false
  trans : ∀ a b c, lt a b = false → lt b c = false → lt a c = false

structure LuaSort where
  sort : {α : Type} → (α → α → Bool) → List α → List α
  perm : ∀ {α : Type} (lt : α → α → Bool) (list : List α), (sort lt list).Perm list
  sorted : ∀ {α : Type} (lt : α → α → Bool), StrictOrder lt → ∀ list,
    (sort lt list).Pairwise fun a b => lt b a = false

namespace LuaSort

/-- A comparison by a key, the greater keys first. -/
theorem strictOrder_key {α : Type u} (key : α → Int) :
    StrictOrder fun l r : α => decide (key r < key l) where
  asymm := by
    intro a b h
    rw [decide_eq_true_eq] at h
    rw [decide_eq_false_iff_not]
    omega
  trans := by
    intro a b c h h'
    rw [decide_eq_false_iff_not] at h h' ⊢
    omega

/-- The keys of the sorted list depend on the elements only. -/
theorem map_key_sort {α : Type} (lua : LuaSort) (key : α → Int) {list list' : List α}
    (same : list.Perm list') :
    (lua.sort (fun l r => decide (key r < key l)) list).map key =
      (lua.sort (fun l r => decide (key r < key l)) list').map key := by
  have falls : ∀ list, ((lua.sort (fun l r => decide (key r < key l)) list).map key).Pairwise
      fun a b : Int => b ≤ a := by
    intro list
    rw [List.pairwise_map]
    apply (lua.sorted _ (strictOrder_key key) list).imp
    intro a b h
    rw [decide_eq_false_iff_not] at h
    omega
  apply List.Perm.eq_of_pairwise _ (falls list) (falls list')
  · exact (((lua.perm _ list).trans same).trans (lua.perm _ list').symm).map key
  · intro a b _ _ h h'
    omega

theorem head_mem {α : Type} (lua : LuaSort) {lt : α → α → Bool} {list : List α} {first : α}
    (h : (lua.sort lt list).head? = some first) : first ∈ list :=
  (lua.perm lt list).mem_iff.1 (List.mem_of_mem_head? h)

theorem head_eq_none_iff {α : Type} (lua : LuaSort) {lt : α → α → Bool} {list : List α} :
    (lua.sort lt list).head? = none ↔ list = [] := by
  rw [List.head?_eq_none_iff, ← List.length_eq_zero_iff, (lua.perm lt list).length_eq,
    List.length_eq_zero_iff]

/-- Sorted by a key, the first element has the greatest one. -/
theorem key_le_head {α : Type} (lua : LuaSort) (key : α → Int) {list : List α} {first : α}
    (h : (lua.sort (fun l r => decide (key r < key l)) list).head? = some first) :
    ∀ other ∈ list, key other ≤ key first := by
  have sorted := lua.sorted _ (strictOrder_key key) list
  intro other mem
  rw [← (lua.perm (fun l r => decide (key r < key l)) list).mem_iff] at mem
  cases order : lua.sort (fun l r => decide (key r < key l)) list with
  | nil =>
      rw [order] at h
      cases h
  | cons head rest =>
      rw [order] at h sorted mem
      cases h
      rcases List.mem_cons.1 mem with rfl | later
      · exact Int.le_refl _
      · have not_above := (List.pairwise_cons.1 sorted).1 other later
        rw [decide_eq_false_iff_not] at not_above
        omega

/-- Insertion sort is such a sort. -/
def insertion : LuaSort where
  sort lt list := list.insertionSort fun a b => lt b a = false
  perm lt list := List.perm_insertionSort _ list
  sorted lt order list := by
    have total : Std.Total fun a b => lt b a = false := ⟨fun a b => by
      cases h : lt b a with
      | false => exact .inl rfl
      | true => exact .inr (order.asymm b a h)⟩
    have trans : IsTrans _ fun a b => lt b a = false :=
      ⟨fun a b c h h' => order.trans c b a h' h⟩
    exact List.pairwise_insertionSort _ list

/-- It leaves the first element at the front, if none is less. -/
theorem insertion_head {α : Type} {lt : α → α → Bool} {first : α} {rest : List α}
    (least : ∀ other ∈ rest, lt other first = false) :
    (insertion.sort lt (first :: rest)).head? = some first := by
  change ((rest.insertionSort fun a b => lt b a = false).orderedInsert
    (fun a b => lt b a = false) first).head? = some first
  cases order : rest.insertionSort fun a b => lt b a = false with
  | nil => rfl
  | cons other more =>
      have mem : other ∈ rest.insertionSort fun a b => lt b a = false := by
        rw [order]
        exact List.mem_cons_self
      rw [(List.perm_insertionSort _ rest).mem_iff] at mem
      rw [List.orderedInsert, if_pos (least other mem)]
      rfl

end LuaSort
