import Mathlib.Algebra.Order.BigOperators.Group.List
import Mathlib.Algebra.Order.Group.Nat
import Mathlib.Algebra.GroupWithZero.Nat

/-!
What the tasks of a system hold of a resource, counted over all tasks. A task that goes on gives
up its old share for its new one.
-/
namespace Shares

universe u
variable {Task : Type u} {f : Task → Nat} {tasks : List Task} {i j : Nat} {t t' : Task}

def total (share : Task → Nat) (tasks : List Task) : Nat := (tasks.map share).sum

@[simp] theorem total_append (tasks' : List Task) :
    total f (tasks ++ tasks') = total f tasks + total f tasks' := by
  rw [total, List.map_append, List.sum_append]
  rfl

@[simp] theorem total_singleton : total f [t] = f t := by
  rw [total, List.map_singleton, List.sum_singleton]

theorem total_set (at_i : tasks[i]? = some t) (t' : Task) :
    total f (tasks.set i t') + f t = total f tasks + f t' := by
  induction tasks generalizing i with
  | nil => simp at at_i
  | cons first tasks ih =>
      cases i with
      | zero =>
          simp only [List.getElem?_cons_zero, Option.some.injEq] at at_i
          simp only [total, List.set_cons_zero, List.map_cons, List.sum_cons, at_i]
          omega
      | succ i =>
          have rest := ih (by simpa using at_i)
          simp only [total, List.set_cons_succ, List.map_cons, List.sum_cons] at rest ⊢
          omega

theorem total_le {g : Task → Nat} (le : ∀ t, f t ≤ g t) :
    total f tasks ≤ total g tasks :=
  List.sum_le_sum fun t _ => le t

theorem total_add (f g : Task → Nat) :
    total (fun t => f t + g t) tasks = total f tasks + total g tasks :=
  List.sum_map_add

theorem share_le_total (at_i : tasks[i]? = some t) : f t ≤ total f tasks :=
  List.le_sum_of_mem (List.mem_map_of_mem (List.mem_of_getElem? at_i))

theorem exists_of_total_pos (some : 0 < total f tasks) : ∃ t ∈ tasks, 0 < f t := by
  obtain ⟨_, mem, positive⟩ := List.sum_pos_iff_exists_pos_nat.1 some
  obtain ⟨t, member, rfl⟩ := List.mem_map.1 mem
  exact ⟨t, member, positive⟩

/-- Two tasks hold no more than all. -/
theorem share_add_le_total (at_i : tasks[i]? = some t) (at_j : tasks[j]? = some t')
    (apart : i ≠ j) : f t + f t' ≤ total f tasks := by
  induction tasks generalizing i j with
  | nil => simp at at_i
  | cons first tasks ih =>
      rw [total, List.map_cons, List.sum_cons, ← total]
      cases i with
      | zero =>
          cases j with
          | zero => exact absurd rfl apart
          | succ j =>
              have other := share_le_total (f := f) (by simpa using at_j : tasks[j]? = some t')
              simp only [List.getElem?_cons_zero, Option.some.injEq] at at_i
              rw [at_i]
              omega
      | succ i =>
          cases j with
          | zero =>
              have other := share_le_total (f := f) (by simpa using at_i : tasks[i]? = some t)
              simp only [List.getElem?_cons_zero, Option.some.injEq] at at_j
              rw [at_j]
              omega
          | succ j =>
              have rest := ih (i := i) (j := j) (by simpa using at_i) (by simpa using at_j) (by omega)
              omega

end Shares
