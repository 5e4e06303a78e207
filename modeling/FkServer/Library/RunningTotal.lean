import Mathlib.Algebra.Order.BigOperators.Group.List
import Mathlib.Data.List.Nodup

/-!
A loop that adds to one total at each entry and notes the total it then has. The note at
an entry is what the loop started with, what the entry adds, and what all the entries in
front of it have added.
-/
namespace RunningTotal

universe u v
variable {Entry : Type u} {Amount : Type v} [AddCommMonoid Amount] {add : Entry → Amount}

/-- Each entry with the total after it. -/
def totals (add : Entry → Amount) : Amount → List Entry → List (Entry × Amount)
  | _, [] => []
  | total, i :: rest => (i, total + add i) :: totals add (total + add i) rest

theorem map_fst_totals (total : Amount) (l : List Entry) :
    (totals add total l).map Prod.fst = l := by
  induction l generalizing total with
  | nil => rfl
  | cons i rest ih => rw [totals, List.map_cons, ih]

theorem fst_mem {total : Amount} {l : List Entry} {note : Entry × Amount}
    (h : note ∈ totals add total l) : note.1 ∈ l := by
  have := List.mem_map_of_mem (f := Prod.fst) h
  rwa [map_fst_totals] at this

variable [DecidableEq Entry]

/-- What the entries in front of `i` add. -/
def before (add : Entry → Amount) (l : List Entry) (i : Entry) : Amount :=
  ((l.takeWhile fun j => j ≠ i).map add).sum

theorem before_head (i : Entry) (rest : List Entry) : before add (i :: rest) i = 0 := by
  simp [before]

theorem before_tail {i j : Entry} (other : j ≠ i) (rest : List Entry) :
    before add (j :: rest) i = add j + before add rest i := by
  simp [before, other]

/-- The one note at `i`. -/
theorem filter_totals {l : List Entry} (distinct : l.Nodup) {i : Entry} (here : i ∈ l)
    (total : Amount) :
    (totals add total l).filter (fun note => note.1 = i) = [(i, total + before add l i + add i)] := by
  induction l generalizing total with
  | nil => cases here
  | cons j rest ih =>
      obtain ⟨fresh, distinct⟩ := List.nodup_cons.1 distinct
      by_cases first : j = i
      · subst first
        have gone : (totals add (total + add j) rest).filter (fun note => note.1 = j) = [] := by
          refine List.filter_eq_nil_iff.2 fun note h => ?_
          have := ne_of_mem_of_not_mem (fst_mem h) fresh
          simpa using this
        rw [totals, List.filter_cons_of_pos (by simp), gone, before_head, add_zero]
      · have later : i ∈ rest := (List.mem_cons.1 here).resolve_left (Ne.symm first)
        rw [totals, List.filter_cons_of_neg (by simpa using first), ih distinct later,
          before_tail first, add_assoc total]

/-- Where nothing is ever taken away, nothing is added before `i` only if each entry in front
adds nothing. -/
theorem before_eq_zero_iff [PartialOrder Amount] [IsOrderedAddMonoid Amount]
    (nonneg : ∀ j, 0 ≤ add j) (l : List Entry) (i : Entry) :
    before add l i = 0 ↔ ∀ j ∈ l.takeWhile (fun j => j ≠ i), add j = 0 := by
  constructor
  · intro none_added j front
    refine List.all_zero_of_le_zero_le_of_sum_eq_zero ?_ none_added (List.mem_map_of_mem front)
    intro amount h
    obtain ⟨k, _, rfl⟩ := List.mem_map.1 h
    exact nonneg k
  · intro nothing
    refine List.sum_eq_zero fun amount h => ?_
    obtain ⟨k, front, rfl⟩ := List.mem_map.1 h
    exact nothing k front

end RunningTotal
