import Mathlib.Data.List.Basic
import Mathlib.Data.List.Nodup
import Mathlib.Algebra.Ring.Int.Defs

/-!
Tables of counts with `table.incr`, `table.decr` and `table.sum` of `common/functions`,
and the list of tiles the rules of each game make of one. A table of counts is a function,
zero for a missing entry; its values are integers because the source decrements them
without looking. Last `table.slice`, which answers with a list only for two entries or more.
-/
namespace FkServer

/-- Only the entry at `i` changes. -/
def alter {α : Type} (f : Nat → α) (i : Nat) (g : α → α) : Nat → α :=
  fun j => if j = i then g (f j) else f j

@[simp] theorem alter_self {α : Type} (f : Nat → α) (i : Nat) (g : α → α) :
    alter f i g i = g (f i) := if_pos rfl

theorem alter_of_ne {α : Type} {f : Nat → α} {i j : Nat} {g : α → α} (h : j ≠ i) :
    alter f i g j = f j := if_neg h

theorem alter_add_zero (f : Nat → Nat) (i : Nat) : alter f i (· + 0) = f := by
  funext j
  by_cases here : j = i <;> simp [alter, here]

theorem alter_add_add (f : Nat → Nat) (i m n : Nat) :
    alter (alter f i (· + m)) i (· + n) = alter f i (· + (n + m)) := by
  funext j
  by_cases here : j = i
  · simp [alter, here]
    omega
  · simp [alter, here]

abbrev Counts := Nat → Int

/-- `table.incr(counts,tile,n)` -/
def incr (counts : Counts) (tile : Nat) (n : Int) : Counts :=
  fun t => if t = tile then counts t + n else counts t

/-- `table.decr(counts,tile,n)` -/
def decr (counts : Counts) (tile : Nat) (n : Int) : Counts :=
  fun t => if t = tile then counts t - n else counts t

theorem incr_apply (counts : Counts) (tile t : Nat) (n : Int) :
    incr counts tile n t = counts t + if t = tile then n else 0 := by
  unfold incr
  split <;> simp

theorem decr_apply (counts : Counts) (tile t : Nat) (n : Int) :
    decr counts tile n t = counts t - if t = tile then n else 0 := by
  unfold decr
  split <;> simp

/-- `counts_2_tiles`, over the entries 1 to 50 in which a hand is copied. -/
def counts2Tiles (counts : Counts) : List Nat :=
  (List.range' 1 50).flatMap fun tile => List.replicate (counts tile).toNat tile

private theorem count_flatMap_replicate (l : List Nat) (distinct : l.Nodup) (n : Nat → Nat)
    (t : Nat) :
    (l.flatMap fun tile => List.replicate (n tile) tile).count t = if t ∈ l then n t else 0 := by
  induction l with
  | nil => simp
  | cons x l ih =>
      obtain ⟨fresh, distinct⟩ := List.nodup_cons.1 distinct
      rw [List.flatMap_cons, List.count_append, ih distinct, List.count_replicate]
      by_cases h : t = x
      · subst h
        simp [fresh]
      · simp [h, Ne.symm h]

theorem count_counts2Tiles (counts : Counts) (t : Nat) :
    (counts2Tiles counts).count t = if 1 ≤ t ∧ t ≤ 50 then (counts t).toNat else 0 := by
  rw [counts2Tiles,
    count_flatMap_replicate _ List.nodup_range' (fun tile => (counts tile).toNat) t]
  simp only [List.mem_range'_1, Nat.lt_succ_iff]

theorem mem_counts2Tiles {counts : Counts} {t : Nat} :
    t ∈ counts2Tiles counts ↔ (1 ≤ t ∧ t ≤ 50) ∧ 0 < counts t := by
  rw [← List.one_le_count_iff, count_counts2Tiles]
  by_cases inside : 1 ≤ t ∧ t ≤ 50
  · rw [if_pos inside, and_iff_right inside]
    omega
  · rw [if_neg inside]
    exact iff_of_false (by decide) fun h => inside h.1

/-- Tables that differ by the tiles of `b`. -/
theorem counts2Tiles_perm_append {counts counts' : Counts} {b : List Nat}
    (inside : ∀ t ∈ b, 1 ≤ t ∧ t ≤ 50)
    (diff : ∀ t, 1 ≤ t ∧ t ≤ 50 → (counts t).toNat = b.count t + (counts' t).toNat) :
    (counts2Tiles counts).Perm (b ++ counts2Tiles counts') := by
  refine List.perm_iff_count.2 fun t => ?_
  rw [List.count_append, count_counts2Tiles, count_counts2Tiles]
  split
  · rename_i h
    exact diff t h
  · rename_i h
    rw [List.count_eq_zero_of_not_mem fun mem => h (inside t mem)]

theorem counts2Tiles_decr {counts : Counts} {t : Nat} (inside : 1 ≤ t ∧ t ≤ 50)
    (held : 0 < counts t) : (counts2Tiles counts).Perm (t :: counts2Tiles (decr counts t 1)) := by
  refine counts2Tiles_perm_append (b := [t]) (fun x hx => ?_) fun x _ => ?_
  · rwa [List.mem_singleton.1 hx]
  · rw [List.count_singleton, decr_apply]
    by_cases h : x = t
    · subst h
      simp
      omega
    · simp [h, Ne.symm h]

/-- Taking from an empty entry takes no tile. -/
theorem counts2Tiles_decr_of_not_pos {counts : Counts} {t : Nat} (empty : counts t ≤ 0) :
    (counts2Tiles (decr counts t 1)).Perm (counts2Tiles counts) := by
  refine counts2Tiles_perm_append (b := []) (by simp) fun x _ => ?_
  rw [decr_apply]
  by_cases h : x = t
  · subst h
    simp
    omega
  · simp [h]

theorem counts2Tiles_incr {counts : Counts} {t : Nat} (inside : 1 ≤ t ∧ t ≤ 50)
    (held : 0 ≤ counts t) : (counts2Tiles (incr counts t 1)).Perm (t :: counts2Tiles counts) := by
  refine counts2Tiles_perm_append (b := [t]) (fun x hx => ?_) fun x _ => ?_
  · rwa [List.mem_singleton.1 hx]
  · rw [List.count_singleton, incr_apply]
    by_cases h : x = t
    · subst h
      simp
      omega
    · simp [h, Ne.symm h]

/-- `table.sum(counts)` -/
def totalCount (counts : Counts) : Int :=
  ((List.range' 1 50).map counts).sum

/-- A sum over the table after `n` more tiles `t`. -/
theorem sum_map_incr (f : Int → Int) (counts : Counts) (l : List Nat) (distinct : l.Nodup)
    (t : Nat) (n : Int) :
    (l.map fun z => f (incr counts t n z)).sum =
      (l.map fun z => f (counts z)).sum +
        if t ∈ l then f (counts t + n) - f (counts t) else 0 := by
  induction l with
  | nil => simp
  | cons z l ih =>
      obtain ⟨fresh, distinct⟩ := List.nodup_cons.1 distinct
      rw [List.map_cons, List.map_cons, List.sum_cons, List.sum_cons, ih distinct, incr_apply]
      by_cases h : z = t
      · subst h
        simp [fresh]
        omega
      · simp [h, Ne.symm h]
        omega

theorem totalCount_incr (counts : Counts) {t : Nat} (inside : t ∈ List.range' 1 50) (n : Int) :
    totalCount (incr counts t n) = totalCount counts + n := by
  have sum := sum_map_incr id counts (List.range' 1 50) List.nodup_range' t n
  rw [if_pos inside] at sum
  have total : totalCount (incr counts t n) = totalCount counts + (counts t + n - counts t) := sum
  rw [total]
  omega

theorem totalCount_decr (counts : Counts) {t : Nat} (inside : t ∈ List.range' 1 50) (n : Int) :
    totalCount (decr counts t n) = totalCount counts - n := by
  have same : decr counts t n = incr counts t (-n) := by
    funext x
    rw [decr_apply, incr_apply]
    split <;> omega
  rw [same, totalCount_incr counts inside]
  omega

/-! ### Slices -/

/-- What `table.slice` answers: nil, a single entry or a new list. -/
inductive Slice (α : Type)
  | none
  | entry (v : Option α)
  | list (l : List α)
deriving DecidableEq

/-- `tb[i]` of a list -/
def entryAt {α : Type} (tb : List α) (i : Int) : Option α :=
  if 0 < i then tb[(i - 1).toNat]? else none

/-- `table.slice(tb,head,trail)`; `table.insert` of nil inserts nothing. -/
def slice {α : Type} (tb : List α) (head : Int) (trail : Option Int) : Slice α :=
  let trail := trail.getD tb.length
  if trail < head then .none
  else if head = trail then .entry (entryAt tb head)
  else .list ((List.range (trail - head + 1).toNat).filterMap fun i : Nat => entryAt tb (head + i))

theorem filterMap_range_getElem? {α : Type} (tb : List α) (n : Nat) :
    ((List.range n).filterMap fun i => tb[i]?) = tb.take n := by
  induction n with
  | zero => rfl
  | succ n ih =>
      rw [List.range_succ, List.filterMap_append, ih, List.take_add_one]
      cases entry : tb[n]? <;> simp [entry]

/-- A slice from the first entry on is the list of the entries from two entries on. -/
theorem slice_one_iff {α : Type} (tb : List α) (trail : Option Int) :
    slice tb 1 trail = .list (tb.take (trail.getD tb.length).toNat) ↔
      2 ≤ trail.getD tb.length := by
  unfold slice
  dsimp only
  generalize trail.getD tb.length = n
  split
  · exact iff_of_false nofun (by omega)
  · split
    · exact iff_of_false nofun (by omega)
    · refine iff_of_true ?_ (by omega)
      have entries : (fun i : Nat => entryAt tb (1 + i)) = fun i => tb[i]? := by
        funext i
        have place : (1 + (i : Int) - 1).toNat = i := by omega
        rw [entryAt, if_pos (by omega), place]
      rw [entries, filterMap_range_getElem?]
      congr 2
      omega

end FkServer
