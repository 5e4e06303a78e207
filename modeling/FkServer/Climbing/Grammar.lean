import FkServer.Climbing.Cards
import Mathlib.Algebra.BigOperators.Group.List.Lemmas
import Mathlib.Data.List.Perm.Subperm
import Mathlib.Algebra.GroupWithZero.Nat

/-!
How the cards of a discard are made up: values that occur a number of times, runs of values,
and what the scan for the longest run keeps of the values it is given.
-/
namespace FkServer.Climbing

/-! ### Values by number -/

/-- The cards are each of the values `vs` `a` times and each of the values `ws` `b` times. -/
structure Consists (keys : List Int) (a : Nat) (vs : List Int) (b : Nat) (ws : List Int) : Prop where
  distinct : (vs ++ ws).Nodup
  perm : keys.Perm (vs.flatMap (List.replicate a) ++ ws.flatMap (List.replicate b))

/-- Every value occurs `a` times or `b` times. -/
def Only (keys : List Int) (a b : Nat) : Prop :=
  ∀ v ∈ keys, keys.count v = a ∨ keys.count v = b

/-- Cards from a deck have a value at most as often as the deck has one. -/
theorem count_value_le {deck cards : List Int} {most : Nat} (distinct : cards.Nodup)
    (dealt : cards ⊆ deck) (bound : ∀ v ∈ deck.map value, (deck.map value).count v ≤ most) (v : Int) :
    (cards.map value).count v ≤ most := by
  have inside : (cards.map value).Subperm (deck.map value) := by
    obtain ⟨part, same, within⟩ := List.subperm_of_subset distinct dealt
    exact ⟨part.map value, same.map value, within.map value⟩
  apply (inside.count_le v).trans
  by_cases known : v ∈ deck.map value
  · exact bound v known
  · rw [List.count_eq_zero.2 known]
    exact Nat.zero_le most

theorem mem_valuesOf {keys : List Int} {n : Nat} (pos : 0 < n) {v : Int} :
    v ∈ valuesOf keys n ↔ keys.count v = n := by
  unfold valuesOf
  rw [List.mem_filter, List.mem_dedup, decide_eq_true_eq]
  constructor
  · intro h
    exact h.2
  · intro times
    exact ⟨List.count_pos_iff.1 (times ▸ pos), times⟩

theorem valuesOf_nodup (keys : List Int) (n : Nat) : (valuesOf keys n).Nodup :=
  (List.nodup_dedup keys).filter _

theorem countCounts_pos {keys : List Int} {n : Nat} (pos : 0 < n) {v : Int} (times : keys.count v = n) :
    0 < countCounts keys n :=
  List.length_pos_of_mem ((mem_valuesOf pos).2 times)

section First

variable {keys : List Int} {pairs : List Int → List Int}
  (same : ∀ values, (pairs values).Perm values)

include same

theorem countValue_count {n : Nat} (pos : 0 < n)
    (some_value : 0 < countCounts keys n) : keys.count (countValue pairs keys n) = n := by
  have perm := same (valuesOf keys n)
  unfold countValue
  cases order : pairs (valuesOf keys n) with
  | nil =>
      rw [order] at perm
      rw [countCounts, ← perm.length_eq] at some_value
      cases some_value
  | cons v rest =>
      rw [order] at perm
      exact (mem_valuesOf pos).1 (perm.subset List.mem_cons_self)

theorem countValue_eq {n : Nat} (pos : 0 < n) {v : Int}
    (one : countCounts keys n = 1) (times : keys.count v = n) : countValue pairs keys n = v := by
  have there := countValue_count same pos (by omega : 0 < countCounts keys n)
  obtain ⟨only, single⟩ := List.length_eq_one_iff.1 one
  have alone : ∀ u, keys.count u = n → u = only := by
    intro u count
    have mem := (mem_valuesOf pos).2 count
    rw [single] at mem
    exact List.mem_singleton.1 mem
  rw [alone _ there, alone v times]

end First

theorem count_flatMap {values : List Int} (distinct : values.Nodup) (times : Int → Nat) (v : Int) :
    (values.flatMap fun x => List.replicate (times x) x).count v =
      if v ∈ values then times v else 0 := by
  induction values with
  | nil => simp
  | cons x values ih =>
      obtain ⟨fresh, distinct⟩ := List.nodup_cons.1 distinct
      rw [List.flatMap_cons, List.count_append, ih distinct, List.count_replicate]
      by_cases same : v = x
      · rw [same]
        simp [fresh]
      · simp [same, Ne.symm same]

theorem flatMap_each {values : List Int} {times : Int → Nat} {n : Nat}
    (same : ∀ v ∈ values, times v = n) :
    (values.flatMap fun v => List.replicate (times v) v) = values.flatMap (List.replicate n) := by
  apply List.flatMap_congr
  intro v mem
  rw [same v mem]

theorem count_each {values : List Int} (distinct : values.Nodup) (n : Nat) (v : Int) :
    (values.flatMap (List.replicate n)).count v = if v ∈ values then n else 0 :=
  count_flatMap distinct (fun _ => n) v

theorem consists_iff {keys : List Int} {a b : Nat} (a_pos : 0 < a) (b_pos : 0 < b) (differ : a ≠ b)
    (vs ws : List Int) :
    Consists keys a vs b ws ↔
      vs.Perm (valuesOf keys a) ∧ ws.Perm (valuesOf keys b) ∧ Only keys a b := by
  constructor
  · rintro ⟨distinct, perm⟩
    obtain ⟨vs_distinct, ws_distinct, disjoint⟩ := List.nodup_append.1 distinct
    have count : ∀ v, keys.count v = (if v ∈ vs then a else 0) + if v ∈ ws then b else 0 := by
      intro v
      rw [perm.count_eq, List.count_append, count_each vs_distinct, count_each ws_distinct]
    refine ⟨?_, ?_, ?_⟩
    · apply (List.perm_ext_iff_of_nodup vs_distinct (valuesOf_nodup keys a)).2
      intro v
      rw [mem_valuesOf a_pos, count]
      by_cases first : v ∈ vs
      · have not_second : v ∉ ws := fun second => disjoint v first v second rfl
        simp [first, not_second]
      · simp only [first, if_false, Nat.zero_add, false_iff]
        split <;> omega
    · apply (List.perm_ext_iff_of_nodup ws_distinct (valuesOf_nodup keys b)).2
      intro v
      rw [mem_valuesOf b_pos, count]
      by_cases second : v ∈ ws
      · have not_first : v ∉ vs := fun first => disjoint v first v second rfl
        simp [second, not_first]
      · simp only [second, if_false, Nat.add_zero, false_iff]
        split <;> omega
    · intro v mem
      have pos := List.count_pos_iff.2 mem
      rw [count] at pos ⊢
      by_cases first : v ∈ vs
      · have not_second : v ∉ ws := fun second => disjoint v first v second rfl
        simp [first, not_second]
      · simp only [first, if_false, Nat.zero_add] at pos ⊢
        split at pos
        · rename_i second
          exact .inr (if_pos second)
        · omega
  · rintro ⟨firsts, seconds, only⟩
    have vs_distinct := firsts.nodup_iff.2 (valuesOf_nodup keys a)
    have ws_distinct := seconds.nodup_iff.2 (valuesOf_nodup keys b)
    constructor
    · refine List.nodup_append.2 ⟨vs_distinct, ws_distinct, ?_⟩
      rintro v first w second rfl
      rw [firsts.mem_iff, mem_valuesOf a_pos] at first
      rw [seconds.mem_iff, mem_valuesOf b_pos] at second
      exact differ (first.symm.trans second)
    · apply List.perm_iff_count.2
      intro v
      rw [List.count_append, count_each vs_distinct, count_each ws_distinct]
      simp only [firsts.mem_iff, seconds.mem_iff, mem_valuesOf a_pos, mem_valuesOf b_pos]
      by_cases mem : v ∈ keys
      · rcases only v mem with times | times
        · rw [times, if_pos rfl, if_neg differ, Nat.add_zero]
        · rw [times, if_neg (Ne.symm differ), if_pos rfl, Nat.zero_add]
      · rw [List.count_eq_zero.2 mem, if_neg (by omega), if_neg (by omega)]

/-- The values that occur `a` times are the ones the cards are made of. -/
theorem Consists.count_iff {keys : List Int} {a b : Nat} {vs ws : List Int}
    (made : Consists keys a vs b ws) (a_pos : 0 < a) (b_pos : 0 < b) (differ : a ≠ b) {v : Int} :
    keys.count v = a ↔ v ∈ vs := by
  rw [← mem_valuesOf a_pos]
  exact ((consists_iff a_pos b_pos differ vs ws).1 made).1.mem_iff.symm

theorem Consists.counts {keys : List Int} {a b : Nat} {vs ws : List Int}
    (made : Consists keys a vs b ws) (a_pos : 0 < a) (b_pos : 0 < b) (differ : a ≠ b) :
    countCounts keys a = vs.length ∧ countCounts keys b = ws.length := by
  obtain ⟨firsts, seconds, _⟩ := (consists_iff a_pos b_pos differ vs ws).1 made
  exact ⟨firsts.length_eq.symm, seconds.length_eq.symm⟩

/-- The number of cards from the number of values that occur once, twice and so on. -/
theorem length_eq_counts {keys : List Int} (four : ∀ v, keys.count v ≤ 4) :
    keys.length = countCounts keys 1 + 2 * countCounts keys 2 + 3 * countCounts keys 3 +
      4 * countCounts keys 4 := by
  have all : ∀ values : List Int, (∀ v ∈ values, v ∈ keys) →
      (values.map keys.count).sum = (values.filter fun v => keys.count v = 1).length +
        2 * (values.filter fun v => keys.count v = 2).length +
        3 * (values.filter fun v => keys.count v = 3).length +
        4 * (values.filter fun v => keys.count v = 4).length := by
    intro values inside
    induction values with
    | nil => rfl
    | cons v values ih =>
        have rest := ih fun w mem => inside w (List.mem_cons_of_mem v mem)
        have low := List.count_pos_iff.2 (inside v List.mem_cons_self)
        have high := four v
        rw [List.map_cons, List.sum_cons, rest]
        simp only [List.filter_cons, decide_eq_true_eq]
        have times : keys.count v = 1 ∨ keys.count v = 2 ∨ keys.count v = 3 ∨ keys.count v = 4 := by
          omega
        rcases times with one | two | three | four
        · simp [one]
          omega
        · simp [two]
          omega
        · simp [three]
          omega
        · simp [four]
          omega
  rw [← List.sum_map_count_dedup_eq_length keys]
  exact all keys.dedup fun v mem => List.mem_dedup.1 mem

/-! ### Runs -/

/-- The `n` values from `low` on. -/
def run (low : Int) (n : Nat) : List Int := (List.range n).map fun i : Nat => low + i

/-- Values in a row, from the three to the ace. -/
def Run (values : List Int) : Prop :=
  ∃ (low : Int) (n : Nat), 3 ≤ low ∧ low + n ≤ 15 ∧ values.Perm (run low n)

theorem mem_run {low v : Int} {n : Nat} : v ∈ run low n ↔ low ≤ v ∧ v < low + n := by
  unfold run
  rw [List.mem_map]
  constructor
  · rintro ⟨i, mem, rfl⟩
    have := List.mem_range.1 mem
    omega
  · intro within
    exact ⟨(v - low).toNat, List.mem_range.2 (by omega), by omega⟩

theorem run_nodup (low : Int) (n : Nat) : (run low n).Nodup := by
  apply List.nodup_range.map
  intro i j same
  simp only at same
  omega

@[simp] theorem run_length (low : Int) (n : Nat) : (run low n).length = n := by
  rw [run, List.length_map, List.length_range]

theorem run_cons (low : Int) (n : Nat) : run low (n + 1) = low :: run (low + 1) n := by
  unfold run
  rw [List.range_succ_eq_map, List.map_cons, List.map_map]
  congr 1
  · simp
  · apply List.map_congr_left
    intro j _
    simp
    omega

theorem run_succ (low : Int) (n : Nat) : run low (n + 1) = run low n ++ [low + n] := by
  unfold run
  rw [List.range_succ, List.map_append]
  rfl

theorem run_head (low : Int) (n : Nat) : (run low (n + 1)).head? = some low := by
  rw [run_cons, List.head?_cons]

theorem Run.perm {values values' : List Int} (row : Run values) (same : values.Perm values') :
    Run values' := by
  obtain ⟨low, n, above, below, line⟩ := row
  exact ⟨low, n, above, below, same.symm.trans line⟩

/-! ### Combinations by their numbers of values -/

section Shapes

variable {keys : List Int} {a b : Nat}

theorem only_iff (four : ∀ v, keys.count v ≤ 4) (a b : Nat) : Only keys a b ↔
    ∀ n ∈ [1, 2, 3, 4], n ≠ a → n ≠ b → countCounts keys n = 0 := by
  constructor
  · intro only n pos not_a not_b
    have positive : 0 < n := by
      simp only [List.mem_cons, List.not_mem_nil, or_false] at pos
      omega
    rw [countCounts, List.length_eq_zero_iff, List.eq_nil_iff_forall_not_mem]
    intro v mem
    rw [mem_valuesOf positive] at mem
    rcases only v (List.count_pos_iff.1 (mem ▸ positive)) with times | times
    · exact not_a (mem.symm.trans times)
    · exact not_b (mem.symm.trans times)
  · intro none v mem
    by_contra other
    have pos := List.count_pos_iff.2 mem
    have high := four v
    have listed : keys.count v ∈ [1, 2, 3, 4] := by
      simp only [List.mem_cons, List.not_mem_nil, or_false]
      omega
    have empty := none (keys.count v) listed (fun same => other (.inl same))
      (fun same => other (.inr same))
    rw [countCounts, List.length_eq_zero_iff] at empty
    have there := (mem_valuesOf pos).2 (rfl : keys.count v = keys.count v)
    rw [empty] at there
    cases there

variable (a_pos : 0 < a) (b_pos : 0 < b) (differ : a ≠ b)
include a_pos b_pos differ

theorem exists_consists_iff (p : List Int → List Int → Prop)
    (stable : ∀ vs vs' ws ws' : List Int, vs.Perm vs' → ws.Perm ws' → p vs ws → p vs' ws') :
    (∃ vs ws, p vs ws ∧ Consists keys a vs b ws) ↔
      p (valuesOf keys a) (valuesOf keys b) ∧ Only keys a b := by
  constructor
  · rintro ⟨vs, ws, holds, made⟩
    obtain ⟨firsts, seconds, only⟩ := (consists_iff a_pos b_pos differ vs ws).1 made
    exact ⟨stable vs _ ws _ firsts seconds holds, only⟩
  · rintro ⟨holds, only⟩
    exact ⟨_, _, holds, (consists_iff a_pos b_pos differ _ _).2 ⟨.refl _, .refl _, only⟩⟩

theorem one_iff : (∃ v, Consists keys a [v] b []) ↔
    (countCounts keys a = 1 ∧ countCounts keys b = 0) ∧ Only keys a b := by
  unfold countCounts
  rw [← exists_consists_iff a_pos b_pos differ fun vs ws => vs.length = 1 ∧ ws.length = 0]
  · constructor
    · rintro ⟨v, made⟩
      exact ⟨[v], [], ⟨rfl, rfl⟩, made⟩
    · rintro ⟨vs, ws, ⟨one, none⟩, made⟩
      obtain ⟨v, rfl⟩ := List.length_eq_one_iff.1 one
      rw [List.length_eq_zero_iff.1 none] at made
      exact ⟨v, made⟩
  · intro vs vs' ws ws' first second
    rw [first.length_eq, second.length_eq]
    exact id

theorem one_with_one_iff : (∃ v w, Consists keys a [v] b [w]) ↔
    (countCounts keys a = 1 ∧ countCounts keys b = 1) ∧ Only keys a b := by
  unfold countCounts
  rw [← exists_consists_iff a_pos b_pos differ fun vs ws => vs.length = 1 ∧ ws.length = 1]
  · constructor
    · rintro ⟨v, w, made⟩
      exact ⟨[v], [w], ⟨rfl, rfl⟩, made⟩
    · rintro ⟨vs, ws, ⟨one, another⟩, made⟩
      obtain ⟨v, rfl⟩ := List.length_eq_one_iff.1 one
      obtain ⟨w, rfl⟩ := List.length_eq_one_iff.1 another
      exact ⟨v, w, made⟩
  · intro vs vs' ws ws' first second
    rw [first.length_eq, second.length_eq]
    exact id

theorem one_with_two_iff : (∃ v w x, Consists keys a [v] b [w, x]) ↔
    (countCounts keys a = 1 ∧ countCounts keys b = 2) ∧ Only keys a b := by
  unfold countCounts
  rw [← exists_consists_iff a_pos b_pos differ fun vs ws => vs.length = 1 ∧ ws.length = 2]
  · constructor
    · rintro ⟨v, w, x, made⟩
      exact ⟨[v], [w, x], ⟨rfl, rfl⟩, made⟩
    · rintro ⟨vs, ws, ⟨one, two⟩, made⟩
      obtain ⟨v, rfl⟩ := List.length_eq_one_iff.1 one
      obtain ⟨w, x, rfl⟩ := List.length_eq_two.1 two
      exact ⟨v, w, x, made⟩
  · intro vs vs' ws ws' first second
    rw [first.length_eq, second.length_eq]
    exact id

theorem line_iff (k : Nat) : (∃ line, Run line ∧ k ≤ line.length ∧ Consists keys a line b []) ↔
    (Run (valuesOf keys a) ∧ k ≤ countCounts keys a ∧ countCounts keys b = 0) ∧ Only keys a b := by
  unfold countCounts
  rw [← exists_consists_iff a_pos b_pos differ fun vs ws =>
    Run vs ∧ k ≤ vs.length ∧ ws.length = 0]
  · constructor
    · rintro ⟨line, row, long, made⟩
      exact ⟨line, [], ⟨row, long, rfl⟩, made⟩
    · rintro ⟨line, ws, ⟨row, long, none⟩, made⟩
      rw [List.length_eq_zero_iff.1 none] at made
      exact ⟨line, row, long, made⟩
  · intro vs vs' ws ws' first second
    rw [first.length_eq, second.length_eq]
    exact fun h => ⟨h.1.perm first, h.2⟩

theorem line_with_iff (k : Nat) :
    (∃ line kickers, Run line ∧ k ≤ line.length ∧ kickers.length = line.length ∧
        Consists keys a line b kickers) ↔
      (Run (valuesOf keys a) ∧ k ≤ countCounts keys a ∧ countCounts keys b = countCounts keys a) ∧
        Only keys a b := by
  unfold countCounts
  rw [← exists_consists_iff a_pos b_pos differ fun vs ws =>
    Run vs ∧ k ≤ vs.length ∧ ws.length = vs.length]
  · constructor
    · rintro ⟨line, kickers, row, long, many, made⟩
      exact ⟨line, kickers, ⟨row, long, many⟩, made⟩
    · rintro ⟨line, kickers, ⟨row, long, many⟩, made⟩
      exact ⟨line, kickers, row, long, many, made⟩
  · intro vs vs' ws ws' first second
    rw [first.length_eq, second.length_eq]
    exact fun h => ⟨h.1.perm first, h.2⟩

end Shapes

/-- The cards are each of the values in a row `n` times. -/
theorem each_iff {n : Nat} (pos : 0 < n) {keys row : List Int} (distinct : row.Nodup) :
    keys.Perm (row.flatMap (List.replicate n)) ↔
      row.Perm (valuesOf keys n) ∧ ∀ v ∈ keys, keys.count v = n := by
  constructor
  · intro perm
    have count : ∀ v, keys.count v = if v ∈ row then n else 0 := by
      intro v
      rw [perm.count_eq, count_each distinct]
    constructor
    · apply (List.perm_ext_iff_of_nodup distinct (valuesOf_nodup keys n)).2
      intro v
      rw [mem_valuesOf pos, count]
      split <;> simp_all
      omega
    · intro v mem
      have some_card := List.count_pos_iff.2 mem
      rw [count] at some_card ⊢
      split at some_card
      · rename_i there
        exact if_pos there
      · cases some_card
  · rintro ⟨values, all⟩
    apply List.perm_iff_count.2
    intro v
    have there := values.mem_iff.trans (mem_valuesOf pos (v := v))
    rw [count_each distinct]
    split
    · rename_i mem
      exact there.1 mem
    · rename_i other
      apply List.count_eq_zero.2
      exact fun mem => other (there.2 (all v mem))

/-- A value that occurs `n` times, and the other cards. -/
theorem exists_rest {keys : List Int} {v : Int} {n : Nat} (enough : n ≤ keys.count v) :
    ∃ rest, keys.Perm (List.replicate n v ++ rest) :=
  (List.replicate_sublist_iff.2 enough).exists_perm_append

/-! ### Filling up a row -/

theorem mul_length_le_sum {values : List Int} {f : Int → Nat} {c : Nat}
    (low : ∀ v ∈ values, c ≤ f v) : c * values.length ≤ (values.map f).sum := by
  induction values with
  | nil => exact Nat.zero_le _
  | cons v values ih =>
      have first := low v List.mem_cons_self
      have rest := ih fun w mem => low w (List.mem_cons_of_mem v mem)
      rw [List.map_cons, List.sum_cons, List.length_cons, Nat.mul_succ]
      omega

theorem eq_of_sum_le {values : List Int} {f : Int → Nat} {c : Nat} (low : ∀ v ∈ values, c ≤ f v)
    (high : (values.map f).sum ≤ c * values.length) : ∀ v ∈ values, f v = c := by
  induction values with
  | nil => exact fun v mem => absurd mem List.not_mem_nil
  | cons v values ih =>
      have first := low v List.mem_cons_self
      have later : ∀ w ∈ values, c ≤ f w := fun w mem => low w (List.mem_cons_of_mem v mem)
      have rest := mul_length_le_sum later
      rw [List.map_cons, List.sum_cons, List.length_cons, Nat.mul_succ] at high
      intro w mem
      rcases List.mem_cons.1 mem with rfl | mem
      · omega
      · exact ih later (by omega) w mem

/-- The values of a row take up as many elements as there are of them. -/
theorem sum_count_eq {row : List Int} (distinct : row.Nodup) (values : List Int) :
    (row.map values.count).sum = (values.filter fun v => v ∈ row).length := by
  induction row with
  | nil => simp
  | cons x row ih =>
      obtain ⟨fresh, distinct⟩ := List.nodup_cons.1 distinct
      rw [List.map_cons, List.sum_cons, ih distinct]
      clear ih
      induction values with
      | nil => rfl
      | cons v values ih =>
          rw [List.count_cons]
          by_cases same : v = x
          · subst same
            simp [fresh] at ih ⊢
            omega
          · by_cases there : v ∈ row
            · simp [same, there] at ih ⊢
              omega
            · simp [same, there] at ih ⊢
              omega

/-- A row of `copies` cards of each value from the values there are and at most `remain` others
uses all of them, if that many cards are in it. -/
theorem filled_row {row values : List Int} (distinct : row.Nodup) {need : Int → Nat}
    {copies remain : Nat} (enough : ∀ v ∈ row, copies ≤ values.count v + need v)
    (few : (row.map need).sum ≤ remain) (all : copies * row.length = values.length + remain) :
    (values ++ row.flatMap fun v => List.replicate (need v) v).Perm
        (row.flatMap (List.replicate copies)) ∧
      (row.flatMap fun v => List.replicate (need v) v).length = remain := by
  have used := sum_count_eq distinct values
  have at_most : (values.filter fun v => v ∈ row).length ≤ values.length := List.length_filter_le _ _
  have both : (row.map fun v => values.count v + need v).sum =
      (row.map values.count).sum + (row.map need).sum := List.sum_map_add
  have low := mul_length_le_sum enough
  have exact_ : ∀ v ∈ row, values.count v + need v = copies :=
    eq_of_sum_le enough (by omega)
  have inside : ∀ v ∈ values, v ∈ row := by
    have same : (values.filter fun v => v ∈ row).length = values.length := by omega
    intro v mem
    exact of_decide_eq_true (List.length_filter_eq_length_iff.1 same v mem)
  constructor
  · apply List.perm_iff_count.2
    intro v
    have fillers : ∀ row : List Int, row.Nodup →
        (row.flatMap fun v => List.replicate (need v) v).count v = if v ∈ row then need v else 0 := by
      intro row distinct
      induction row with
      | nil => simp
      | cons x row ih =>
          obtain ⟨fresh, distinct⟩ := List.nodup_cons.1 distinct
          rw [List.flatMap_cons, List.count_append, ih distinct, List.count_replicate]
          by_cases same : v = x
          · rw [same]
            simp [fresh]
          · simp [same, Ne.symm same]
    rw [List.count_append, fillers row distinct, count_each distinct]
    split
    · rename_i there
      exact exact_ v there
    · rename_i missing
      rw [List.count_eq_zero.2 fun mem => missing (inside v mem)]
  · rw [List.length_flatMap]
    simp only [List.length_replicate]
    change (row.map need).sum = remain
    omega

/-! ### The scan for the longest run -/

/-- All values are up to the ace, and the two lowest ones are neighbours. -/
def Scanned (values : List Int) : Prop :=
  ∃ low ∈ values, low + 1 ∈ values ∧ ∀ v ∈ values, low ≤ v ∧ v ≤ 14

/-- How many values up to the ace are not below the lowest two neighbours. -/
def Kept (values : List Int) (m : Nat) : Prop :=
  ∃ low ∈ values, low + 1 ∈ values ∧ low + 1 ≤ 14 ∧ (∀ u ∈ values, u < low → u + 1 ∉ values) ∧
    (values.filter fun v => low ≤ v ∧ v ≤ 14).length = m

/-- One step of `max_continuity_cards`. -/
def scanStep (has : Int → Bool) (values : List Int) (i : Int) : List Int :=
  if has i then values ++ [i] else if values.length = 1 then [] else values

theorem scanStep_has {has : Int → Bool} {i : Int} (there : has i = true) (values : List Int) :
    scanStep has values i = values ++ [i] := if_pos there

theorem scanStep_not {has : Int → Bool} {i : Int} (missing : has i = false) {values : List Int}
    (not_one : values.length ≠ 1) : scanStep has values i = values := by
  rw [scanStep, missing]
  exact if_neg not_one

theorem scanStep_drop {has : Int → Bool} {i : Int} (missing : has i = false) (v : Int) :
    scanStep has [v] i = [] := by
  rw [scanStep, missing]
  rfl

theorem scan_long (has : Int → Bool) {values : List Int} (two : 2 ≤ values.length)
    (rest : List Int) : rest.foldl (scanStep has) values = values ++ rest.filter has := by
  induction rest generalizing values with
  | nil => simp
  | cons i rest ih =>
      rw [List.foldl_cons]
      cases there : has i with
      | true =>
          have longer : 2 ≤ (values ++ [i]).length := by
            rw [List.length_append]
            omega
          rw [scanStep_has there, ih longer, List.filter_cons_of_pos there, List.append_assoc]
          rfl
      | false =>
          rw [scanStep_not there (by omega), ih two, List.filter_cons_of_neg (by simp [there])]

theorem valuesFrom_cons {s : Nat} (low : s < 15) :
    valuesFrom s = (s : Int) :: valuesFrom (s + 1) := by
  unfold valuesFrom
  have more : 15 - s = (15 - (s + 1)) + 1 := by omega
  rw [more, List.range'_succ, List.map_cons]

/-- A scan from `s` on keeps everything from the lowest two neighbours on or, without two
neighbours, nothing but a last value. -/
def ScanEnds (has : Int → Bool) (s : Nat) (result : List Int) : Prop :=
  (∃ low : Nat, s ≤ low ∧ low ≤ 13 ∧ has low = true ∧ has (low + 1) = true ∧
      (∀ u : Nat, s ≤ u → u < low → ¬ (has u = true ∧ has (u + 1) = true)) ∧
      result = (valuesFrom low).filter has) ∨
    (∀ u : Nat, s ≤ u → u ≤ 13 → ¬ (has u = true ∧ has (u + 1) = true)) ∧ result.length ≤ 1

theorem ScanEnds.earlier {has : Int → Bool} {s : Nat} {result : List Int}
    (no_pair : ¬ (has s = true ∧ has (s + 1) = true)) (ends : ScanEnds has (s + 1) result) :
    ScanEnds has s result := by
  have back : ∀ u : Nat, s ≤ u → (s + 1 ≤ u → ¬ (has u = true ∧ has (u + 1) = true)) →
      ¬ (has u = true ∧ has (u + 1) = true) := by
    intro u at_least later
    rcases Nat.eq_or_lt_of_le at_least with rfl | above
    · exact no_pair
    · exact later above
  rcases ends with ⟨low, above, below, first, second, lowest, kept⟩ | ⟨none_found, short⟩
  · refine .inl ⟨low, by omega, below, first, second, ?_, kept⟩
    intro u at_least under
    exact back u at_least fun above => lowest u above under
  · refine .inr ⟨?_, short⟩
    intro u at_least under
    exact back u at_least fun above => none_found u above under

theorem scan_ends (has : Int → Bool) (k s : Nat) (rest : s + k = 15) :
    ScanEnds has s ((valuesFrom s).foldl (scanStep has) []) := by
  induction k generalizing s with
  | zero =>
      have last : s = 15 := by omega
      rw [last]
      exact .inr ⟨fun u _ _ => by omega, Nat.zero_le 1⟩
  | succ k ih =>
      have next := ih (s + 1) (by omega)
      rw [valuesFrom_cons (by omega), List.foldl_cons]
      cases there : has s with
      | false =>
          rw [scanStep_not there (by decide)]
          exact next.earlier fun pair => by simp [there] at pair
      | true =>
          rw [scanStep_has there]
          rcases Nat.eq_zero_or_pos k with rfl | pos
          · have last : s + 1 = 15 := by omega
            rw [last]
            exact .inr ⟨fun u _ _ => by omega, Nat.le_refl 1⟩
          · rw [valuesFrom_cons (by omega : s + 1 < 15), List.foldl_cons] at next ⊢
            cases second : has ((s + 1 : Nat) : Int) with
            | false =>
                rw [scanStep_not second (by decide)] at next
                rw [List.nil_append, scanStep_drop second]
                refine next.earlier fun pair => ?_
                have := pair.2
                rw [Int.natCast_succ] at second
                simp [second] at this
            | true =>
                rw [scanStep_has second, List.nil_append, scan_long has (by simp)]
                refine .inl ⟨s, Nat.le_refl s, by omega, there, second, fun u _ _ => by omega, ?_⟩
                rw [valuesFrom_cons (by omega : s < 15), valuesFrom_cons (by omega : s + 1 < 15),
                  List.filter_cons_of_pos there, List.filter_cons_of_pos second]
                rfl

theorem maxContinuityCards_ends (has : Int → Bool) : ScanEnds has 3 (maxContinuityCards has) :=
  scan_ends has 12 3 rfl

theorem mem_valuesFrom {s : Nat} {v : Int} (low : s ≤ 15) :
    v ∈ valuesFrom s ↔ (s : Int) ≤ v ∧ v ≤ 14 := by
  unfold valuesFrom
  rw [List.mem_map]
  constructor
  · rintro ⟨i, mem, rfl⟩
    rw [List.mem_range'_1] at mem
    omega
  · intro within
    refine ⟨v.toNat, ?_, by omega⟩
    rw [List.mem_range'_1]
    omega

theorem valuesFrom_nodup (s : Nat) : (valuesFrom s).Nodup := by
  apply List.Nodup.map _ List.nodup_range'
  intro i j same
  exact Int.ofNat.inj same

/-- The scan begins with the lowest value, if this one has a neighbour. -/
theorem scan_head {has : Int → Bool} {low : Int} (above : 3 ≤ low) (first : has low = true)
    (second : has (low + 1) = true) (within : low ≤ 13) (least : ∀ v, 3 ≤ v → v < low → has v = false) :
    (maxContinuityCards has).headD 0 = low := by
  rcases maxContinuityCards_ends has with ⟨start, three, _, there, _, lowest, result⟩ | ⟨none_found, _⟩
  · have same : (start : Int) = low := by
      rcases Int.lt_trichotomy start low with less | same | more
      · rw [least start (by omega) less] at there
        cases there
      · exact same
      · have found := lowest low.toNat (by omega) (by omega)
        rw [Int.toNat_of_nonneg (by omega)] at found
        exact absurd ⟨first, second⟩ found
    rw [result, valuesFrom_cons (by omega), List.filter_cons_of_pos there, List.headD_cons, same]
  · have found := none_found low.toNat (by omega) (by omega)
    rw [Int.toNat_of_nonneg (by omega)] at found
    exact absurd ⟨first, second⟩ found

/-- The scan of a row with other cards begins with the first value of the row. -/
theorem Consists.scan_head {keys ws : List Int} {a k n : Nat} {b : Int}
    (made : Consists keys a (run b n) k ws) (a_pos : 0 < a) (k_pos : 0 < k) (differ : a ≠ k)
    (above : 3 ≤ b) (below : b + n ≤ 15) (two : 2 ≤ n) :
    (maxContinuityCards fun i => keys.count i = a).headD 0 = b := by
  have there : ∀ v, keys.count v = a ↔ v ∈ run b n := fun v => made.count_iff a_pos k_pos differ
  apply Climbing.scan_head above
  · exact decide_eq_true ((there b).2 (mem_run.2 (by omega)))
  · exact decide_eq_true ((there (b + 1)).2 (mem_run.2 (by omega)))
  · omega
  · intro v _ less
    apply decide_eq_false
    rw [there]
    intro mem
    have := mem_run.1 mem
    omega

theorem scanned_iff (values : List Int) : Scanned values ↔ Kept values values.length := by
  constructor
  · rintro ⟨low, mem, next, within⟩
    refine ⟨low, mem, next, (within _ next).2, ?_, ?_⟩
    · intro u there under
      have := (within u there).1
      omega
    · rw [List.filter_eq_self.2]
      intro v there
      simpa using within v there
  · rintro ⟨low, mem, next, _, _, all⟩
    refine ⟨low, mem, next, ?_⟩
    intro v there
    simpa using List.length_filter_eq_length_iff.1 all v there

theorem Run.scanned {values : List Int} (row : Run values) (two : 2 ≤ values.length) :
    Scanned values := by
  obtain ⟨low, n, above, below, same⟩ := row
  have long : values.length = n := by
    rw [same.length_eq, run, List.length_map, List.length_range]
  refine ⟨low, same.mem_iff.2 (mem_run.2 (by omega)), same.mem_iff.2 (mem_run.2 (by omega)), ?_⟩
  intro v there
  have := mem_run.1 (same.mem_iff.1 there)
  omega

section Scan

variable {keys : List Int} {n : Nat}

/-- What the scan comes to for the values that occur `n` times. -/
theorem kept_iff (pos : 0 < n) (three : ∀ v ∈ keys, 3 ≤ v) (m : Nat) :
    Kept (valuesOf keys n) m ↔
      2 ≤ (maxContinuityCards fun i => keys.count i = n).length ∧
        (maxContinuityCards fun i => keys.count i = n).length = m := by
  have there : ∀ v, v ∈ valuesOf keys n ↔ keys.count v = n := fun v => mem_valuesOf pos
  have above : ∀ v ∈ valuesOf keys n, 3 ≤ v := by
    intro v mem
    exact three v (List.count_pos_iff.1 ((there v).1 mem ▸ pos))
  rcases maxContinuityCards_ends (fun i => keys.count i = n) with
    ⟨low, _, below, first, second, lowest, result⟩ | ⟨none_found, short⟩
  · simp only [decide_eq_true_eq, ← there] at first second lowest
    have unlike : ∀ low' ∈ valuesOf keys n, low' + 1 ∈ valuesOf keys n → low' + 1 ≤ 14 →
        (∀ u ∈ valuesOf keys n, u < low' → u + 1 ∉ valuesOf keys n) → low' = low := by
      intro low' mem next _ least
      rcases Int.lt_trichotomy low' low with less | same | more
      · have three' := above low' mem
        have found := lowest low'.toNat (by omega) (by omega)
        rw [Int.toNat_of_nonneg (by omega)] at found
        exact absurd ⟨mem, next⟩ found
      · exact same
      · exact absurd second (least low first more)
    have kept : ((valuesOf keys n).filter fun v => (low : Int) ≤ v ∧ v ≤ 14).Perm
        ((valuesFrom low).filter fun i => keys.count i = n) := by
      apply (List.perm_ext_iff_of_nodup ((valuesOf_nodup keys n).filter _)
        ((valuesFrom_nodup low).filter _)).2
      intro v
      simp only [List.mem_filter, there, decide_eq_true_eq, mem_valuesFrom (by omega : low ≤ 15)]
      exact and_comm
    have two : 2 ≤ ((valuesFrom low).filter fun i => keys.count i = n).length := by
      have pair : [(low : Int), low + 1].Subperm
          ((valuesFrom low).filter fun i => keys.count i = n) := by
        apply List.subperm_of_subset (by simp)
        intro v mem
        simp only [List.mem_cons, List.not_mem_nil, or_false] at mem
        rw [List.mem_filter, mem_valuesFrom (by omega), decide_eq_true_eq, ← there]
        rcases mem with rfl | rfl
        · exact ⟨by omega, first⟩
        · exact ⟨by omega, second⟩
      exact pair.length_le
    rw [result]
    constructor
    · rintro ⟨low', mem, next, within, least, count⟩
      rw [unlike low' mem next within least, kept.length_eq] at count
      exact ⟨two, count⟩
    · rintro ⟨_, count⟩
      refine ⟨low, first, second, by omega, ?_, kept.length_eq.trans count⟩
      intro u mem under next
      have three' := above u mem
      have found := lowest u.toNat (by omega) (by omega)
      rw [Int.toNat_of_nonneg (by omega)] at found
      exact found ⟨mem, next⟩
  · constructor
    · rintro ⟨low, mem, next, within, _, _⟩
      have three' := above low mem
      have found := none_found low.toNat (by omega) (by omega)
      rw [Int.toNat_of_nonneg (by omega)] at found
      simp only [decide_eq_true_eq, ← there] at found
      exact absurd ⟨mem, next⟩ found
    · rintro ⟨two, _⟩
      omega

/-- The scan keeps all values, and at least two. -/
theorem scanned_iff_scan (pos : 0 < n) (three : ∀ v ∈ keys, 3 ≤ v) :
    Scanned (valuesOf keys n) ↔
      2 ≤ (maxContinuityCards fun i => keys.count i = n).length ∧
        (maxContinuityCards fun i => keys.count i = n).length = countCounts keys n := by
  rw [scanned_iff, kept_iff pos three]
  rfl

theorem Kept.le {values : List Int} {m : Nat} (kept : Kept values m) : m ≤ values.length := by
  obtain ⟨low, _, _, _, _, rfl⟩ := kept
  exact List.length_filter_le _ _

end Scan

end FkServer.Climbing
