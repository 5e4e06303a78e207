import FkServer.Climbing.Grammar
import FkServer.Library.LuaSort
import Mathlib.Algebra.Order.BigOperators.Group.List
import Mathlib.Algebra.Order.Group.Nat
import Mathlib.Data.Finset.Sort
import Mathlib.Algebra.GroupWithZero.Nat

/-!
The searches of a hand that `cards_util` of `land` and of `pdk` share: the longest run of
values, cards of a value, and the smallest kickers.
-/
namespace FkServer.Climbing

/-! ### The hand by values -/

section Hand

variable (pairs : List Int → List Int) (hand : Finset Int)

/-- `valuecards[v]`, in the order in which Lua meets the cards. -/
def valueCards (v : Int) : List Int :=
  pairs ((hand.filter fun card => value card = v).sort (· ≤ ·))

/-- `valuecounts[v]`, with 0 for an absent entry. -/
def valueCounts (v : Int) : Nat := (valueCards pairs hand v).length

/-- `table.nums(countgroup[n])`: how many values have `n` cards. -/
def countGroup (n : Nat) : Nat := ((hand.image value).filter fun v => valueCounts pairs hand v = n).card

/-- `pick_exactly` as the searches call it, without cards to be taken first. -/
def pickExactly (count : Nat) (val : Int) (excludes : List Int) : List Int :=
  ((valueCards pairs hand val).filter fun card => card ∉ excludes).take count

/-- `find_min_value_with_exactly_count` -/
def findMinValueWithExactlyCount (count : Nat) (excludes : List Int) : Option Int :=
  (run 3 13).find? fun i =>
    valueCounts pairs hand i = count ∧ ∀ card ∈ valueCards pairs hand i, card ∉ excludes

/-- `pick_min_combination_with_exactly_count` -/
def pickMinCombination : List Nat → List Int → Option (List Int)
  | [], _ => some []
  | count :: combs, excludes =>
      (findMinValueWithExactlyCount pairs hand count excludes).bind fun val =>
        let cards := pickExactly pairs hand count val excludes
        (pickMinCombination combs (excludes ++ cards)).map fun more => cards ++ more

/-- The ways to write a number as a sum. -/
def fullCombination : Nat → List (List Nat)
  | 0 => []
  | 1 => [[1]]
  | number + 1 => [number + 1] :: (fullCombination number).map fun nums => nums ++ [1]

/-- `search_min_combination`: the sums of most summands come first. -/
def searchMinCombination (lua : LuaSort) (count : Nat) (excludes : List Int) : Option (List Int) :=
  (lua.sort (fun l r => decide ((r.length : Int) < l.length)) (fullCombination count)).findSome?
    fun comb => pickMinCombination pairs hand comb excludes

end Hand

/-! ### The longest run -/

/-- `next_section`: values in a row, up to the length that is enough. -/
def nextSection (ok : Int → Bool) (full : Nat → Bool) : Nat → List Int → Nat
  | n, [] => n
  | n, i :: rest =>
      if ok i = false then n
      else if full (n + 1) then n + 1
      else nextSection ok full (n + 1) rest

/-- The values that `for i = b,14` runs over. -/
def valuesOn (b : Int) : List Int := run b (15 - b).toNat

/-- The sections of `seek_continuity_cards_count` from `i` on. -/
def sections (ok : Int → Bool) (full : Nat → Bool) : Nat → Int → List (Int × Nat)
  | 0, _ => []
  | fuel + 1, i =>
      if 14 < i then []
      else
        let len := nextSection ok full 0 (valuesOn i)
        (if 0 < len then [(i, len)] else []) ++ sections ok full fuel (i + len + 1)

/-- The longer section comes first, and of two as long the lower one. -/
def sectionLt (l r : Int × Nat) : Bool := r.2 < l.2 ∨ l.2 = r.2 ∧ l.1 < r.1

/-- `seek_continuity_cards_count`, where `full n` is `len and n == len`: the length of the
longest section and its first value, or none for the length 0. -/
def seekContinuityCardsCount (lua : LuaSort) (ok : Int → Bool) (full : Nat → Bool) (begin_ : Int) :
    Option (Nat × Int) :=
  ((lua.sort sectionLt (sections ok full (15 - begin_).toNat begin_)).head?).map fun top =>
    (top.2, top.1)

/-- A value with at least so many cards that are no bomb. -/
def continuable (counts : Int → Nat) (valueCount : Nat) (i : Int) : Bool :=
  valueCount ≤ counts i ∧ counts i ≠ 0 ∧ counts i ≠ 4

theorem sectionLt_order : StrictOrder sectionLt where
  asymm := by
    intro a b h
    simp only [sectionLt, decide_eq_true_eq, decide_eq_false_iff_not] at h ⊢
    omega
  trans := by
    intro a b c h h'
    simp only [sectionLt, decide_eq_false_iff_not] at h h' ⊢
    omega

/-- What a section is. -/
structure IsSection (ok : Int → Bool) (full : Nat → Bool) (begin_ b : Int) (n : Nat) : Prop where
  pos : 0 < n
  above : begin_ ≤ b
  below : b + n ≤ 15
  inside : ∀ v ∈ run b n, ok v = true
  shorter : ∀ m, 0 < m → m < n → full m = false

section Sections

variable (ok : Int → Bool) (full : Nat → Bool)

/-- A section goes on from `n` values to a value that is missing, the last one or the length that
is enough. -/
theorem nextSection_spec (k n : Nat) (b : Int) :
    ∃ m, nextSection ok full n (run b k) = n + m ∧ m ≤ k ∧ (∀ v ∈ run b m, ok v = true) ∧
      (∀ j, 0 < j → j < m → full (n + j) = false) ∧
      (m = k ∨ ok (b + m) = false ∨ 0 < m ∧ full (n + m) = true) := by
  induction k generalizing n b with
  | zero => exact ⟨0, rfl, Nat.le_refl 0, nofun, fun j pos less => by omega, .inl rfl⟩
  | succ k ih =>
      rw [run_cons, nextSection]
      cases there : ok b with
      | false => exact ⟨0, if_pos rfl, Nat.zero_le _, nofun, fun j pos less => by omega,
          .inr (.inl (by simpa using there))⟩
      | true =>
          rw [if_neg (by decide)]
          cases enough : full (n + 1) with
          | true =>
              refine ⟨1, if_pos rfl, by omega, ?_, fun j pos less => by omega, .inr (.inr ⟨Nat.one_pos, enough⟩)⟩
              intro v mem
              have inside := mem_run.1 mem
              rw [show v = b by omega]
              exact there
          | false =>
              obtain ⟨m, same, le, inside, shorter, ends⟩ := ih (n + 1) (b + 1)
              refine ⟨m + 1, ?_, by omega, ?_, ?_, ?_⟩
              · rw [if_neg (by decide), same]
                omega
              · intro v mem
                have within := mem_run.1 mem
                by_cases first : v = b
                · rw [first]
                  exact there
                · exact inside v (mem_run.2 (by omega))
              · intro j pos less
                by_cases one : j = 1
                · rw [one]
                  exact enough
                · have earlier := shorter (j - 1) (by omega) (by omega)
                  rw [show n + 1 + (j - 1) = n + j by omega] at earlier
                  exact earlier
              · rcases ends with all | missing | ⟨_, stop⟩
                · exact .inl (by omega)
                · rw [show b + 1 + m = b + (m + 1 : Nat) by omega] at missing
                  exact .inr (.inl missing)
                · rw [show n + 1 + m = n + (m + 1) by omega] at stop
                  exact .inr (.inr ⟨Nat.succ_pos m, stop⟩)

theorem mem_sections (fuel : Nat) (i : Int) :
    ∀ found ∈ sections ok full fuel i, IsSection ok full i found.1 found.2 := by
  induction fuel generalizing i with
  | zero => nofun
  | succ fuel ih =>
      intro found mem
      rw [sections] at mem
      split at mem
      · cases mem
      · rename_i low
        obtain ⟨m, same, le, inside, shorter, _⟩ := nextSection_spec ok full (15 - i).toNat 0 i
        simp only [valuesOn, same, Nat.zero_add] at mem shorter
        rcases List.mem_append.1 mem with first | later
        · split at first
          · rename_i pos
            rw [List.mem_singleton.1 first]
            exact ⟨pos, Int.le_refl i, by omega, inside, shorter⟩
          · cases first
        · have next := ih _ found later
          exact ⟨next.pos, by have := next.above; omega, next.below, next.inside, next.shorter⟩

/-- No run is missed: one of the sections is as long, if the length is not cut off before. -/
theorem sections_find (fuel : Nat) (i : Int) (enough : 15 ≤ i + fuel) {b : Int} {n : Nat} (pos : 0 < n)
    (above : i ≤ b) (below : b + n ≤ 15) (inside : ∀ v ∈ run b n, ok v = true)
    (not_full : ∀ m, 0 < m → m < n → full m = false) :
    ∃ found ∈ sections ok full fuel i, n ≤ found.2 := by
  induction fuel generalizing i with
  | zero => omega
  | succ fuel ih =>
      rw [sections, if_neg (by omega)]
      obtain ⟨m, same, le, _, _, ends⟩ := nextSection_spec ok full (15 - i).toNat 0 i
      simp only [valuesOn, same, Nat.zero_add] at ends ⊢
      by_cases long : n ≤ m
      · refine ⟨(i, m), ?_, long⟩
        rw [if_pos (by omega)]
        exact List.mem_cons_self
      · have later : i + m + 1 ≤ b := by
          by_contra early
          rcases ends with all | missing | ⟨some_value, stop⟩
          · omega
          · rw [inside (i + m) (mem_run.2 (by omega))] at missing
            cases missing
          · rw [not_full m some_value (by omega)] at stop
            cases stop
        obtain ⟨found, mem, long⟩ := ih (i + m + 1) (by omega) later
        exact ⟨found, List.mem_append_right _ mem, long⟩

variable {ok full} {lua : LuaSort} {begin_ : Int}

theorem seekContinuity_found {n : Nat} {b : Int}
    (found : seekContinuityCardsCount lua ok full begin_ = some (n, b)) :
    IsSection ok full begin_ b n := by
  unfold seekContinuityCardsCount at found
  obtain ⟨top, head, same⟩ := Option.map_eq_some_iff.1 found
  cases same
  exact mem_sections ok full _ begin_ top (lua.head_mem head)

/-- The longest section is as long as any run. -/
theorem seekContinuity_longest {b : Int} {n : Nat} (pos : 0 < n) (above : begin_ ≤ b)
    (below : b + n ≤ 15) (inside : ∀ v ∈ run b n, ok v = true)
    (not_full : ∀ m, 0 < m → m < n → full m = false) :
    ∃ m b', seekContinuityCardsCount lua ok full begin_ = some (m, b') ∧ n ≤ m := by
  obtain ⟨found, mem, long⟩ := sections_find ok full (15 - begin_).toNat begin_ (by omega) pos above
    below inside not_full
  unfold seekContinuityCardsCount
  have sorted := lua.sorted sectionLt sectionLt_order (sections ok full (15 - begin_).toNat begin_)
  rw [← (lua.perm sectionLt _).mem_iff] at mem
  cases order : lua.sort sectionLt (sections ok full (15 - begin_).toNat begin_) with
  | nil =>
      rw [order] at mem
      cases mem
  | cons top rest =>
      rw [order] at mem sorted
      refine ⟨top.2, top.1, rfl, ?_⟩
      rcases List.mem_cons.1 mem with rfl | later
      · exact long
      · have not_less := (List.pairwise_cons.1 sorted).1 found later
        simp only [sectionLt, decide_eq_false_iff_not] at not_less
        omega

end Sections

/-! ### Cards that are taken -/

section Picks

variable {pairs : List Int → List Int} (same : ∀ values, (pairs values).Perm values)
  (hand : Finset Int)

include same

theorem mem_valueCards {card v : Int} :
    card ∈ valueCards pairs hand v ↔ card ∈ hand ∧ value card = v := by
  unfold valueCards
  rw [(same _).mem_iff, Finset.mem_sort, Finset.mem_filter]

theorem valueCards_nodup (v : Int) : (valueCards pairs hand v).Nodup :=
  (same _).nodup_iff.2 (Finset.sort_nodup _ _)

theorem map_valueCards (v : Int) (n : Nat) : ((valueCards pairs hand v).take n).map value =
    List.replicate ((valueCards pairs hand v).take n).length v := by
  apply List.eq_replicate_iff.2
  refine ⟨List.length_map _, ?_⟩
  intro u mem
  obtain ⟨card, there, rfl⟩ := List.mem_map.1 mem
  exact ((mem_valueCards same hand).1 (List.mem_of_mem_take there)).2

omit same in
/-- Cards of different values, so many of each of them as the hand has at least. -/
structure Picked (pairs : List Int → List Int) (hand : Finset Int) (picks : List (Int × Nat))
    (cards : List Int) : Prop where
  made : cards = picks.flatMap fun pick => (valueCards pairs hand pick.1).take pick.2
  distinct : (picks.map Prod.fst).Nodup
  enough : ∀ pick ∈ picks, pick.2 ≤ valueCounts pairs hand pick.1

variable {hand} {picks : List (Int × Nat)} {cards : List Int}

theorem Picked.subset (picked : Picked pairs hand picks cards) : ∀ card ∈ cards, card ∈ hand := by
  intro card mem
  rw [picked.made] at mem
  obtain ⟨pick, _, there⟩ := List.mem_flatMap.1 mem
  exact ((mem_valueCards same hand).1 (List.mem_of_mem_take there)).1

theorem Picked.nodup (picked : Picked pairs hand picks cards) : cards.Nodup := by
  rw [picked.made, List.nodup_flatMap]
  constructor
  · intro pick _
    exact ((valueCards_nodup same hand pick.1).sublist (List.take_sublist _ _))
  · apply (List.pairwise_map.1 picked.distinct).imp
    intro pick other differ card first second
    rw [← ((mem_valueCards same hand).1 (List.mem_of_mem_take first)).2,
      ← ((mem_valueCards same hand).1 (List.mem_of_mem_take second)).2] at differ
    exact differ rfl

theorem Picked.keys (picked : Picked pairs hand picks cards) :
    cards.map value = picks.flatMap fun pick => List.replicate pick.2 pick.1 := by
  rw [picked.made, List.map_flatMap]
  apply List.flatMap_congr
  intro pick mem
  have enough : pick.2 ≤ (valueCards pairs hand pick.1).length := picked.enough pick mem
  rw [map_valueCards same hand, List.length_take, Nat.min_eq_left enough]

end Picks

/-! ### Kickers -/

section Kickers

variable (pairs : List Int → List Int) (hand : Finset Int)

/-- The values with `k` cards, none of which is excluded. -/
def freeValues (k : Nat) (excludes : List Int) : List Int :=
  (run 3 13).filter fun v =>
    valueCounts pairs hand v = k ∧ ∀ card ∈ valueCards pairs hand v, card ∉ excludes

variable {pairs hand} {k : Nat} {excludes : List Int}

theorem mem_freeValues {v : Int} : v ∈ freeValues pairs hand k excludes ↔
    v ∈ run 3 13 ∧ valueCounts pairs hand v = k ∧
      ∀ card ∈ valueCards pairs hand v, card ∉ excludes := by
  unfold freeValues
  rw [List.mem_filter, decide_eq_true_eq]

theorem freeValues_nodup : (freeValues pairs hand k excludes).Nodup := (run_nodup 3 13).filter _

theorem findMinValue_eq : findMinValueWithExactlyCount pairs hand k excludes =
    (freeValues pairs hand k excludes).head? := by
  unfold findMinValueWithExactlyCount freeValues
  rw [List.head?_filter]

theorem pickExactly_nil (n : Nat) (v : Int) :
    pickExactly pairs hand n v [] = (valueCards pairs hand v).take n := by
  unfold pickExactly
  rw [List.filter_eq_self.2 fun card _ => by simp]

theorem pickExactly_free {v : Int} (free : v ∈ freeValues pairs hand k excludes) :
    pickExactly pairs hand k v excludes = valueCards pairs hand v := by
  obtain ⟨_, count, others⟩ := mem_freeValues.1 free
  unfold pickExactly
  rw [List.filter_eq_self.2 fun card mem => by simpa using others card mem]
  apply List.take_of_length_le
  exact Nat.le_of_eq count

/-- What is left free after all cards of some values are taken. -/
theorem freeValues_append (same : ∀ values, (pairs values).Perm values) {ws : List Int}
    (some_card : ∀ w ∈ ws, 0 < valueCounts pairs hand w) :
    freeValues pairs hand k (excludes ++ ws.flatMap (valueCards pairs hand)) =
      (freeValues pairs hand k excludes).filter fun v => v ∉ ws := by
  unfold freeValues
  rw [List.filter_filter]
  apply List.filter_congr
  intro v _
  rw [← Bool.decide_and, decide_eq_decide]
  constructor
  · rintro ⟨count, others⟩
    refine ⟨?_, count, fun card mem out => others card mem (List.mem_append_left _ out)⟩
    intro taken
    obtain ⟨card, mem⟩ := List.exists_mem_of_length_pos (some_card v taken)
    exact others card mem (List.mem_append_right _ (List.mem_flatMap.2 ⟨v, taken, mem⟩))
  · rintro ⟨kept, count, others⟩
    refine ⟨count, fun card mem out => ?_⟩
    rcases List.mem_append.1 out with out | taken
    · exact others card mem out
    · obtain ⟨w, there, other⟩ := List.mem_flatMap.1 taken
      have first := ((mem_valueCards same hand).1 mem).2
      have second := ((mem_valueCards same hand).1 other).2
      rw [← first, second] at kept
      exact kept there

/-- Kickers that are found: all cards of different free values. -/
structure KickersOf (pairs : List Int → List Int) (hand : Finset Int) (excludes : List Int)
    (combs : List Nat) (cards : List Int) (ws : List Int) : Prop where
  made : cards = ws.flatMap (valueCards pairs hand)
  distinct : ws.Nodup
  counts : ws.map (valueCounts pairs hand) = combs
  free : ∀ w ∈ ws, w ∈ run 3 13 ∧ ∀ card ∈ valueCards pairs hand w, card ∉ excludes

theorem pickMin_made {combs : List Nat}
    (positive : ∀ n ∈ combs, 0 < n) {cards : List Int}
    (found : pickMinCombination pairs hand combs excludes = some cards) :
    ∃ ws, KickersOf pairs hand excludes combs cards ws := by
  induction combs generalizing excludes cards with
  | nil =>
      cases found
      exact ⟨[], rfl, .nil, rfl, nofun⟩
  | cons count combs ih =>
      rw [pickMinCombination, findMinValue_eq] at found
      obtain ⟨w, first, rest⟩ := Option.bind_eq_some_iff.1 found
      obtain ⟨more, others, rfl⟩ := Option.map_eq_some_iff.1 rest
      have free := List.mem_of_mem_head? first
      obtain ⟨inside, exactly, apart⟩ := mem_freeValues.1 free
      rw [pickExactly_free free] at others ⊢
      obtain ⟨ws, kickers⟩ := ih (fun n mem => positive n (List.mem_cons_of_mem _ mem)) others
      have fresh : w ∉ ws := by
        intro again
        have some_card : 0 < valueCounts pairs hand w := by
          rw [exactly]
          exact positive count List.mem_cons_self
        obtain ⟨card, mem⟩ := List.exists_mem_of_length_pos some_card
        exact (kickers.free w again).2 card mem (List.mem_append_right _ mem)
      refine ⟨w :: ws, ?_, List.nodup_cons.2 ⟨fresh, kickers.distinct⟩, ?_, ?_⟩
      · rw [List.flatMap_cons, kickers.made]
      · rw [List.map_cons, exactly, kickers.counts]
      · intro u mem
        rcases List.mem_cons.1 mem with rfl | later
        · exact ⟨inside, apart⟩
        · obtain ⟨within, free⟩ := kickers.free u later
          exact ⟨within, fun card mem out => free card mem (List.mem_append_left _ out)⟩

/-- So many values with `k` cards are found unless there are fewer. -/
theorem pickMin_none (same : ∀ values, (pairs values).Perm values) (pos : 0 < k) (m : Nat) :
    pickMinCombination pairs hand (List.replicate m k) excludes = none ↔
      (freeValues pairs hand k excludes).length < m := by
  induction m generalizing excludes with
  | zero => exact iff_of_false (by simp [pickMinCombination]) (Nat.not_lt_zero _)
  | succ m ih =>
      rw [List.replicate_succ, pickMinCombination, findMinValue_eq]
      cases free : freeValues pairs hand k excludes with
      | nil => exact iff_of_true rfl (Nat.succ_pos m)
      | cons w rest =>
          have there : w ∈ freeValues pairs hand k excludes := by
            rw [free]
            exact List.mem_cons_self
          have count := (mem_freeValues.1 there).2.1
          have some_card : ∀ u ∈ [w], 0 < valueCounts pairs hand u := by
            intro u mem
            rw [List.mem_singleton.1 mem, count]
            exact pos
          have left : freeValues pairs hand k (excludes ++ valueCards pairs hand w) = rest := by
            have removed := @freeValues_append pairs hand k excludes same [w] some_card
            rw [List.flatMap_singleton, free] at removed
            rw [removed]
            have distinct : (w :: rest).Nodup := by
              rw [← free]
              exact freeValues_nodup
            rw [List.filter_cons_of_neg (by simp), List.filter_eq_self.2]
            intro u mem
            simp only [List.mem_singleton, decide_eq_true_eq]
            rintro rfl
            exact (List.nodup_cons.1 distinct).1 mem
          rw [List.head?_cons, Option.bind_some, Option.map_eq_none_iff, pickExactly_free there, ih, left,
            List.length_cons, Nat.succ_lt_succ_iff]

theorem fullCombination_sum (n : Nat) :
    ∀ comb ∈ fullCombination n, comb.sum = n ∧ ∀ k ∈ comb, 0 < k := by
  induction n with
  | zero => nofun
  | succ n ih =>
      intro comb mem
      cases n with
      | zero =>
          rw [List.mem_singleton.1 mem]
          exact ⟨rfl, by simp⟩
      | succ n =>
          rcases List.mem_cons.1 mem with rfl | mem
          · exact ⟨rfl, by simp⟩
          · obtain ⟨nums, there, rfl⟩ := List.mem_map.1 mem
            obtain ⟨sum, positive⟩ := ih nums there
            refine ⟨by rw [List.sum_append, sum]; rfl, ?_⟩
            intro k mem
            rcases List.mem_append.1 mem with mem | last
            · exact positive k mem
            · rw [List.mem_singleton.1 last]
              exact Nat.one_pos

variable {lua : LuaSort} {n : Nat}

theorem searchMin_made {cards : List Int}
    (found : searchMinCombination pairs hand lua n excludes = some cards) :
    ∃ comb ∈ fullCombination n, ∃ ws, KickersOf pairs hand excludes comb cards ws := by
  obtain ⟨comb, mem, picked⟩ := List.exists_of_findSome?_eq_some found
  have there := (lua.perm _ _).mem_iff.1 mem
  exact ⟨comb, there, pickMin_made (fullCombination_sum n comb there).2 picked⟩

theorem searchMin_none : searchMinCombination pairs hand lua n excludes = none ↔
    ∀ comb ∈ fullCombination n, pickMinCombination pairs hand comb excludes = none := by
  unfold searchMinCombination
  rw [List.findSome?_eq_none_iff]
  constructor
  · intro none comb mem
    exact none comb ((lua.perm _ _).mem_iff.2 mem)
  · intro none comb mem
    exact none comb ((lua.perm _ _).mem_iff.1 mem)

/-- How many kickers of two cards the free values make. -/
def pairsLeft (pairs : List Int → List Int) (hand : Finset Int) (excludes : List Int) : Nat :=
  (freeValues pairs hand 1 excludes).length / 2 + (freeValues pairs hand 2 excludes).length

theorem searchMin_one_none (same : ∀ values, (pairs values).Perm values) :
    searchMinCombination pairs hand lua 1 excludes = none ↔
      (freeValues pairs hand 1 excludes).length = 0 := by
  rw [searchMin_none]
  have single := @pickMin_none pairs hand 1 excludes same Nat.one_pos 1
  change (∀ comb ∈ [[1]], _) ↔ _
  rw [List.forall_mem_singleton]
  exact single.trans Nat.lt_one_iff

theorem searchMin_two_none (same : ∀ values, (pairs values).Perm values) :
    searchMinCombination pairs hand lua 2 excludes = none ↔ pairsLeft pairs hand excludes = 0 := by
  rw [searchMin_none]
  have singles := @pickMin_none pairs hand 1 excludes same Nat.one_pos 2
  have pair := @pickMin_none pairs hand 2 excludes same Nat.two_pos 1
  change (∀ comb ∈ [[2], [1, 1]], _) ↔ _
  rw [List.forall_mem_cons, List.forall_mem_singleton]
  unfold pairsLeft
  exact (and_congr pair singles).trans (by omega)

/-- Two single cards are looked for before a pair. -/
theorem sort_two (lua : LuaSort) :
    lua.sort (fun l r => decide ((r.length : Int) < l.length)) (fullCombination 2) = [[1, 1], [2]] := by
  have sorted := lua.sorted _ (LuaSort.strictOrder_key fun l : List Nat => (l.length : Int))
    (fullCombination 2)
  have perm := (lua.perm (fun l r => decide ((r.length : Int) < l.length)) (fullCombination 2)).trans
    (.swap [1, 1] [2] [])
  apply perm.eq_of_pairwise _ sorted (by simp)
  intro l r first second not_less not_more
  have left := perm.subset first
  simp only [List.mem_cons, List.not_mem_nil, or_false] at left second
  simp only [decide_eq_false_iff_not] at not_less not_more
  rcases left with rfl | rfl <;> rcases second with rfl | rfl <;> simp_all

theorem searchMin_two (lua : LuaSort) :
    searchMinCombination pairs hand lua 2 excludes =
      (pickMinCombination pairs hand [1, 1] excludes).or (pickMinCombination pairs hand [2] excludes) := by
  unfold searchMinCombination
  rw [sort_two]
  cases singles : pickMinCombination pairs hand [1, 1] excludes with
  | none => cases pair : pickMinCombination pairs hand [2] excludes <;> simp [singles, pair]
  | some cards => simp [singles]

theorem KickersOf.free_length (same : ∀ values, (pairs values).Perm values) {combs : List Nat}
    {cards ws : List Int} (kickers : KickersOf pairs hand excludes combs cards ws)
    (positive : ∀ n ∈ combs, 0 < n) :
    (freeValues pairs hand k (excludes ++ cards)).length + combs.count k =
      (freeValues pairs hand k excludes).length := by
  have some_card : ∀ w ∈ ws, 0 < valueCounts pairs hand w := by
    intro w mem
    apply positive
    rw [← kickers.counts]
    exact List.mem_map_of_mem mem
  have taken : ((freeValues pairs hand k excludes).filter fun v => v ∈ ws).Perm
      (ws.filter fun w => valueCounts pairs hand w = k) := by
    apply (List.perm_ext_iff_of_nodup (freeValues_nodup.filter _) (kickers.distinct.filter _)).2
    intro w
    simp only [List.mem_filter, mem_freeValues, decide_eq_true_eq]
    constructor
    · rintro ⟨⟨_, count, _⟩, there⟩
      exact ⟨there, count⟩
    · rintro ⟨there, count⟩
      obtain ⟨inside, apart⟩ := kickers.free w there
      exact ⟨⟨inside, count, apart⟩, there⟩
  have number : combs.count k = (ws.filter fun w => valueCounts pairs hand w = k).length := by
    rw [← kickers.counts, List.count, List.countP_map, List.countP_eq_length_filter]
    rfl
  rw [kickers.made, freeValues_append same some_card, number, ← taken.length_eq]
  have parts := (List.length_eq_length_filter_add (l := freeValues pairs hand k excludes)
    fun v => decide (v ∈ ws)).symm
  simp only [decide_not] at parts ⊢
  omega

/-- Taking all cards of a value leaves the values with other numbers of cards as they are. -/
theorem freeValues_beside (same : ∀ values, (pairs values).Perm values) {v : Int} {n : Nat}
    (times : valueCounts pairs hand v = n) (pos : 0 < n) (other : k ≠ n) :
    freeValues pairs hand k (excludes ++ valueCards pairs hand v) =
      freeValues pairs hand k excludes := by
  have removed := @freeValues_append pairs hand k excludes same [v] ?_
  · rw [List.flatMap_singleton] at removed
    rw [removed, List.filter_eq_self.2]
    intro u mem
    simp only [List.mem_singleton, decide_eq_true_eq]
    rintro rfl
    exact other ((mem_freeValues.1 mem).2.1.symm.trans times)
  · intro w mem
    rw [List.mem_singleton.1 mem, times]
    exact pos

end Kickers

/-! ### Triples with kickers -/

section Planes

variable (pairs : List Int → List Int) (hand : Finset Int) (lua : LuaSort)

/-- The loop of `PLANE_WITH_ONE` and `PLANE_WITH_TWO`: a triple of each value, and the kickers
for it where there are any. -/
def planeWithKickers (others : Nat) (excluded : Int → List Int) : List Int → List Int → List Int
  | [], _ => []
  | i :: rest, excludes =>
      let excludes := excludes ++ excluded i
      let combineCards := (searchMinCombination pairs hand lua others excludes).getD []
      pickExactly pairs hand 3 i [] ++ combineCards ++
        planeWithKickers others excluded rest (excludes ++ combineCards)

variable {pairs hand lua}

/-- How many times kickers can still be found. -/
structure KickerCounts (pairs : List Int → List Int) (hand : Finset Int) (lua : LuaSort) (others : Nat)
    (left : List Int → Nat) : Prop where
  none : ∀ excludes, searchMinCombination pairs hand lua others excludes = none ↔ left excludes = 0
  less : ∀ excludes comb cards ws, comb ∈ fullCombination others →
    KickersOf pairs hand excludes comb cards ws → left (excludes ++ cards) + 1 = left excludes
  triple : ∀ excludes v, valueCounts pairs hand v = 3 →
    left (excludes ++ valueCards pairs hand v) = left excludes

theorem counts_one (same : ∀ values, (pairs values).Perm values) :
    KickerCounts pairs hand lua 1 fun excludes => (freeValues pairs hand 1 excludes).length where
  none excludes := searchMin_one_none same
  less excludes comb cards ws mem kickers := by
    have only : comb = [1] := List.mem_singleton.1 mem
    rw [only] at kickers
    exact kickers.free_length same (by simp)
  triple excludes v three := by rw [freeValues_beside same three (by decide) (by decide)]

theorem counts_two (same : ∀ values, (pairs values).Perm values) :
    KickerCounts pairs hand lua 2 (pairsLeft pairs hand) where
  none excludes := searchMin_two_none same
  less excludes comb cards ws mem kickers := by
    have positive := (fullCombination_sum 2 comb mem).2
    have singles := kickers.free_length (k := 1) same positive
    have twos := kickers.free_length (k := 2) same positive
    have which : comb = [2] ∨ comb = [1, 1] := by
      change comb ∈ [[2], [1, 1]] at mem
      simpa using mem
    unfold pairsLeft
    rcases which with rfl | rfl
    · change _ + 0 = _ at singles
      change _ + 1 = _ at twos
      omega
    · change _ + 2 = _ at singles
      change _ + 0 = _ at twos
      omega
  triple excludes v three := by
    unfold pairsLeft
    rw [freeValues_beside same three (by decide) (by decide), freeValues_beside same three (by decide) (by decide)]

/-- The kickers that the loop finds, as many as there are or as are looked for. -/
structure PlaneKickers (pairs : List Int → List Int) (hand : Finset Int) (others : Nat)
    (excludes : List Int) (rounds : Nat) (ws : List Int) : Prop where
  distinct : ws.Nodup
  free : ∀ w ∈ ws, w ∈ run 3 13 ∧ ∀ card ∈ valueCards pairs hand w, card ∉ excludes
  few : ∀ w ∈ ws, 0 < valueCounts pairs hand w ∧ valueCounts pairs hand w ≤ others
  sum : (ws.map (valueCounts pairs hand)).sum = others * rounds

theorem planeWithKickers_made {others : Nat} {left : List Int → Nat}
    (counts : KickerCounts pairs hand lua others left) {excluded : Int → List Int} {values : List Int}
    (three : ∀ v ∈ values, valueCounts pairs hand v = 3)
    (whole : ∀ v ∈ values, excluded v = valueCards pairs hand v) (excludes : List Int) :
    ∃ ws, (planeWithKickers pairs hand lua others excluded values excludes).Perm
        (values.flatMap (valueCards pairs hand) ++ ws.flatMap (valueCards pairs hand)) ∧
      PlaneKickers pairs hand others excludes (min values.length (left excludes)) ws := by
  induction values generalizing excludes with
  | nil => exact ⟨[], .refl _, .nil, nofun, nofun, by simp⟩
  | cons i rest ih =>
      have rest_three := fun v mem => three v (List.mem_cons_of_mem i mem)
      have rest_whole := fun v mem => whole v (List.mem_cons_of_mem i mem)
      have here : pickExactly pairs hand 3 i [] = valueCards pairs hand i := by
        rw [pickExactly_nil]
        apply List.take_of_length_le
        exact Nat.le_of_eq (three i List.mem_cons_self)
      have kept := counts.triple excludes i (three i List.mem_cons_self)
      have fewer : ∀ {ex more : List Int} {w : Int}, (∀ card ∈ valueCards pairs hand w, card ∉ ex ++ more) →
          ∀ card ∈ valueCards pairs hand w, card ∉ ex :=
        fun apart card mem out => apart card mem (List.mem_append_left _ out)
      rw [planeWithKickers, here, whole i List.mem_cons_self]
      cases found : searchMinCombination pairs hand lua others (excludes ++ valueCards pairs hand i) with
      | none =>
          obtain ⟨ws, perm, kickers⟩ := ih rest_three rest_whole (excludes ++ valueCards pairs hand i)
          have gone := (counts.none _).1 found
          rw [Option.getD_none, List.append_nil, List.append_nil]
          refine ⟨ws, ?_, kickers.distinct, ?_, kickers.few, ?_⟩
          · rw [List.flatMap_cons, List.append_assoc]
            exact perm.append_left _
          · intro w mem
            exact ⟨(kickers.free w mem).1, fewer (kickers.free w mem).2⟩
          · rw [kickers.sum, gone, ← kept, gone, Nat.min_zero, Nat.min_zero]
      | some cards =>
          obtain ⟨comb, mem, ws, one⟩ := searchMin_made found
          have less := counts.less _ comb cards ws mem one
          obtain ⟨sum, positive⟩ := fullCombination_sum others comb mem
          obtain ⟨more, perm, kickers⟩ := ih rest_three rest_whole
            (excludes ++ valueCards pairs hand i ++ cards)
          rw [Option.getD_some]
          have bounds : ∀ w ∈ ws, 0 < valueCounts pairs hand w ∧ valueCounts pairs hand w ≤ others := by
            intro w there
            have count : valueCounts pairs hand w ∈ comb := by
              rw [← one.counts]
              exact List.mem_map_of_mem there
            refine ⟨positive _ count, ?_⟩
            rw [← sum]
            exact List.le_sum_of_mem count
          have apart : ∀ w ∈ ws, ∀ u ∈ more, w ≠ u := by
            rintro w first u second rfl
            obtain ⟨card, there⟩ := List.exists_mem_of_length_pos (bounds w first).1
            apply (kickers.free w second).2 card there
            apply List.mem_append_right
            rw [one.made]
            exact List.mem_flatMap.2 ⟨w, first, there⟩
          refine ⟨ws ++ more, ?_, List.nodup_append.2 ⟨one.distinct, kickers.distinct, apart⟩, ?_, ?_, ?_⟩
          · rw [List.flatMap_cons, List.flatMap_append, ← one.made]
            apply (perm.append_left _).trans
            rw [List.append_assoc, List.append_assoc]
            exact (List.perm_append_comm_assoc _ _ _).append_left _
          · intro w there
            rcases List.mem_append.1 there with first | second
            · exact ⟨(one.free w first).1, fewer (one.free w first).2⟩
            · exact ⟨(kickers.free w second).1, fewer (fewer (kickers.free w second).2)⟩
          · intro w there
            exact (List.mem_append.1 there).elim (bounds w) (kickers.few w)
          · rw [List.map_append, List.sum_append, one.counts, sum, kickers.sum, List.length_cons,
              ← kept, ← less, Nat.add_min_add_right, Nat.mul_succ, Nat.add_comm]

end Planes

end FkServer.Climbing
