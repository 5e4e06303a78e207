import FkServer.Climbing.Grammar
import FkServer.Pdk.Discard

/-!
The combinations of the game with their values, and the lists of cards that `get_cards_type`
takes for a combination without their being one.
-/
namespace FkServer.Pdk

open Climbing

/-! ### The combinations -/

/-- Four suits from the three to the two, of which every deck of the game is a part. -/
def deck : List Int :=
  [0, 20, 40, 60].flatMap fun color : Int => (List.range' 3 13).map fun v : Nat => color + v

/-- Different cards of the deck. -/
structure Cards where
  list : List Int
  distinct : list.Nodup
  dealt : ∀ card ∈ list, card ∈ deck

/-- Triples in a row and kickers, no three of these being equal. -/
structure IsPlane (keys : List Int) (v : Int) (n : Nat) (kickers : List Int) : Prop where
  two : 2 ≤ n
  above : 3 ≤ v
  below : v + n ≤ 15
  perm : keys.Perm ((run v n).flatMap (List.replicate 3) ++ kickers)
  few : ∀ u, kickers.count u ≤ 2

/-- So many equal cards and so many others. -/
def With (keys : List Int) (copies : Nat) (v : Int) (others : Nat) : Prop :=
  ∃ kickers : List Int, kickers.length = others ∧ keys.Perm (List.replicate copies v ++ kickers)

/-- Cards of these values are a combination of the type, its value being `v`. Four cards with
three others are not a plane, even if the others are a triple next to the four. -/
def Legal (keys : List Int) : CardType → Int → Prop
  | .single, v => keys.Perm [v]
  | .double, v => keys.Perm (List.replicate 2 v)
  | .three, v => keys.Perm (List.replicate 3 v)
  | .threeWithOne, v => With keys 3 v 1 ∧ ¬ keys.Perm (List.replicate 4 v)
  | .threeWithTwo, v => With keys 3 v 2
  | .fourWithDouble, v => With keys 4 v 2
  | .fourWithThree, v => With keys 4 v 3
  | .bomb, v => keys.Perm (List.replicate 4 v)
  | .singleLine, v => ∃ n : Nat, 5 ≤ n ∧ 3 ≤ v ∧ v + n ≤ 15 ∧ keys.Perm (run v n)
  | .doubleLine, v => ∃ n : Nat, 2 ≤ n ∧ 3 ≤ v ∧ v + n ≤ 15 ∧
      keys.Perm ((run v n).flatMap (List.replicate 2))
  | .plane, v => ∃ n, IsPlane keys v n []
  | .planeWithOne, v => ∃ n kickers, IsPlane keys v n kickers ∧ kickers.length = n
  | .planeWithTwo, v => ∃ n kickers, IsPlane keys v n kickers ∧ kickers.length = 2 * n
  | .planeWithMix, v => (∃ n kickers, IsPlane keys v n kickers ∧ 0 < kickers.length ∧
      kickers.length < 2 * n ∧ kickers.length ≠ n) ∧ ¬ ∃ w, With keys 4 w 3
  | .missle, _ => False

def Cards.keys (cards : Cards) : List Int := cards.list.map value

theorem Cards.four_le (cards : Cards) (v : Int) : cards.keys.count v ≤ 4 :=
  count_value_le cards.distinct cards.dealt (by decide) v

theorem Cards.three_le (cards : Cards) : ∀ v ∈ cards.keys, 3 ≤ v := by
  intro v mem
  obtain ⟨card, there, rfl⟩ := List.mem_map.1 mem
  have of_deck : ∀ card ∈ deck, 3 ≤ value card := by decide
  exact of_deck card (cards.dealt card there)

/-! ### The first run of triples -/

/-- The lowest values in a row, at least two of them. -/
structure FirstRun (has : Int → Bool) (low : Int) (n : Nat) : Prop where
  two : 2 ≤ n
  above : 3 ≤ low
  below : low + n ≤ 15
  inside : ∀ v ∈ run low n, has v = true
  ends : low + n ≤ 14 → has (low + n) = false
  first : ∀ u, 3 ≤ u → u < low → ¬ (has u = true ∧ has (u + 1) = true)

theorem FirstRun.pair {has : Int → Bool} {low : Int} {n : Nat} (run_ : FirstRun has low n) :
    has low = true ∧ has (low + 1) = true := by
  have two := run_.two
  exact ⟨run_.inside low (mem_run.2 (by omega)), run_.inside (low + 1) (mem_run.2 (by omega))⟩

theorem FirstRun.unique {has : Int → Bool} {low low' : Int} {n n' : Nat}
    (run_ : FirstRun has low n) (run' : FirstRun has low' n') : low = low' ∧ n = n' := by
  have same : low = low' := by
    rcases Int.lt_trichotomy low low' with less | same | more
    · exact absurd run_.pair (run'.first low run_.above less)
    · exact same
    · exact absurd run'.pair (run_.first low' run'.above more)
  subst same
  have not_longer : ∀ {k k' : Nat}, FirstRun has low k → FirstRun has low k' → ¬ k < k' := by
    intro k k' short long less
    have below := long.below
    have there := long.inside (low + k) (mem_run.2 (by omega))
    rw [short.ends (by omega)] at there
    cases there
  have := not_longer run_ run'
  have := not_longer run' run_
  exact ⟨rfl, by omega⟩

/-- From two values on the loop goes on to the end of their run. -/
theorem planeValues_long (has : Int → Bool) (k i : Nat) (values : List Int) (rest : i + k = 15)
    (two : 2 ≤ values.length) :
    ∃ n : Nat, planeValues has values (valuesFrom i) = values ++ run i n ∧ (i : Int) + n ≤ 15 ∧
      (∀ v ∈ run i n, has v = true) ∧ ((i : Int) + n ≤ 14 → has (i + n) = false) := by
  induction k generalizing i values with
  | zero =>
      have last : i = 15 := by omega
      rw [last]
      exact ⟨0, (List.append_nil values).symm, by decide, nofun, fun within => by omega⟩
  | succ k ih =>
      rw [valuesFrom_cons (by omega), planeValues]
      cases there : has i with
      | true =>
          obtain ⟨n, same, within, inside, ends⟩ := ih (i + 1) (values ++ [(i : Int)]) (by omega)
            (by rw [List.length_append]; omega)
          refine ⟨n + 1, ?_, by omega, ?_, ?_⟩
          · rw [if_pos rfl, same, List.append_assoc]
            rw [run_cons]
            rfl
          · intro v mem
            rw [mem_run] at mem
            by_cases start : v = i
            · rw [start]
              exact there
            · exact inside v (mem_run.2 (by omega))
          · intro low
            have found := ends (by omega)
            rw [show ((i + 1 : Nat) : Int) + n = i + (n + 1 : Nat) by omega] at found
            exact found
      | false =>
          refine ⟨0, ?_, by omega, nofun, fun _ => by simpa using there⟩
          rw [if_neg (by decide), if_neg (by omega), if_pos (by omega)]
          exact (List.append_nil values).symm

/-- A scan from `i` on ends with the first run of two or more or, without two neighbours, with
at most one value. -/
def PlaneEnds (has : Int → Bool) (i : Nat) (result : List Int) : Prop :=
  (∃ (low : Int) (n : Nat), i ≤ low ∧ 2 ≤ n ∧ low + n ≤ 15 ∧ (∀ v ∈ run low n, has v = true) ∧
      (low + n ≤ 14 → has (low + n) = false) ∧
      (∀ u, (i : Int) ≤ u → u < low → ¬ (has u = true ∧ has (u + 1) = true)) ∧
      result = run low n) ∨
    (∀ u, (i : Int) ≤ u → u ≤ 13 → ¬ (has u = true ∧ has (u + 1) = true)) ∧ result.length ≤ 1

theorem PlaneEnds.earlier {has : Int → Bool} {i : Nat} {result : List Int}
    (no_pair : ¬ (has i = true ∧ has (i + 1) = true)) (ends : PlaneEnds has (i + 1) result) :
    PlaneEnds has i result := by
  have back : ∀ u : Int, (i : Int) ≤ u →
      (((i + 1 : Nat) : Int) ≤ u → ¬ (has u = true ∧ has (u + 1) = true)) →
      ¬ (has u = true ∧ has (u + 1) = true) := by
    intro u at_least later
    by_cases start : u = i
    · rw [start]
      exact no_pair
    · exact later (by omega)
  rcases ends with ⟨low, n, above, two, below, inside, last, lowest, same⟩ | ⟨none_found, short⟩
  · refine .inl ⟨low, n, by omega, two, below, inside, last, ?_, same⟩
    intro u at_least under
    exact back u at_least fun above => lowest u above under
  · refine .inr ⟨?_, short⟩
    intro u at_least under
    exact back u at_least fun above => none_found u above under

theorem planeValues_ends (has : Int → Bool) (k i : Nat) (rest : i + k = 15) :
    PlaneEnds has i (planeValues has [] (valuesFrom i)) := by
  induction k generalizing i with
  | zero =>
      have last : i = 15 := by omega
      rw [last]
      exact .inr ⟨fun u _ _ => by omega, Nat.zero_le 1⟩
  | succ k ih =>
      have next := ih (i + 1) (by omega)
      rw [valuesFrom_cons (by omega), planeValues]
      cases there : has i with
      | false =>
          rw [if_neg (by decide), if_neg (by decide), if_neg (by decide)]
          exact next.earlier fun pair => by simp [there] at pair
      | true =>
          rw [if_pos rfl, List.nil_append]
          rcases Nat.eq_zero_or_pos k with rfl | pos
          · have last : i + 1 = 15 := by omega
            rw [last]
            exact .inr ⟨fun u _ _ => by omega, Nat.le_refl 1⟩
          · rw [valuesFrom_cons (by omega : i + 1 < 15), planeValues] at next ⊢
            cases second : has ((i + 1 : Nat) : Int) with
            | false =>
                rw [second] at next
                rw [if_neg (by decide), if_neg (by decide), if_neg (by decide)] at next
                rw [if_neg (by decide), if_pos (by rfl)]
                refine next.earlier fun pair => ?_
                have := pair.2
                rw [Int.natCast_succ] at second
                simp [second] at this
            | true =>
                rw [if_pos rfl]
                obtain ⟨n, same, within, inside, ends⟩ := planeValues_long has (k - 1) (i + 2)
                  ([(i : Int)] ++ [((i + 1 : Nat) : Int)]) (by omega) (by simp)
                refine .inl ⟨i, n + 2, by omega, by omega, by omega, ?_, ?_, fun u _ _ => by omega, ?_⟩
                · intro v mem
                  rw [mem_run] at mem
                  by_cases first : v = i
                  · rw [first]
                    exact there
                  · by_cases after : v = (i + 1 : Nat)
                    · rw [after]
                      exact second
                    · exact inside v (mem_run.2 (by omega))
                · intro low
                  have found := ends (by omega)
                  rw [show ((i + 2 : Nat) : Int) + n = i + (n + 2 : Nat) by omega] at found
                  exact found
                · rw [same, run_cons, run_cons, add_assoc]
                  rfl

/-- The loop finds the first run, and one value at most if there is none. -/
theorem planeValues_firstRun (has : Int → Bool) :
    (∃ low n, FirstRun has low n ∧ planeValues has [] (valuesFrom 3) = run low n) ∨
      (∀ low n, ¬ FirstRun has low n) ∧ (planeValues has [] (valuesFrom 3)).length ≤ 1 := by
  rcases planeValues_ends has 12 3 rfl with
    ⟨low, n, above, two, below, inside, ends, first, same⟩ | ⟨none_found, short⟩
  · exact .inl ⟨low, n, ⟨two, above, below, inside, ends, first⟩, same⟩
  · refine .inr ⟨?_, short⟩
    intro low n run_
    have two := run_.two
    have below := run_.below
    exact none_found low run_.above (by omega) run_.pair

theorem FirstRun.values {has : Int → Bool} {low : Int} {n : Nat} (run_ : FirstRun has low n) :
    planeValues has [] (valuesFrom 3) = run low n := by
  rcases planeValues_firstRun has with ⟨low', n', other, same⟩ | ⟨none, _⟩
  · obtain ⟨rfl, rfl⟩ := run_.unique other
    exact same
  · exact absurd run_ (none low n)

/-! ### What is found -/

/-- Three or four cards of the value. -/
def tripled (keys : List Int) (v : Int) : Bool := keys.count v = 3 ∨ keys.count v = 4

/-- The values from a lowest one on that has a neighbour. -/
structure ScannedFrom (values : List Int) (low : Int) : Prop where
  first : low ∈ values
  second : low + 1 ∈ values
  within : ∀ v ∈ values, low ≤ v ∧ v ≤ 14

/-- The type and the value that the numbers of equal cards give. -/
def Found (keys : List Int) : CardType → Int → Prop
  | .single, v => keys = [v]
  | .double, v => keys.count v = 2 ∧ keys.length = 2
  | .three, v => keys.count v = 3 ∧ keys.length = 3
  | .threeWithOne, v => keys.count v = 3 ∧ keys.length = 4
  | .threeWithTwo, v => 3 ≤ keys.count v ∧ keys.length = 5
  | .fourWithDouble, v => keys.count v = 4 ∧ keys.length = 6
  | .fourWithThree, v => keys.count v = 4 ∧ keys.length = 7
  | .bomb, v => keys.count v = 4 ∧ keys.length = 4
  | .singleLine, v => ScannedFrom (valuesOf keys 1) v ∧ 5 ≤ countCounts keys 1 ∧
      countCounts keys 3 + countCounts keys 4 ≤ 1
  | .doubleLine, v => ScannedFrom (valuesOf keys 2) v ∧ keys.length = 2 * countCounts keys 2
  | .plane, v => ∃ n, FirstRun (tripled keys) v n ∧ keys.length = 3 * n
  | .planeWithOne, v => ∃ n, FirstRun (tripled keys) v n ∧ keys.length = 4 * n
  | .planeWithTwo, v => ∃ n, FirstRun (tripled keys) v n ∧ keys.length = 5 * n
  | .planeWithMix, v => (∃ n, FirstRun (tripled keys) v n ∧ 3 * n < keys.length ∧
      keys.length < 5 * n ∧ keys.length ≠ 4 * n) ∧
      ¬ (countCounts keys 4 = 1 ∧ keys.length = 7)
  | .missle, _ => False

section Numbers

variable {pairs : List Int → List Int} (same : ∀ values, (pairs values).Perm values)
  (cards : Cards)

theorem Cards.total : cards.keys.length = countCounts cards.keys 1 + 2 * countCounts cards.keys 2 +
    3 * countCounts cards.keys 3 + 4 * countCounts cards.keys 4 :=
  length_eq_counts cards.four_le

theorem scannedFrom_iff {n : Nat} (pos : 0 < n) (v : Int) : ScannedFrom (valuesOf cards.keys n) v ↔
    (2 ≤ (maxContinuityCards fun i => cards.keys.count i = n).length ∧
      (maxContinuityCards fun i => cards.keys.count i = n).length = countCounts cards.keys n) ∧
        (maxContinuityCards fun i => cards.keys.count i = n).headD 0 = v := by
  have head : ∀ low, ScannedFrom (valuesOf cards.keys n) low →
      (maxContinuityCards fun i => cards.keys.count i = n).headD 0 = low := by
    intro low scanned
    have first := (mem_valuesOf pos).1 scanned.first
    have second := (mem_valuesOf pos).1 scanned.second
    apply scan_head (cards.three_le low (List.count_pos_iff.1 (by omega)))
    · exact decide_eq_true first
    · exact decide_eq_true second
    · have := (scanned.within _ scanned.second).2
      omega
    · intro u _ less
      apply decide_eq_false
      intro times
      have := (scanned.within u ((mem_valuesOf pos).2 times)).1
      omega
  rw [← scanned_iff_scan pos cards.three_le]
  constructor
  · intro scanned
    exact ⟨⟨v, scanned.first, scanned.second, scanned.within⟩, head v scanned⟩
  · rintro ⟨⟨low, first, second, within⟩, found⟩
    have scanned : ScannedFrom (valuesOf cards.keys n) low := ⟨first, second, within⟩
    rw [head low scanned] at found
    rw [← found]
    exact scanned

include same

theorem fourType_iff (kind : CardType) (v : Int) :
    fourType (countCounts cards.keys) (countValue pairs cards.keys) cards.keys.length = some (kind, v) ↔
      (cards.keys.count v = 4 ∧ countCounts cards.keys 4 = 1) ∧
        (kind = .fourWithDouble ∧ cards.keys.length = 6 ∨
          kind = .fourWithThree ∧ cards.keys.length = 7 ∨
          kind = .bomb ∧ cards.keys.length = 4 ∨ kind = .threeWithTwo ∧ cards.keys.length = 5) := by
  have total := cards.total
  constructor
  · intro found
    unfold fourType at found
    split at found
    · cases found
    · rename_i one
      have times := countValue_count same (by decide : 0 < 4)
        (by omega : 0 < countCounts cards.keys 4)
      split at found
      · cases found
        exact ⟨⟨times, by omega⟩, .inl ⟨rfl, by omega⟩⟩
      · split at found
        · cases found
          exact ⟨⟨times, by omega⟩, .inr (.inl ⟨rfl, by omega⟩)⟩
        · split at found
          · cases found
            exact ⟨⟨times, by omega⟩, .inr (.inr (.inl ⟨rfl, by omega⟩))⟩
          · split at found
            · cases found
              exact ⟨⟨times, by omega⟩, .inr (.inr (.inr ⟨rfl, by omega⟩))⟩
            · cases found
  · rintro ⟨⟨times, one⟩, which⟩
    rw [fourType, if_neg (not_not.2 one), countValue_eq same (by decide) one times]
    rcases which with ⟨rfl, length⟩ | ⟨rfl, length⟩ | ⟨rfl, length⟩ | ⟨rfl, length⟩
    · rw [if_pos (by omega)]
    · rw [if_neg (by omega), if_pos (by omega)]
    · rw [if_neg (by omega), if_neg (by omega), if_pos (by omega)]
    · rw [if_neg (by omega), if_neg (by omega), if_neg (by omega), if_pos (by omega)]

theorem threeType_iff (kind : CardType) (v : Int) :
    threeType (countCounts cards.keys) (countValue pairs cards.keys) cards.keys.length = some (kind, v) ↔
      (cards.keys.count v = 3 ∧ countCounts cards.keys 3 = 1) ∧
        (kind = .threeWithTwo ∧ cards.keys.length = 5 ∨
          kind = .threeWithOne ∧ cards.keys.length = 4 ∨
          kind = .three ∧ cards.keys.length = 3) := by
  have total := cards.total
  constructor
  · intro found
    unfold threeType at found
    split at found
    · cases found
    · rename_i one
      have times := countValue_count same (by decide : 0 < 3)
        (by omega : 0 < countCounts cards.keys 3)
      split at found
      · cases found
        exact ⟨⟨times, by omega⟩, .inl ⟨rfl, by omega⟩⟩
      · split at found
        · cases found
          exact ⟨⟨times, by omega⟩, .inr (.inl ⟨rfl, by omega⟩)⟩
        · split at found
          · cases found
            exact ⟨⟨times, by omega⟩, .inr (.inr ⟨rfl, by omega⟩)⟩
          · cases found
  · rintro ⟨⟨times, one⟩, which⟩
    rw [threeType, if_neg (not_not.2 one), countValue_eq same (by decide) one times]
    rcases which with ⟨rfl, length⟩ | ⟨rfl, length⟩ | ⟨rfl, length⟩
    · rw [if_pos (by omega)]
    · rw [if_neg (by omega), if_pos (by omega)]
    · rw [if_neg (by omega), if_neg (by omega), if_pos (by omega)]

theorem doubleType_iff (kind : CardType) (v : Int) :
    doubleType cards.keys (countValue pairs cards.keys) cards.keys.length = some (kind, v) ↔
      kind = .double ∧ Found cards.keys .double v ∨
        kind = .doubleLine ∧ Found cards.keys .doubleLine v := by
  have total := cards.total
  have scan := scannedFrom_iff cards (by decide : 0 < 2)
  simp only [Found]
  constructor
  · intro found
    unfold doubleType at found
    simp only [] at found
    split at found
    · rename_i pair
      cases found
      exact .inl ⟨rfl, countValue_count same (by decide) (by omega), pair.2⟩
    · split at found
      · rename_i line
        cases found
        refine .inr ⟨rfl, (scan _).2 ⟨⟨line.2.1, line.2.2.1⟩, rfl⟩, by omega⟩
      · cases found
  · rintro (⟨rfl, times, two⟩ | ⟨rfl, scanned, all⟩)
    · have some_pair := countCounts_pos (by decide : 0 < 2) times
      have one : countCounts cards.keys 2 = 1 := by omega
      unfold doubleType
      simp only []
      rw [if_pos ⟨one, two⟩, countValue_eq same (by decide) one times]
    · have line := (scan v).1 scanned
      unfold doubleType
      simp only []
      rw [if_neg (by omega), if_pos ⟨by omega, line.1.1, line.1.2, by omega⟩, line.2]

omit same in
theorem singleLine_iff (kind : CardType) (v : Int) :
    singleLine cards.keys = some (kind, v) ↔
      kind = .singleLine ∧ ScannedFrom (valuesOf cards.keys 1) v ∧ 5 ≤ countCounts cards.keys 1 := by
  have scan := scannedFrom_iff cards (by decide : 0 < 1)
  constructor
  · intro found
    unfold singleLine at found
    simp only [] at found
    split at found
    · rename_i line
      cases found
      exact ⟨rfl, (scan _).2 ⟨⟨by omega, line.2.2⟩, rfl⟩, line.1⟩
    · cases found
  · rintro ⟨rfl, scanned, five⟩
    have line := (scan v).1 scanned
    unfold singleLine
    simp only []
    rw [if_pos ⟨five, by omega, line.1.2⟩, line.2]

omit same in
theorem planeType_iff (values : List Int) (count : Nat) (kind : CardType) (v : Int) :
    planeType values count = some (kind, v) ↔ (2 ≤ values.length ∧ values.headD 0 = v) ∧
      (kind = .plane ∧ count = 3 * values.length ∨ kind = .planeWithOne ∧ count = 4 * values.length ∨
        kind = .planeWithTwo ∧ count = 5 * values.length ∨
        kind = .planeWithMix ∧ 3 * values.length < count ∧ count < 5 * values.length ∧
          count ≠ 4 * values.length) := by
  constructor
  · intro found
    unfold planeType at found
    split at found
    · cases found
    · split at found
      · cases found
        exact ⟨⟨by omega, rfl⟩, .inl ⟨rfl, by omega⟩⟩
      · split at found
        · cases found
          exact ⟨⟨by omega, rfl⟩, .inr (.inl ⟨rfl, by omega⟩)⟩
        · split at found
          · cases found
            exact ⟨⟨by omega, rfl⟩, .inr (.inr (.inl ⟨rfl, by omega⟩))⟩
          · split at found
            · cases found
              exact ⟨⟨by omega, rfl⟩, .inr (.inr (.inr ⟨rfl, by omega⟩))⟩
            · cases found
  · rintro ⟨⟨two, head⟩, which⟩
    rw [planeType, if_neg (by omega), head]
    rcases which with ⟨rfl, length⟩ | ⟨rfl, length⟩ | ⟨rfl, length⟩ | ⟨rfl, more, less, other⟩
    · rw [if_pos (by omega)]
    · rw [if_neg (by omega), if_pos (by omega)]
    · rw [if_neg (by omega), if_neg (by omega), if_pos (by omega)]
    · rw [if_neg (by omega), if_neg (by omega), if_neg (by omega), if_pos (by omega)]

omit same in
theorem tripled_iff {v : Int} :
    tripled cards.keys v = true ↔ v ∈ valuesOf cards.keys 3 ++ valuesOf cards.keys 4 := by
  rw [List.mem_append, mem_valuesOf (by decide), mem_valuesOf (by decide), tripled, decide_eq_true_eq]

omit same in
/-- The values of a run are among those that occur three or four times. -/
theorem run_le {v : Int} {n : Nat} (row : FirstRun (tripled cards.keys) v n) :
    n ≤ countCounts cards.keys 3 + countCounts cards.keys 4 := by
  have inside : (run v n).Subperm (valuesOf cards.keys 3 ++ valuesOf cards.keys 4) := by
    apply List.subperm_of_subset (run_nodup v n)
    intro u mem
    exact (tripled_iff cards).1 (row.inside u mem)
  have le := inside.length_le
  rw [run_length, List.length_append] at le
  exact le

omit same in
theorem planes_iff (count : Nat) (kind : CardType) (v : Int) :
    planeType (planeValues (tripled cards.keys) [] (valuesFrom 3)) count = some (kind, v) ↔
      ∃ n, FirstRun (tripled cards.keys) v n ∧
        (kind = .plane ∧ count = 3 * n ∨ kind = .planeWithOne ∧ count = 4 * n ∨
          kind = .planeWithTwo ∧ count = 5 * n ∨
          kind = .planeWithMix ∧ 3 * n < count ∧ count < 5 * n ∧ count ≠ 4 * n) := by
  rw [planeType_iff]
  constructor
  · rintro ⟨⟨two, head⟩, which⟩
    rcases planeValues_firstRun (tripled cards.keys) with ⟨low, n, row, found⟩ | ⟨_, short⟩
    · obtain ⟨m, rfl⟩ : ∃ m, n = m + 1 := ⟨n - 1, by have := row.two; omega⟩
      rw [found, run_length] at which
      rw [found, run_cons, List.headD_cons] at head
      rw [← head]
      exact ⟨m + 1, row, which⟩
    · omega
  · rintro ⟨n, row, which⟩
    have two := row.two
    obtain ⟨m, rfl⟩ : ∃ m, n = m + 1 := ⟨n - 1, by omega⟩
    rw [row.values, run_length]
    refine ⟨⟨two, ?_⟩, which⟩
    rw [run_cons, List.headD_cons]

theorem fourType_eq_none :
    fourType (countCounts cards.keys) (countValue pairs cards.keys) cards.keys.length = none ↔
      ¬ (countCounts cards.keys 4 = 1 ∧ 4 ≤ cards.keys.length ∧ cards.keys.length ≤ 7) := by
  have typed := fourType_iff same cards
  constructor
  · rintro none ⟨one, four, seven⟩
    rw [none] at typed
    have times := countValue_count same (by decide : 0 < 4)
      (by omega : 0 < countCounts cards.keys 4)
    obtain length | length | length | length : cards.keys.length = 6 ∨ cards.keys.length = 7 ∨
      cards.keys.length = 4 ∨ cards.keys.length = 5 := by omega
    · cases (typed .fourWithDouble _).2 ⟨⟨times, one⟩, .inl ⟨rfl, length⟩⟩
    · cases (typed .fourWithThree _).2 ⟨⟨times, one⟩, .inr (.inl ⟨rfl, length⟩)⟩
    · cases (typed .bomb _).2 ⟨⟨times, one⟩, .inr (.inr (.inl ⟨rfl, length⟩))⟩
    · cases (typed .threeWithTwo _).2 ⟨⟨times, one⟩, .inr (.inr (.inr ⟨rfl, length⟩))⟩
  · intro not_four
    apply Option.eq_none_iff_forall_ne_some.2
    rintro ⟨kind, v⟩ found
    have which := (typed kind v).1 found
    omega

theorem threeType_eq_none :
    threeType (countCounts cards.keys) (countValue pairs cards.keys) cards.keys.length = none ↔
      ¬ (countCounts cards.keys 3 = 1 ∧ 3 ≤ cards.keys.length ∧ cards.keys.length ≤ 5) := by
  have typed := threeType_iff same cards
  constructor
  · rintro none ⟨one, three, five⟩
    rw [none] at typed
    have times := countValue_count same (by decide : 0 < 3)
      (by omega : 0 < countCounts cards.keys 3)
    obtain length | length | length : cards.keys.length = 5 ∨ cards.keys.length = 4 ∨
      cards.keys.length = 3 := by omega
    · cases (typed .threeWithTwo _).2 ⟨⟨times, one⟩, .inl ⟨rfl, length⟩⟩
    · cases (typed .threeWithOne _).2 ⟨⟨times, one⟩, .inr (.inl ⟨rfl, length⟩)⟩
    · cases (typed .three _).2 ⟨⟨times, one⟩, .inr (.inr ⟨rfl, length⟩)⟩
  · intro not_three
    apply Option.eq_none_iff_forall_ne_some.2
    rintro ⟨kind, v⟩ found
    have which := (typed kind v).1 found
    omega

omit same in
theorem cardsType_more (not_one : cards.list.length ≠ 1) : cardsType pairs cards.list =
    (fourType (countCounts cards.keys) (countValue pairs cards.keys) cards.keys.length).or
      ((threeType (countCounts cards.keys) (countValue pairs cards.keys) cards.keys.length).or
        (if 1 < countCounts cards.keys 3 + countCounts cards.keys 4 then
          planeType (planeValues (tripled cards.keys) [] (valuesFrom 3)) cards.keys.length
        else
          (doubleType cards.keys (countValue pairs cards.keys) cards.keys.length).or
            (singleLine cards.keys))) := by
  have length : cards.keys.length = cards.list.length := List.length_map _
  unfold cardsType
  split
  · rename_i single
    rw [single] at not_one
    exact absurd rfl not_one
  · rw [length]
    rfl

/-- What is found for two cards or more. -/
theorem found_of_type (not_one : cards.list.length ≠ 1) {kind : CardType} {v : Int}
    (found : cardsType pairs cards.list = some (kind, v)) : Found cards.keys kind v := by
  have total := cards.total
  rw [cardsType_more cards not_one, Option.or_eq_some_iff, Option.or_eq_some_iff] at found
  rcases found with four | ⟨no_four, three | ⟨no_three, others⟩⟩
  · obtain ⟨⟨times, _⟩, which⟩ := (fourType_iff same cards kind v).1 four
    rcases which with ⟨rfl, length⟩ | ⟨rfl, length⟩ | ⟨rfl, length⟩ | ⟨rfl, length⟩
    · exact ⟨times, length⟩
    · exact ⟨times, length⟩
    · exact ⟨times, length⟩
    · exact ⟨by omega, length⟩
  · obtain ⟨⟨times, _⟩, which⟩ := (threeType_iff same cards kind v).1 three
    rcases which with ⟨rfl, length⟩ | ⟨rfl, length⟩ | ⟨rfl, length⟩
    · exact ⟨by omega, length⟩
    · exact ⟨times, length⟩
    · exact ⟨times, length⟩
  · split at others
    · obtain ⟨n, row, which⟩ := (planes_iff cards _ kind v).1 others
      have not_four := (fourType_eq_none same cards).1 no_four
      rcases which with ⟨rfl, length⟩ | ⟨rfl, length⟩ | ⟨rfl, length⟩ | ⟨rfl, length⟩
      · exact ⟨n, row, length⟩
      · exact ⟨n, row, length⟩
      · exact ⟨n, row, length⟩
      · exact ⟨⟨n, row, length⟩, by omega⟩
    · rename_i few
      rcases Option.or_eq_some_iff.1 others with doubles | ⟨_, singles⟩
      · rcases (doubleType_iff same cards kind v).1 doubles with ⟨rfl, found⟩ | ⟨rfl, found⟩
        · exact found
        · exact found
      · obtain ⟨rfl, scanned, five⟩ := (singleLine_iff cards kind v).1 singles
        exact ⟨scanned, five, by omega⟩

/-- The numbers of equal cards decide the type of two cards or more. -/
theorem type_of_found (not_one : cards.list.length ≠ 1) {kind : CardType} {v : Int}
    (found : Found cards.keys kind v) : cardsType pairs cards.list = some (kind, v) := by
  have total := cards.total
  have length : cards.keys.length = cards.list.length := List.length_map _
  have four_le := cards.four_le v
  have no_four := fourType_eq_none same cards
  have no_three := threeType_eq_none same cards
  have pos : ∀ {n : Nat}, 0 < n → cards.keys.count v = n → 0 < countCounts cards.keys n :=
    fun positive times => countCounts_pos positive times
  rw [cardsType_more cards not_one]
  have of_four : (cards.keys.count v = 4 ∧ countCounts cards.keys 4 = 1) ∧
      (kind = .fourWithDouble ∧ cards.keys.length = 6 ∨
        kind = .fourWithThree ∧ cards.keys.length = 7 ∨
        kind = .bomb ∧ cards.keys.length = 4 ∨ kind = .threeWithTwo ∧ cards.keys.length = 5) →
      ∀ other, (fourType (countCounts cards.keys) (countValue pairs cards.keys)
        cards.keys.length).or other = some (kind, v) := by
    intro which other
    rw [(fourType_iff same cards kind v).2 which]
    rfl
  have of_three : (cards.keys.count v = 3 ∧ countCounts cards.keys 3 = 1) ∧
      (kind = .threeWithTwo ∧ cards.keys.length = 5 ∨
        kind = .threeWithOne ∧ cards.keys.length = 4 ∨ kind = .three ∧ cards.keys.length = 3) →
      ∀ other, (fourType (countCounts cards.keys) (countValue pairs cards.keys)
        cards.keys.length).or ((threeType (countCounts cards.keys) (countValue pairs cards.keys)
          cards.keys.length).or other) = some (kind, v) := by
    intro which other
    rw [no_four.2 (by omega), (threeType_iff same cards kind v).2 which]
    rfl
  have of_plane : ∀ n, FirstRun (tripled cards.keys) v n →
      (kind = .plane ∧ cards.keys.length = 3 * n ∨ kind = .planeWithOne ∧ cards.keys.length = 4 * n ∨
        kind = .planeWithTwo ∧ cards.keys.length = 5 * n ∨
        kind = .planeWithMix ∧ 3 * n < cards.keys.length ∧ cards.keys.length < 5 * n ∧
          cards.keys.length ≠ 4 * n) →
      ¬ (countCounts cards.keys 4 = 1 ∧ cards.keys.length = 7) →
      (fourType (countCounts cards.keys) (countValue pairs cards.keys) cards.keys.length).or
      ((threeType (countCounts cards.keys) (countValue pairs cards.keys) cards.keys.length).or
        (if 1 < countCounts cards.keys 3 + countCounts cards.keys 4 then
          planeType (planeValues (tripled cards.keys) [] (valuesFrom 3)) cards.keys.length
        else
          (doubleType cards.keys (countValue pairs cards.keys) cards.keys.length).or
            (singleLine cards.keys))) = some (kind, v) := by
    intro n row which not_four
    have le := run_le cards row
    have two := row.two
    rw [no_four.2 (by omega), no_three.2 (by omega), if_pos (by omega)]
    exact (planes_iff cards _ kind v).2 ⟨n, row, which⟩
  cases kind with
  | single =>
      have one := congrArg List.length (found : cards.keys = [v])
      rw [length] at one
      exact absurd one not_one
  | double =>
      obtain ⟨times, two⟩ := found
      have := pos (by decide) times
      rw [no_four.2 (by omega), no_three.2 (by omega), if_neg (by omega),
        (doubleType_iff same cards .double v).2 (.inl ⟨rfl, times, two⟩)]
      rfl
  | three =>
      obtain ⟨times, count⟩ := found
      have := pos (by decide) times
      exact of_three ⟨⟨times, by omega⟩, .inr (.inr ⟨rfl, count⟩)⟩ _
  | threeWithOne =>
      obtain ⟨times, count⟩ := found
      have := pos (by decide) times
      exact of_three ⟨⟨times, by omega⟩, .inr (.inl ⟨rfl, count⟩)⟩ _
  | threeWithTwo =>
      obtain ⟨enough, five⟩ := found
      obtain times | times : cards.keys.count v = 3 ∨ cards.keys.count v = 4 := by omega
      · have := pos (by decide) times
        exact of_three ⟨⟨times, by omega⟩, .inl ⟨rfl, five⟩⟩ _
      · have := pos (by decide) times
        exact of_four ⟨⟨times, by omega⟩, .inr (.inr (.inr ⟨rfl, five⟩))⟩ _
  | fourWithDouble =>
      obtain ⟨times, count⟩ := found
      have := pos (by decide) times
      exact of_four ⟨⟨times, by omega⟩, .inl ⟨rfl, count⟩⟩ _
  | fourWithThree =>
      obtain ⟨times, count⟩ := found
      have := pos (by decide) times
      exact of_four ⟨⟨times, by omega⟩, .inr (.inl ⟨rfl, count⟩)⟩ _
  | bomb =>
      obtain ⟨times, count⟩ := found
      have := pos (by decide) times
      exact of_four ⟨⟨times, by omega⟩, .inr (.inr (.inl ⟨rfl, count⟩))⟩ _
  | doubleLine =>
      have all := found.2
      have some_pair := ((scannedFrom_iff cards (by decide : 0 < 2) v).1 found.1).1
      rw [no_four.2 (by omega), no_three.2 (by omega), if_neg (by omega),
        (doubleType_iff same cards .doubleLine v).2 (.inr ⟨rfl, found⟩)]
      rfl
  | singleLine =>
      obtain ⟨scanned, five, few⟩ := found
      have no_double : doubleType cards.keys (countValue pairs cards.keys) cards.keys.length = none := by
        apply Option.eq_none_iff_forall_ne_some.2
        rintro ⟨kind, u⟩ doubles
        rcases (doubleType_iff same cards kind u).1 doubles with ⟨_, _, two⟩ | ⟨_, _, all⟩
        · omega
        · omega
      rw [no_four.2 (by omega), no_three.2 (by omega), if_neg (by omega), no_double,
        (singleLine_iff cards .singleLine v).2 ⟨rfl, scanned, five⟩]
      rfl
  | plane =>
      obtain ⟨n, row, count⟩ := found
      exact of_plane n row (.inl ⟨rfl, count⟩) (by omega)
  | planeWithOne =>
      obtain ⟨n, row, count⟩ := found
      exact of_plane n row (.inr (.inl ⟨rfl, count⟩)) (by omega)
  | planeWithTwo =>
      obtain ⟨n, row, count⟩ := found
      exact of_plane n row (.inr (.inr (.inl ⟨rfl, count⟩))) (by omega)
  | planeWithMix =>
      obtain ⟨⟨n, row, count⟩, not_four⟩ := found
      exact of_plane n row (.inr (.inr (.inr ⟨rfl, count⟩))) not_four
  | missle => exact found.elim

end Numbers

/-! ### Combinations are found -/

section Legal

variable (cards : Cards)

theorem With.count_le {keys : List Int} {copies others : Nat} {v : Int} (made : With keys copies v others) :
    copies ≤ keys.count v ∧ keys.length = copies + others := by
  obtain ⟨kickers, many, perm⟩ := made
  rw [perm.count_eq, perm.length_eq, List.count_append, List.count_replicate_self,
    List.length_append, List.length_replicate, many]
  exact ⟨Nat.le_add_right _ _, rfl⟩

theorem with_of_count {keys : List Int} {copies others : Nat} {v : Int} (enough : copies ≤ keys.count v)
    (length : keys.length = copies + others) : With keys copies v others := by
  obtain ⟨kickers, perm⟩ := exists_rest enough
  refine ⟨kickers, ?_, perm⟩
  rw [perm.length_eq, List.length_append, List.length_replicate] at length
  omega

theorem perm_replicate_iff {keys : List Int} {n : Nat} {v : Int} :
    keys.Perm (List.replicate n v) ↔ keys.count v = n ∧ keys.length = n := by
  constructor
  · intro perm
    rw [perm.count_eq, perm.length_eq, List.count_replicate_self, List.length_replicate]
    exact ⟨rfl, rfl⟩
  · rintro ⟨times, length⟩
    have all := List.count_eq_length.1 (times.trans length.symm)
    rw [List.eq_replicate_iff.2 ⟨length, fun u mem => (all u mem).symm⟩]

namespace IsPlane

variable {cards} {v : Int} {n : Nat} {kickers : List Int}

theorem length (plane : IsPlane cards.keys v n kickers) :
    cards.keys.length = 3 * n + kickers.length := by
  rw [plane.perm.length_eq, List.length_append, List.length_flatMap]
  simp [Nat.mul_comm]

theorem tripled_iff (plane : IsPlane cards.keys v n kickers) (u : Int) :
    tripled cards.keys u = true ↔ u ∈ run v n := by
  have count : cards.keys.count u = (if u ∈ run v n then 3 else 0) + kickers.count u := by
    rw [plane.perm.count_eq, List.count_append, count_each (run_nodup v n)]
  have four := cards.four_le u
  have few := plane.few u
  rw [tripled, decide_eq_true_eq]
  split at count
  · rename_i inside
    exact iff_of_true (by omega) inside
  · rename_i outside
    exact iff_of_false (by omega) outside

theorem firstRun (plane : IsPlane cards.keys v n kickers) : FirstRun (tripled cards.keys) v n := by
  refine ⟨plane.two, plane.above, plane.below, fun u mem => (plane.tripled_iff u).2 mem, ?_, ?_⟩
  · intro _
    apply Bool.eq_false_iff.2
    intro there
    have := mem_run.1 ((plane.tripled_iff _).1 there)
    omega
  · rintro u _ less ⟨there, _⟩
    have := mem_run.1 ((plane.tripled_iff u).1 there)
    omega

end IsPlane

/-- Values in a row, each of them so many times, are all the cards. -/
theorem line_numbers {n k : Nat} (pos : 0 < k) {v : Int} (two : 2 ≤ n) (within : v + n ≤ 15)
    (perm : cards.keys.Perm ((run v n).flatMap (List.replicate k))) :
    ScannedFrom (valuesOf cards.keys k) v ∧ countCounts cards.keys k = n ∧
      cards.keys.length = k * n := by
  obtain ⟨row, _⟩ := (each_iff pos (run_nodup v n)).1 perm
  have mem : ∀ u, u ∈ valuesOf cards.keys k ↔ v ≤ u ∧ u < v + n := by
    intro u
    rw [← row.mem_iff, mem_run]
  refine ⟨⟨(mem v).2 (by omega), (mem (v + 1)).2 (by omega), ?_⟩, ?_, ?_⟩
  · intro u there
    have := (mem u).1 there
    omega
  · rw [countCounts, ← row.length_eq, run_length]
  · rw [perm.length_eq, List.length_flatMap]
    simp [Nat.mul_comm]

theorem flatMap_one (row : List Int) : row.flatMap (List.replicate 1) = row :=
  List.flatMap_singleton' row

theorem found_of_legal {kind : CardType} {v : Int} (legal : Legal cards.keys kind v) :
    Found cards.keys kind v := by
  have total := cards.total
  have four := cards.four_le v
  cases kind with
  | single => exact List.perm_singleton.1 legal
  | double => exact perm_replicate_iff.1 legal
  | three => exact perm_replicate_iff.1 legal
  | bomb => exact perm_replicate_iff.1 legal
  | threeWithOne =>
      obtain ⟨made, not_four⟩ := legal
      obtain ⟨enough, length⟩ := made.count_le
      refine ⟨?_, length⟩
      by_contra other
      exact not_four (perm_replicate_iff.2 ⟨by omega, length⟩)
  | threeWithTwo => exact With.count_le legal
  | fourWithDouble =>
      obtain ⟨enough, length⟩ := With.count_le legal
      exact ⟨by omega, length⟩
  | fourWithThree =>
      obtain ⟨enough, length⟩ := With.count_le legal
      exact ⟨by omega, length⟩
  | singleLine =>
      obtain ⟨n, five, above, below, perm⟩ := legal
      rw [← flatMap_one (run v n)] at perm
      obtain ⟨scanned, count, length⟩ := line_numbers cards (by decide) (by omega) below perm
      exact ⟨scanned, by omega, by omega⟩
  | doubleLine =>
      obtain ⟨n, two, above, below, perm⟩ := legal
      obtain ⟨scanned, count, length⟩ := line_numbers cards (by decide) two below perm
      exact ⟨scanned, by omega⟩
  | plane =>
      obtain ⟨n, plane⟩ := legal
      exact ⟨n, plane.firstRun, plane.length⟩
  | planeWithOne =>
      obtain ⟨n, kickers, plane, many⟩ := legal
      have length := plane.length
      exact ⟨n, plane.firstRun, by omega⟩
  | planeWithTwo =>
      obtain ⟨n, kickers, plane, many⟩ := legal
      have length := plane.length
      exact ⟨n, plane.firstRun, by omega⟩
  | planeWithMix =>
      obtain ⟨⟨n, kickers, plane, some_kicker, few, other⟩, not_four⟩ := legal
      have length := plane.length
      refine ⟨⟨n, plane.firstRun, by omega, by omega, by omega⟩, ?_⟩
      rintro ⟨one, seven⟩
      obtain ⟨w, only⟩ := List.length_eq_one_iff.1 one
      have times : cards.keys.count w = 4 :=
        (mem_valuesOf (by decide)).1 (only ▸ List.mem_singleton_self w)
      exact not_four ⟨w, with_of_count (by omega) seven⟩
  | missle => exact legal

/-! ### Lists taken for a combination -/

/-- The lists that are taken for a combination they are not: single cards of which only the two
lowest have to be neighbours, and which may have pairs, a triple or four equal cards beside
them; pairs of which only the two lowest have to be neighbours; and triples of which only the
first run counts, the others being kickers. -/
def Misjudged (keys : List Int) : Prop :=
  (Scanned (valuesOf keys 1) ∧ 5 ≤ countCounts keys 1 ∧ countCounts keys 3 + countCounts keys 4 ≤ 1 ∧
      ¬ (Run (valuesOf keys 1) ∧ keys.length = countCounts keys 1)) ∨
    (Scanned (valuesOf keys 2) ∧ keys.length = 2 * countCounts keys 2 ∧ ¬ Run (valuesOf keys 2)) ∨
    ∃ low n, FirstRun (tripled keys) low n ∧ keys.length ≤ 5 * n ∧
      ¬ (countCounts keys 4 = 1 ∧ keys.length = 7) ∧ ∃ v, tripled keys v = true ∧ v ∉ run low n

theorem scanned_of {values : List Int} {low : Int} (scanned : ScannedFrom values low) :
    Scanned values :=
  ⟨low, scanned.first, scanned.second, scanned.within⟩

/-- A row of the values that the scan found begins where the scan did. -/
theorem row_of_scanned {k : Nat} (pos : 0 < k) {v : Int}
    (scanned : ScannedFrom (valuesOf cards.keys k) v) (row : Run (valuesOf cards.keys k))
    (all : cards.keys.length = k * countCounts cards.keys k) :
    3 ≤ v ∧ v + countCounts cards.keys k ≤ 15 ∧
      cards.keys.Perm ((run v (countCounts cards.keys k)).flatMap (List.replicate k)) := by
  obtain ⟨low, n, above, below, line⟩ := row
  have count : countCounts cards.keys k = n := by rw [countCounts, line.length_eq, run_length]
  have some_value : 0 < countCounts cards.keys k := List.length_pos_of_mem scanned.first
  have same : v = low := by
    have inside := mem_run.1 (line.mem_iff.1 scanned.first)
    have least := (scanned.within low (line.mem_iff.2 (mem_run.2 (by omega)))).1
    omega
  rw [same, count]
  refine ⟨above, below, ?_⟩
  apply (each_iff pos (run_nodup low n)).2
  refine ⟨line.symm, ?_⟩
  have part : ((valuesOf cards.keys k).flatMap (List.replicate k)).Subperm cards.keys := by
    apply List.subperm_ext_iff.2
    intro u mem
    rw [count_each (valuesOf_nodup _ k)]
    split
    · rename_i there
      exact Nat.le_of_eq ((mem_valuesOf pos).1 there).symm
    · exact Nat.zero_le _
  have whole : ((valuesOf cards.keys k).flatMap (List.replicate k)).Perm cards.keys := by
    apply part.perm_of_length_le
    rw [all, List.length_flatMap]
    simp [Nat.mul_comm, countCounts]
  intro u mem
  obtain ⟨w, there, copy⟩ := List.mem_flatMap.1 (whole.symm.subset mem)
  rw [(List.mem_replicate.1 copy).2]
  exact (mem_valuesOf pos).1 there

/-- Triples all of which are in the first run make a plane with the other cards. -/
theorem plane_of_run {v : Int} {n : Nat} (row : FirstRun (tripled cards.keys) v n)
    (all : ∀ u, tripled cards.keys u = true → u ∈ run v n) :
    ∃ kickers, IsPlane cards.keys v n kickers := by
  have inside : ∀ u, u ∈ run v n → 3 ≤ cards.keys.count u := by
    intro u mem
    have there := row.inside u mem
    rw [tripled, decide_eq_true_eq] at there
    omega
  have part : ((run v n).flatMap (List.replicate 3)).Subperm cards.keys := by
    apply List.subperm_ext_iff.2
    intro u _
    rw [count_each (run_nodup v n)]
    split
    · rename_i there
      exact inside u there
    · exact Nat.zero_le _
  obtain ⟨triples, same, within⟩ := part
  obtain ⟨kickers, split_⟩ := within.exists_perm_append
  have perm := split_.trans (same.append_right kickers)
  refine ⟨kickers, row.two, row.above, row.below, perm, ?_⟩
  intro u
  have count : cards.keys.count u = (if u ∈ run v n then 3 else 0) + kickers.count u := by
    rw [perm.count_eq, List.count_append, count_each (run_nodup v n)]
  have four := cards.four_le u
  split at count
  · omega
  · rename_i outside
    by_contra many
    apply outside
    apply all
    rw [tripled, decide_eq_true_eq]
    omega

/-- A combination that is found is one, if the list is not among those taken for one. -/
theorem legal_of_found {kind : CardType} {v : Int} (found : Found cards.keys kind v)
    (right : ¬ Misjudged cards.keys) : Legal cards.keys kind v := by
  have total := cards.total
  have plane_of : ∀ n, FirstRun (tripled cards.keys) v n → cards.keys.length ≤ 5 * n →
      ¬ (countCounts cards.keys 4 = 1 ∧ cards.keys.length = 7) →
      ∃ kickers, IsPlane cards.keys v n kickers ∧ cards.keys.length = 3 * n + kickers.length := by
    intro n row few not_four
    have all : ∀ u, tripled cards.keys u = true → u ∈ run v n := by
      intro u there
      by_contra outside
      exact right (.inr (.inr ⟨v, n, row, few, not_four, u, there, outside⟩))
    obtain ⟨kickers, plane⟩ := plane_of_run cards row all
    exact ⟨kickers, plane, plane.length⟩
  cases kind with
  | single =>
      rw [show cards.keys = [v] from found]
      exact .refl _
  | double => exact perm_replicate_iff.2 found
  | three => exact perm_replicate_iff.2 found
  | bomb => exact perm_replicate_iff.2 found
  | threeWithOne =>
      obtain ⟨times, length⟩ := found
      refine ⟨with_of_count (by omega) length, fun four => ?_⟩
      have := (perm_replicate_iff.1 four).1
      omega
  | threeWithTwo => exact with_of_count found.1 found.2
  | fourWithDouble => exact with_of_count (Nat.le_of_eq found.1.symm) found.2
  | fourWithThree => exact with_of_count (Nat.le_of_eq found.1.symm) found.2
  | singleLine =>
      obtain ⟨scanned, five, few⟩ := found
      have row : Run (valuesOf cards.keys 1) ∧ cards.keys.length = countCounts cards.keys 1 := by
        by_contra bad
        exact right (.inl ⟨scanned_of scanned, five, few, bad⟩)
      obtain ⟨above, below, perm⟩ := row_of_scanned cards (by decide) scanned row.1 (by omega)
      rw [flatMap_one] at perm
      exact ⟨_, five, above, below, perm⟩
  | doubleLine =>
      obtain ⟨scanned, all⟩ := found
      have row : Run (valuesOf cards.keys 2) := by
        by_contra bad
        exact right (.inr (.inl ⟨scanned_of scanned, all, bad⟩))
      have two := ((scannedFrom_iff cards (by decide : 0 < 2) v).1 scanned).1
      obtain ⟨above, below, perm⟩ := row_of_scanned cards (by decide) scanned row all
      exact ⟨_, by omega, above, below, perm⟩
  | plane =>
      obtain ⟨n, row, length⟩ := found
      obtain ⟨kickers, plane, many⟩ := plane_of n row (by omega) (by omega)
      rw [List.length_eq_zero_iff.1 (by omega : kickers.length = 0)] at plane
      exact ⟨n, plane⟩
  | planeWithOne =>
      obtain ⟨n, row, length⟩ := found
      obtain ⟨kickers, plane, many⟩ := plane_of n row (by omega) (by omega)
      exact ⟨n, kickers, plane, by omega⟩
  | planeWithTwo =>
      obtain ⟨n, row, length⟩ := found
      obtain ⟨kickers, plane, many⟩ := plane_of n row (by omega) (by omega)
      exact ⟨n, kickers, plane, by omega⟩
  | planeWithMix =>
      obtain ⟨⟨n, row, more, less, other⟩, not_four⟩ := found
      obtain ⟨kickers, plane, many⟩ := plane_of n row (by omega) not_four
      refine ⟨⟨n, kickers, plane, by omega, by omega, by omega⟩, ?_⟩
      rintro ⟨w, made⟩
      obtain ⟨enough, seven⟩ := made.count_le
      have four := cards.four_le w
      have some_four := countCounts_pos (by decide : 0 < 4) (by omega : cards.keys.count w = 4)
      exact not_four ⟨by omega, seven⟩
  | missle => exact found.elim

/-- Each of these lists is found to be a combination it is not. -/
theorem found_of_misjudged (wrong : Misjudged cards.keys) :
    ∃ kind v, Found cards.keys kind v ∧ ¬ Legal cards.keys kind v := by
  have total := cards.total
  rcases wrong with ⟨⟨v, first, second, within⟩, five, few, not_row⟩ |
    ⟨⟨v, first, second, within⟩, all, not_row⟩ | ⟨low, n, row, few, not_four, u, there, outside⟩
  · refine ⟨.singleLine, v, ⟨⟨first, second, within⟩, five, few⟩, ?_⟩
    rintro ⟨n, _, above, below, perm⟩
    rw [← flatMap_one (run v n)] at perm
    obtain ⟨line, _⟩ := (each_iff (by decide) (run_nodup v n)).1 perm
    have numbers := line_numbers cards (by decide) (by omega) below perm
    exact not_row ⟨⟨v, n, above, below, line.symm⟩, by omega⟩
  · refine ⟨.doubleLine, v, ⟨⟨first, second, within⟩, all⟩, ?_⟩
    rintro ⟨n, _, above, below, perm⟩
    obtain ⟨line, _⟩ := (each_iff (by decide) (run_nodup v n)).1 perm
    exact not_row ⟨v, n, above, below, line.symm⟩
  · have no_plane : ∀ m kickers, ¬ IsPlane cards.keys low m kickers := by
      intro m kickers plane
      obtain ⟨_, same⟩ := row.unique plane.firstRun
      rw [same] at outside
      exact outside ((plane.tripled_iff u).1 there)
    have many := run_le cards row
    have two := row.two
    by_cases plain : cards.keys.length = 3 * n
    · exact ⟨.plane, low, ⟨n, row, plain⟩, fun ⟨m, plane⟩ => no_plane m [] plane⟩
    · by_cases ones : cards.keys.length = 4 * n
      · exact ⟨.planeWithOne, low, ⟨n, row, ones⟩, fun ⟨m, kickers, plane, _⟩ => no_plane m kickers plane⟩
      · by_cases twos : cards.keys.length = 5 * n
        · exact ⟨.planeWithTwo, low, ⟨n, row, twos⟩,
            fun ⟨m, kickers, plane, _⟩ => no_plane m kickers plane⟩
        · exact ⟨.planeWithMix, low, ⟨⟨n, row, by omega, by omega, ones⟩, not_four⟩,
            fun ⟨⟨m, kickers, plane, _⟩, _⟩ => no_plane m kickers plane⟩

/-! ### The type of a list -/

theorem found_one {card : Int} (one : cards.list = [card]) (kind : CardType) (v : Int) :
    Found cards.keys kind v ↔ kind = .single ∧ v = value card := by
  have keys : cards.keys = [value card] := by
    rw [Cards.keys, one]
    rfl
  have length : cards.keys.length = 1 := by rw [keys]; rfl
  have total := cards.total
  constructor
  · intro found
    cases kind with
    | single =>
        have same : cards.keys = [v] := found
        rw [keys] at same
        exact ⟨rfl, (List.cons.inj same).1.symm⟩
    | singleLine =>
        have five := found.2.1
        omega
    | doubleLine =>
        have all := found.2
        omega
    | plane =>
        obtain ⟨n, row, count⟩ := found
        omega
    | planeWithOne =>
        obtain ⟨n, row, count⟩ := found
        omega
    | planeWithTwo =>
        obtain ⟨n, row, count⟩ := found
        omega
    | planeWithMix =>
        obtain ⟨⟨n, row, more, _⟩, _⟩ := found
        have two := row.two
        omega
    | missle => exact found.elim
    | double | three | threeWithOne | threeWithTwo | fourWithDouble | fourWithThree | bomb =>
        have count := found.2
        omega
  · rintro ⟨rfl, rfl⟩
    exact keys

/-- The numbers of equal cards decide the type. -/
theorem cardsType_iff {pairs : List Int → List Int} (same : ∀ values, (pairs values).Perm values)
    (kind : CardType) (v : Int) :
    cardsType pairs cards.list = some (kind, v) ↔ Found cards.keys kind v := by
  by_cases one : cards.list.length = 1
  · obtain ⟨card, single⟩ := List.length_eq_one_iff.1 one
    rw [found_one cards single, single]
    constructor
    · intro found
      cases found
      exact ⟨rfl, rfl⟩
    · rintro ⟨rfl, rfl⟩
      rfl
  · exact ⟨found_of_type same cards one, type_of_found same cards one⟩

/-- `get_cards_type` finds exactly the combinations, with their values. -/
def Classified (pairs : List Int → List Int) (cards : Cards) : Prop :=
  ∀ kind v, cardsType pairs cards.list = some (kind, v) ↔ Legal cards.keys kind v

theorem classified_iff {pairs : List Int → List Int} (same : ∀ values, (pairs values).Perm values) :
    Classified pairs cards ↔ ¬ Misjudged cards.keys := by
  unfold Classified
  simp only [cardsType_iff cards same]
  constructor
  · intro exactly wrong
    obtain ⟨kind, v, found, not_legal⟩ := found_of_misjudged cards wrong
    exact not_legal ((exactly kind v).1 found)
  · intro right kind v
    exact ⟨fun found => legal_of_found cards found right, found_of_legal cards⟩

end Legal

end FkServer.Pdk
