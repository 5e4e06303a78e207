import FkServer.Climbing.Grammar
import FkServer.Land.Discard

/-!
The combinations of the game, and the lists of cards that `get_cards_type` takes for one
without their being it.
-/
namespace FkServer.Land

open Climbing

/-! ### The combinations -/

/-- Four suits from the three to the two, and the jokers. -/
def deck : List Int :=
  ([0, 20, 40, 60].flatMap fun color : Int => (List.range' 3 13).map fun v : Nat => color + v) ++
    [96, 97]

/-- Different cards of the deck. -/
structure Cards where
  list : List Int
  distinct : list.Nodup
  dealt : ∀ card ∈ list, card ∈ deck

/-- The cards are a combination of the type. -/
def Legal (cards : List Int) : CardType → Prop
  | .single => ∃ v, Consists (cards.map value) 1 [v] 2 []
  | .double => ∃ v, Consists (cards.map value) 2 [v] 1 []
  | .three => ∃ v, Consists (cards.map value) 3 [v] 1 []
  | .threeWithOne => ∃ v w, Consists (cards.map value) 3 [v] 1 [w]
  | .threeWithTwo => (∃ v w, Consists (cards.map value) 3 [v] 2 [w]) ∨
      ∃ v w x, Consists (cards.map value) 3 [v] 1 [w, x]
  | .fourWithDouble => (∃ v w x, Consists (cards.map value) 4 [v] 1 [w, x]) ∨
      ∃ v w x, Consists (cards.map value) 4 [v] 2 [w, x]
  | .singleLine => ∃ line, Run line ∧ 5 ≤ line.length ∧ Consists (cards.map value) 1 line 2 []
  | .doubleLine => ∃ line, Run line ∧ 3 ≤ line.length ∧ Consists (cards.map value) 2 line 1 []
  | .plane => ∃ line, Run line ∧ 2 ≤ line.length ∧ Consists (cards.map value) 3 line 1 []
  | .planeWithOne => ∃ line kickers, Run line ∧ 2 ≤ line.length ∧ kickers.length = line.length ∧
      Consists (cards.map value) 3 line 1 kickers
  | .planeWithTwo => ∃ line kickers, Run line ∧ 2 ≤ line.length ∧ kickers.length = line.length ∧
      Consists (cards.map value) 3 line 2 kickers
  | .bomb => ∃ v, Consists (cards.map value) 4 [v] 1 []
  | .missle => cards.Perm [96, 97]

theorem Cards.four_le (cards : Cards) (v : Int) : (cards.list.map value).count v ≤ 4 :=
  count_value_le cards.distinct cards.dealt (by decide) v

theorem Cards.three_le (cards : Cards) : ∀ v ∈ cards.list.map value, 3 ≤ v := by
  intro v mem
  obtain ⟨card, there, rfl⟩ := List.mem_map.1 mem
  have of_deck : ∀ card ∈ deck, 3 ≤ value card := by decide
  exact of_deck card (cards.dealt card there)

/-! ### What the type depends on -/

/-- The number of values that the scan keeps of those that occur `n` times. -/
def scanned (keys : List Int) (n : Nat) : Nat :=
  (maxContinuityCards fun i => keys.count i = n).length

/-- The type of a plane as a function of the number of values kept and of the cards. -/
def planeKind (kept count : Nat) : Option CardType :=
  if kept < 2 then none
  else if count = kept * 3 then some .plane
  else if 4 ∣ count ∧ count ≤ kept * 4 then some .planeWithOne
  else if 5 ∣ count ∧ count ≤ kept * 5 then some .planeWithTwo
  else none

/-- The type of two cards or more that are not the jokers. -/
def kindOf (keys : List Int) : Option CardType :=
  let has := countCounts keys
  if 0 < has 4 then
    if has 1 = 2 ∧ keys.length = 6 ∨ has 2 = 2 ∧ keys.length = 8 then some .fourWithDouble
    else if has 1 = 0 ∧ has 2 = 0 ∧ has 3 = 0 then some .bomb
    else none
  else if 0 < has 3 then
    if has 3 = 1 then
      if (has 2 = 1 ∨ has 1 = 2) ∧ keys.length = 5 then some .threeWithTwo
      else if has 1 = 1 ∧ keys.length = 4 then some .threeWithOne
      else if has 1 = 0 ∧ has 2 = 0 ∧ keys.length = 3 then some .three
      else none
    else planeKind (scanned keys 3) keys.length
  else if has 2 = 1 ∧ keys.length = 2 then some .double
  else if 0 < has 2 ∧ 3 ≤ scanned keys 2 ∧ scanned keys 2 = has 2 ∧
      keys.length = scanned keys 2 * 2 then some .doubleLine
  else if 5 ≤ has 1 ∧ 5 ≤ scanned keys 1 ∧ scanned keys 1 = has 1 then some .singleLine
  else none

theorem planeStart_isSome {values : List Int} {count size : Nat} (two : 2 ≤ values.length)
    (three : values.length * 3 ≤ count) (sizes : size = 4 ∨ size = 5) :
    (planeStart values count size).isSome = true ↔
      size ∣ count ∧ count ≤ values.length * size := by
  unfold planeStart
  rw [Option.isSome_map, List.find?_isSome]
  constructor
  · rintro ⟨i, mem, same⟩
    rw [List.mem_range] at mem
    rw [decide_eq_true_eq] at same
    rcases sizes with rfl | rfl <;> omega
  · rintro ⟨divides, le⟩
    refine ⟨values.length - count / size, ?_, ?_⟩
    · rw [List.mem_range]
      rcases sizes with rfl | rfl <;> omega
    · rw [decide_eq_true_eq]
      rcases sizes with rfl | rfl <;> omega

theorem planeType_kind {values : List Int} {count : Nat}
    (three : 2 ≤ values.length → values.length * 3 ≤ count) :
    (planeType values count).map Prod.fst = planeKind values.length count := by
  unfold planeType planeKind
  by_cases short : values.length < 2
  · rw [if_pos short, if_pos short]
    rfl
  · rw [if_neg short, if_neg short]
    by_cases plain : count = values.length * 3
    · rw [if_pos plain, if_pos plain]
      rfl
    · rw [if_neg plain, if_neg plain]
      have four := planeStart_isSome (by omega) (three (by omega)) (.inl rfl : (4 : Nat) = 4 ∨ 4 = 5)
      have five := planeStart_isSome (by omega) (three (by omega)) (.inr rfl : (5 : Nat) = 4 ∨ 5 = 5)
      cases first : planeStart values count 4 with
      | some start =>
          rw [first] at four
          rw [if_pos (four.1 rfl)]
          rfl
      | none =>
          rw [first] at four
          rw [if_neg fun h => by cases four.2 h]
          cases second : planeStart values count 5 with
          | some start =>
              rw [second] at five
              rw [if_pos (five.1 rfl)]
              rfl
          | none =>
              rw [second] at five
              rw [if_neg fun h => by cases five.2 h]
              rfl

theorem getCardsType_kind (pairs : List Int → List Int) (cards : Cards)
    (not_one : cards.list.length ≠ 1) (not_jokers : ¬ cards.list.Perm [96, 97]) :
    (getCardsType pairs cards.list).map Prod.fst = kindOf (cards.list.map value) := by
  have enough : 2 ≤ (maxContinuityCards fun i => (cards.list.map value).count i = 3).length →
      (maxContinuityCards fun i => (cards.list.map value).count i = 3).length * 3 ≤
        cards.list.length := by
    intro two
    have kept := ((kept_iff (by decide : 0 < 3) cards.three_le _).2 ⟨two, rfl⟩).le
    have total := length_eq_counts cards.four_le
    rw [List.length_map] at total
    unfold countCounts at total
    omega
  have jokers : ¬ (cards.list = [96, 97] ∨ cards.list = [97, 96]) := by
    rintro (same | same)
    · exact not_jokers (same ▸ .refl _)
    · exact not_jokers (same ▸ .swap ..)
  unfold getCardsType kindOf
  split
  · rename_i single
    rw [single] at not_one
    exact absurd rfl not_one
  · rw [if_neg jokers]
    simp only [apply_ite (Option.map Prod.fst), Option.map_some, Option.map_none, singleLine,
      planeType_kind enough, List.length_map]
    rfl

/-! ### The combinations in numbers -/

/-- How many values a combination has once, twice, three and four times. -/
def Profile (keys : List Int) : CardType → Prop
  | .single => countCounts keys 1 = 1 ∧ countCounts keys 2 = 0 ∧ countCounts keys 3 = 0 ∧
      countCounts keys 4 = 0
  | .double => countCounts keys 1 = 0 ∧ countCounts keys 2 = 1 ∧ countCounts keys 3 = 0 ∧
      countCounts keys 4 = 0
  | .three => countCounts keys 1 = 0 ∧ countCounts keys 2 = 0 ∧ countCounts keys 3 = 1 ∧
      countCounts keys 4 = 0
  | .threeWithOne => countCounts keys 1 = 1 ∧ countCounts keys 2 = 0 ∧ countCounts keys 3 = 1 ∧
      countCounts keys 4 = 0
  | .threeWithTwo => (countCounts keys 1 = 0 ∧ countCounts keys 2 = 1 ∨
      countCounts keys 1 = 2 ∧ countCounts keys 2 = 0) ∧ countCounts keys 3 = 1 ∧
      countCounts keys 4 = 0
  | .fourWithDouble => (countCounts keys 1 = 2 ∧ countCounts keys 2 = 0 ∨
      countCounts keys 1 = 0 ∧ countCounts keys 2 = 2) ∧ countCounts keys 3 = 0 ∧
      countCounts keys 4 = 1
  | .singleLine => Run (valuesOf keys 1) ∧ 5 ≤ countCounts keys 1 ∧ countCounts keys 2 = 0 ∧
      countCounts keys 3 = 0 ∧ countCounts keys 4 = 0
  | .doubleLine => Run (valuesOf keys 2) ∧ countCounts keys 1 = 0 ∧ 3 ≤ countCounts keys 2 ∧
      countCounts keys 3 = 0 ∧ countCounts keys 4 = 0
  | .plane => Run (valuesOf keys 3) ∧ countCounts keys 1 = 0 ∧ countCounts keys 2 = 0 ∧
      2 ≤ countCounts keys 3 ∧ countCounts keys 4 = 0
  | .planeWithOne => Run (valuesOf keys 3) ∧ countCounts keys 1 = countCounts keys 3 ∧
      countCounts keys 2 = 0 ∧ 2 ≤ countCounts keys 3 ∧ countCounts keys 4 = 0
  | .planeWithTwo => Run (valuesOf keys 3) ∧ countCounts keys 1 = 0 ∧
      countCounts keys 2 = countCounts keys 3 ∧ 2 ≤ countCounts keys 3 ∧ countCounts keys 4 = 0
  | .bomb => countCounts keys 1 = 0 ∧ countCounts keys 2 = 0 ∧ countCounts keys 3 = 0 ∧
      countCounts keys 4 = 1
  | .missle => False

theorem legal_iff_profile (cards : Cards) (kind : CardType) (not_missle : kind ≠ .missle) :
    Legal cards.list kind ↔ Profile (cards.list.map value) kind := by
  have four := cards.four_le
  cases kind with
  | single =>
      simp only [Legal, Profile, one_iff (by decide : 0 < 1) (by decide : 0 < 2) (by decide),
        only_iff four]
      simp
      tauto
  | double =>
      simp only [Legal, Profile, one_iff (by decide : 0 < 2) (by decide : 0 < 1) (by decide),
        only_iff four]
      simp
      tauto
  | three =>
      simp only [Legal, Profile, one_iff (by decide : 0 < 3) (by decide : 0 < 1) (by decide),
        only_iff four]
      simp
      tauto
  | threeWithOne =>
      simp only [Legal, Profile, one_with_one_iff (by decide : 0 < 3) (by decide : 0 < 1)
        (by decide), only_iff four]
      simp
      tauto
  | threeWithTwo =>
      simp only [Legal, Profile, one_with_one_iff (by decide : 0 < 3) (by decide : 0 < 2)
        (by decide), one_with_two_iff (by decide : 0 < 3) (by decide : 0 < 1) (by decide),
        only_iff four]
      simp
      tauto
  | fourWithDouble =>
      simp only [Legal, Profile, one_with_two_iff (by decide : 0 < 4) (by decide : 0 < 1)
        (by decide), one_with_two_iff (by decide : 0 < 4) (by decide : 0 < 2) (by decide),
        only_iff four]
      simp
      tauto
  | singleLine =>
      simp only [Legal, Profile, line_iff (by decide : 0 < 1) (by decide : 0 < 2) (by decide),
        only_iff four]
      simp
      tauto
  | doubleLine =>
      simp only [Legal, Profile, line_iff (by decide : 0 < 2) (by decide : 0 < 1) (by decide),
        only_iff four]
      simp
      tauto
  | plane =>
      simp only [Legal, Profile, line_iff (by decide : 0 < 3) (by decide : 0 < 1) (by decide),
        only_iff four]
      simp
      tauto
  | planeWithOne =>
      simp only [Legal, Profile, line_with_iff (by decide : 0 < 3) (by decide : 0 < 1)
        (by decide), only_iff four]
      simp
      tauto
  | planeWithTwo =>
      simp only [Legal, Profile, line_with_iff (by decide : 0 < 3) (by decide : 0 < 2)
        (by decide), only_iff four]
      simp
      tauto
  | bomb =>
      simp only [Legal, Profile, one_iff (by decide : 0 < 4) (by decide : 0 < 1) (by decide),
        only_iff four]
      simp
      tauto
  | missle => exact absurd rfl not_missle

/-! ### Lists taken for a combination -/

/-- The lists that are taken for a combination they are not: more than one bomb; single cards
of which only the two lowest have to be neighbours, and which may have pairs beside them; pairs
of which only the two lowest have to be neighbours; and triples, those below the lowest
neighbours not counted, to which the others fit only in number. -/
def Misjudged (keys : List Int) : Prop :=
  (countCounts keys 1 = 0 ∧ countCounts keys 2 = 0 ∧ countCounts keys 3 = 0 ∧
      2 ≤ countCounts keys 4) ∨
    (5 ≤ countCounts keys 1 ∧ countCounts keys 3 = 0 ∧ countCounts keys 4 = 0 ∧
      Scanned (valuesOf keys 1) ∧ ¬ (Run (valuesOf keys 1) ∧ countCounts keys 2 = 0)) ∨
    (countCounts keys 1 = 0 ∧ 3 ≤ countCounts keys 2 ∧ countCounts keys 3 = 0 ∧
      countCounts keys 4 = 0 ∧ Scanned (valuesOf keys 2) ∧ ¬ Run (valuesOf keys 2)) ∨
    countCounts keys 4 = 0 ∧ ∃ m, Kept (valuesOf keys 3) m ∧
      (keys.length = m * 3 ∨ 4 ∣ keys.length ∧ keys.length ≤ m * 4 ∨
        5 ∣ keys.length ∧ keys.length ≤ m * 5) ∧
      ¬ (Run (valuesOf keys 3) ∧
        (countCounts keys 1 = 0 ∧ countCounts keys 2 = 0 ∨
          countCounts keys 1 = countCounts keys 3 ∧ countCounts keys 2 = 0 ∨
          countCounts keys 1 = 0 ∧ countCounts keys 2 = countCounts keys 3))

section Numbers

variable (cards : Cards)

theorem total : (cards.list.map value).length = countCounts (cards.list.map value) 1 +
    2 * countCounts (cards.list.map value) 2 + 3 * countCounts (cards.list.map value) 3 +
    4 * countCounts (cards.list.map value) 4 :=
  length_eq_counts cards.four_le

theorem scanned_all {n : Nat} (pos : 0 < n) : Scanned (valuesOf (cards.list.map value) n) ↔
    2 ≤ scanned (cards.list.map value) n ∧
      scanned (cards.list.map value) n = countCounts (cards.list.map value) n :=
  scanned_iff_scan pos cards.three_le

theorem scanned_kept {n : Nat} (pos : 0 < n) (m : Nat) :
    Kept (valuesOf (cards.list.map value) n) m ↔
      2 ≤ scanned (cards.list.map value) n ∧ scanned (cards.list.map value) n = m :=
  kept_iff pos cards.three_le m

theorem scanned_le {n : Nat} (pos : 0 < n) (two : 2 ≤ scanned (cards.list.map value) n) :
    scanned (cards.list.map value) n ≤ countCounts (cards.list.map value) n :=
  ((scanned_kept cards pos _).2 ⟨two, rfl⟩).le

theorem scanned_run {n : Nat} (pos : 0 < n) (row : Run (valuesOf (cards.list.map value) n))
    (two : 2 ≤ countCounts (cards.list.map value) n) :
    scanned (cards.list.map value) n = countCounts (cards.list.map value) n :=
  ((scanned_all cards pos).1 (row.scanned two)).2

/-- Every combination of two cards or more is found. -/
theorem kindOf_of_profile {kind : CardType} (profile : Profile (cards.list.map value) kind)
    (not_single : kind ≠ .single) : kindOf (cards.list.map value) = some kind := by
  have total := total cards
  unfold kindOf
  cases kind with
  | single => exact absurd rfl not_single
  | double =>
      obtain ⟨one, two, three, four⟩ := profile
      simp [one, two, three, four] at total ⊢
      omega
  | three =>
      obtain ⟨one, two, three, four⟩ := profile
      simp [one, two, three, four] at total ⊢
      omega
  | threeWithOne =>
      obtain ⟨one, two, three, four⟩ := profile
      simp [one, two, three, four] at total ⊢
      omega
  | threeWithTwo =>
      obtain ⟨⟨one, two⟩ | ⟨one, two⟩, three, four⟩ := profile
      · simp [one, two, three, four] at total ⊢
        omega
      · simp [one, two, three, four] at total ⊢
        omega
  | fourWithDouble =>
      obtain ⟨⟨one, two⟩ | ⟨one, two⟩, three, four⟩ := profile
      · simp [one, two, three, four] at total ⊢
        omega
      · simp [one, two, three, four] at total ⊢
        omega
  | singleLine =>
      obtain ⟨row, one, two, three, four⟩ := profile
      have all := scanned_run cards (by decide) row (by omega)
      simp [two, three, four, all, one]
  | doubleLine =>
      obtain ⟨row, one, two, three, four⟩ := profile
      have all := scanned_run cards (by decide) row (by omega)
      simp only []
      rw [if_neg (by omega), if_neg (by omega), if_neg (by omega),
        if_pos ⟨by omega, by omega, all, by omega⟩]
  | plane =>
      obtain ⟨row, one, two, three, four⟩ := profile
      have all := scanned_run cards (by decide) row (by omega)
      simp only []
      rw [if_neg (by omega), if_pos (by omega), if_neg (by omega), planeKind, if_neg (by omega),
        if_pos (by omega)]
  | planeWithOne =>
      obtain ⟨row, one, two, three, four⟩ := profile
      have all := scanned_run cards (by decide) row (by omega)
      simp only []
      rw [if_neg (by omega), if_pos (by omega), if_neg (by omega), planeKind, if_neg (by omega),
        if_neg (by omega), if_pos (by omega)]
  | planeWithTwo =>
      obtain ⟨row, one, two, three, four⟩ := profile
      have all := scanned_run cards (by decide) row (by omega)
      simp only []
      rw [if_neg (by omega), if_pos (by omega), if_neg (by omega), planeKind, if_neg (by omega),
        if_neg (by omega), if_neg (by omega), if_pos (by omega)]
  | bomb =>
      obtain ⟨one, two, three, four⟩ := profile
      simp [one, two, three, four] at total ⊢
  | missle => exact profile.elim

theorem planeKind_some {kept count : Nat} {kind : CardType}
    (found : planeKind kept count = some kind) : 2 ≤ kept ∧
      (kind = .plane ∧ count = kept * 3 ∨
        kind = .planeWithOne ∧ count ≠ kept * 3 ∧ 4 ∣ count ∧ count ≤ kept * 4 ∨
        kind = .planeWithTwo ∧ count ≠ kept * 3 ∧ ¬ (4 ∣ count ∧ count ≤ kept * 4) ∧ 5 ∣ count ∧
          count ≤ kept * 5) := by
  unfold planeKind at found
  split at found
  · cases found
  · rename_i two
    refine ⟨by omega, ?_⟩
    split at found
    · rename_i plain
      cases found
      exact .inl ⟨rfl, plain⟩
    · rename_i not_plain
      split at found
      · rename_i ones
        cases found
        exact .inr (.inl ⟨rfl, not_plain, ones⟩)
      · rename_i not_ones
        split at found
        · rename_i twos
          cases found
          exact .inr (.inr ⟨rfl, not_plain, not_ones, twos⟩)
        · cases found

/-- A plane that is found is one, or one of the lists taken for it. -/
theorem plane_or_misjudged {kind : CardType} (no_four : countCounts (cards.list.map value) 4 = 0)
    (found : planeKind (scanned (cards.list.map value) 3) (cards.list.map value).length = some kind) :
    Profile (cards.list.map value) kind ∨ Misjudged (cards.list.map value) := by
  obtain ⟨two, which⟩ := planeKind_some found
  have kept := (scanned_kept cards (by decide : 0 < 3) _).2 ⟨two, rfl⟩
  have le := scanned_le cards (by decide) two
  have total := total cards
  by_cases legal : Run (valuesOf (cards.list.map value) 3) ∧
      (countCounts (cards.list.map value) 1 = 0 ∧ countCounts (cards.list.map value) 2 = 0 ∨
        countCounts (cards.list.map value) 1 = countCounts (cards.list.map value) 3 ∧
          countCounts (cards.list.map value) 2 = 0 ∨
        countCounts (cards.list.map value) 1 = 0 ∧
          countCounts (cards.list.map value) 2 = countCounts (cards.list.map value) 3)
  · obtain ⟨row, others⟩ := legal
    have all := scanned_run cards (by decide) row (by omega)
    rw [all] at which two
    left
    rcases which with ⟨rfl, count⟩ | ⟨rfl, not_plain, count⟩ | ⟨rfl, not_plain, not_ones, count⟩
    · exact ⟨row, by omega, by omega, two, no_four⟩
    · exact ⟨row, by omega, by omega, two, no_four⟩
    · exact ⟨row, by omega, by omega, two, no_four⟩
  · refine .inr (.inr (.inr (.inr ⟨no_four, _, kept, ?_, legal⟩)))
    rcases which with ⟨_, count⟩ | ⟨_, _, count⟩ | ⟨_, _, _, count⟩
    · exact .inl count
    · exact .inr (.inl count)
    · exact .inr (.inr count)

/-- What is found is a combination, or one of the lists taken for it. -/
theorem profile_or_misjudged {kind : CardType} (found : kindOf (cards.list.map value) = some kind) :
    Profile (cards.list.map value) kind ∨ Misjudged (cards.list.map value) := by
  have total := total cards
  unfold kindOf at found
  simp only [] at found
  split at found
  · split at found
    · cases found
      left
      refine ⟨?_, by omega, by omega⟩
      omega
    · split at found
      · rename_i others
        cases found
        by_cases more : 2 ≤ countCounts (cards.list.map value) 4
        · exact .inr (.inl ⟨others.1, others.2.1, others.2.2, more⟩)
        · exact .inl ⟨others.1, others.2.1, others.2.2, by omega⟩
      · cases found
  · split at found
    · split at found
      · split at found
        · cases found
          left
          refine ⟨?_, by omega, by omega⟩
          omega
        · split at found
          · cases found
            exact .inl ⟨by omega, by omega, by omega, by omega⟩
          · split at found
            · cases found
              exact .inl ⟨by omega, by omega, by omega, by omega⟩
            · cases found
      · exact plane_or_misjudged cards (by omega) found
    · split at found
      · cases found
        exact .inl ⟨by omega, by omega, by omega, by omega⟩
      · split at found
        · rename_i pairs
          cases found
          by_cases row : Run (valuesOf (cards.list.map value) 2)
          · exact .inl ⟨row, by omega, by omega, by omega, by omega⟩
          · have near := (scanned_all cards (by decide : 0 < 2)).2 ⟨by omega, pairs.2.2.1⟩
            exact .inr (.inr (.inr (.inl ⟨by omega, by omega, by omega, by omega, near, row⟩)))
        · split at found
          · rename_i singles
            cases found
            by_cases legal : Run (valuesOf (cards.list.map value) 1) ∧
                countCounts (cards.list.map value) 2 = 0
            · exact .inl ⟨legal.1, singles.1, legal.2, by omega, by omega⟩
            · have near := (scanned_all cards (by decide : 0 < 1)).2 ⟨by omega, singles.2.2⟩
              exact .inr (.inr (.inl ⟨singles.1, by omega, by omega, near, legal⟩))
          · cases found

/-- Each of these lists is taken for a combination it is not. -/
theorem found_of_misjudged (wrong : Misjudged (cards.list.map value)) :
    ∃ kind, kindOf (cards.list.map value) = some kind ∧
      ¬ Profile (cards.list.map value) kind := by
  have total := total cards
  unfold kindOf
  simp only []
  rcases wrong with ⟨one, two, three, four⟩ | ⟨one, three, four, near, not_legal⟩ |
    ⟨one, two, three, four, near, not_row⟩ | ⟨four, m, kept, count, not_legal⟩
  · refine ⟨.bomb, ?_, fun profile => by have := profile.2.2.2; omega⟩
    rw [if_pos (by omega), if_neg (by omega), if_pos ⟨one, two, three⟩]
  · have all := (scanned_all cards (by decide : 0 < 1)).1 near
    refine ⟨.singleLine, ?_, fun profile => not_legal ⟨profile.1, profile.2.2.1⟩⟩
    rw [if_neg (by omega), if_neg (by omega), if_neg (by omega), if_neg (by omega),
      if_pos ⟨one, by omega, all.2⟩]
  · have all := (scanned_all cards (by decide : 0 < 2)).1 near
    refine ⟨.doubleLine, ?_, fun profile => not_row profile.1⟩
    rw [if_neg (by omega), if_neg (by omega), if_neg (by omega),
      if_pos ⟨by omega, by omega, all.2, by omega⟩]
  · have keeps := (scanned_kept cards (by decide : 0 < 3) m).1 kept
    have le := kept.le
    change m ≤ countCounts (cards.list.map value) 3 at le
    rw [if_neg (by omega), if_pos (by omega), if_neg (by omega), keeps.2, planeKind,
      if_neg (by omega)]
    split
    · refine ⟨.plane, rfl, ?_⟩
      rintro ⟨row, none, neither, _⟩
      exact not_legal ⟨row, .inl ⟨none, neither⟩⟩
    · split
      · refine ⟨.planeWithOne, rfl, ?_⟩
        rintro ⟨row, ones, neither, _⟩
        exact not_legal ⟨row, .inr (.inl ⟨ones, neither⟩)⟩
      · rw [if_pos (by omega)]
        refine ⟨.planeWithTwo, rfl, ?_⟩
        rintro ⟨row, none, twos, _⟩
        exact not_legal ⟨row, .inr (.inr ⟨none, twos⟩)⟩

end Numbers

/-! ### The claim -/

theorem found_iff (pairs : List Int → List Int) (cards : List Int) (kind : CardType) :
    (∃ v, getCardsType pairs cards = some (kind, v)) ↔
      (getCardsType pairs cards).map Prod.fst = some kind := by
  rw [Option.map_eq_some_iff]
  constructor
  · rintro ⟨v, found⟩
    exact ⟨_, found, rfl⟩
  · rintro ⟨⟨_, v⟩, found, rfl⟩
    exact ⟨v, found⟩

theorem jokers_iff {cards : List Int} :
    cards.Perm [96, 97] ↔ cards = [96, 97] ∨ cards = [97, 96] := by
  constructor
  · intro jokers
    obtain ⟨a, b, rfl⟩ := List.length_eq_two.1 jokers.length_eq
    have distinct := jokers.nodup_iff.2 (by decide)
    have first := jokers.subset (List.mem_cons_self ..)
    have second := jokers.subset (List.mem_cons_of_mem a (List.mem_cons_self ..))
    simp only [List.mem_cons, List.not_mem_nil, or_false, List.nodup_cons] at first second distinct
    rcases first with rfl | rfl <;> rcases second with rfl | rfl
    · simp at distinct
    · exact .inl rfl
    · exact .inr rfl
    · simp at distinct
  · rintro (rfl | rfl)
    · exact .refl _
    · exact .swap ..

/-- One or two cards are never taken for a combination they are not. -/
theorem few_not_misjudged (cards : Cards) (few : cards.list.length ≤ 2) :
    ¬ Misjudged (cards.list.map value) := by
  have total := total cards
  rw [List.length_map] at total
  rintro (wrong | wrong | wrong | ⟨_, m, kept, _⟩)
  · omega
  · omega
  · omega
  · have two := (scanned_kept cards (by decide : 0 < 3) m).1 kept
    have le := scanned_le cards (by decide : 0 < 3) two.1
    omega

theorem single_grammar (pairs : List Int → List Int) (cards : Cards)
    (one : cards.list.length = 1) (kind : CardType) :
    (∃ v, getCardsType pairs cards.list = some (kind, v)) ↔ Legal cards.list kind := by
  have total := total cards
  rw [List.length_map] at total
  have typed : (getCardsType pairs cards.list).map Prod.fst = some .single := by
    obtain ⟨card, single⟩ := List.length_eq_one_iff.1 one
    rw [single]
    rfl
  rw [found_iff, typed, Option.some.injEq]
  by_cases missle : kind = .missle
  · rw [missle]
    refine iff_of_false (by decide) ?_
    intro jokers
    have two := jokers.length_eq
    rw [one] at two
    cases two
  · rw [legal_iff_profile cards kind missle]
    cases kind <;> simp only [Profile, reduceCtorEq, false_iff, true_iff] <;> omega

theorem jokers_grammar (pairs : List Int → List Int) (cards : Cards)
    (jokers : cards.list.Perm [96, 97]) (kind : CardType) :
    (∃ v, getCardsType pairs cards.list = some (kind, v)) ↔ Legal cards.list kind := by
  have total := total cards
  have typed : (getCardsType pairs cards.list).map Prod.fst = some .missle := by
    rcases jokers_iff.1 jokers with same | same <;> rw [same] <;> rfl
  have ones : countCounts (cards.list.map value) 1 = 2 := by
    rcases jokers_iff.1 jokers with same | same <;> rw [same] <;> decide
  have two : (cards.list.map value).length = 2 := by
    rw [List.length_map, jokers.length_eq]
    rfl
  rw [found_iff, typed, Option.some.injEq]
  by_cases missle : kind = .missle
  · rw [missle]
    exact iff_of_true rfl jokers
  · rw [legal_iff_profile cards kind missle]
    refine iff_of_false (fun same => missle same.symm) ?_
    cases kind <;> simp only [Profile, not_false_eq_true] <;> omega

/-- `get_cards_type` finds exactly the combinations, save for the lists it takes for one. -/
theorem grammar_iff (pairs : List Int → List Int) (cards : Cards) :
    (∀ kind, (∃ v, getCardsType pairs cards.list = some (kind, v)) ↔ Legal cards.list kind) ↔
      ¬ Misjudged (cards.list.map value) := by
  by_cases one : cards.list.length = 1
  · exact iff_of_true (single_grammar pairs cards one) (few_not_misjudged cards (by omega))
  · by_cases jokers : cards.list.Perm [96, 97]
    · exact iff_of_true (jokers_grammar pairs cards jokers)
        (few_not_misjudged cards (by rw [jokers.length_eq]; decide))
    · simp only [found_iff, getCardsType_kind pairs cards one jokers]
      constructor
      · intro exactly wrong
        obtain ⟨kind, found, not_one⟩ := found_of_misjudged cards wrong
        have legal := (exactly kind).1 found
        by_cases missle : kind = .missle
        · rw [missle] at legal
          exact jokers legal
        · exact not_one ((legal_iff_profile cards kind missle).1 legal)
      · intro right kind
        have total := total cards
        rw [List.length_map] at total
        by_cases missle : kind = .missle
        · rw [missle]
          refine iff_of_false ?_ jokers
          intro found
          exact (profile_or_misjudged cards found).elim id right
        · rw [legal_iff_profile cards kind missle]
          constructor
          · intro found
            exact (profile_or_misjudged cards found).resolve_right right
          · intro profile
            apply kindOf_of_profile cards profile
            rintro rfl
            have := profile.1
            have := profile.2
            omega

/-- Three and four, and then six to eight, are taken for a line of five. -/
def gapped : Cards where
  list := [3, 4, 6, 7, 8]
  distinct := by decide
  dealt := by decide

theorem gap_taken_for_line :
    getCardsType id gapped.list = some (.singleLine, 3) ∧
      ¬ ∀ kind, (∃ v, getCardsType id gapped.list = some (kind, v)) ↔ Legal gapped.list kind := by
  have typed : getCardsType id gapped.list = some (.singleLine, 3) := by decide
  refine ⟨typed, ?_⟩
  intro exactly
  obtain ⟨line, ⟨low, n, _, _, row⟩, _, made⟩ := (exactly .singleLine).1 ⟨3, typed⟩
  have mem : ∀ v, v ∈ gapped.list.map value ↔ low ≤ v ∧ v < low + n := by
    intro v
    rw [made.perm.mem_iff, ← mem_run, ← row.mem_iff]
    simp
  have three := (mem 3).1 (by decide)
  have eight := (mem 8).1 (by decide)
  have five := (mem 5).2 (by omega)
  revert five
  decide

end FkServer.Land
