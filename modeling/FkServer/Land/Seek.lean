import FkServer.Climbing.Hands
import FkServer.Land.Grammar

/-!
`cards_util.seek_great_than` of `land`, the search of a hand for a discard over the last one, and
when the discard it finds is not above it.
-/
namespace FkServer.Land

open Climbing

/-! ### The search -/

section
variable (c : DiscardConf) (lua : LuaSort) (hand : Finset Int)

/-- A triple and the smallest pair, which is the same for all triples of a plane. -/
def pickThreeWithTwo (val : Int) : List Int :=
  pick c.pairs hand 3 val ++
    ((findMinValueWithExactlyCount c.pairs hand 2 (valueCards c.pairs hand val)).map
      (pick c.pairs hand 2)).getD []

def pickPlaneWithOne (val : Int) (len : Nat) : List Int :=
  planeWithKickers c.pairs hand lua 1 (valueCards c.pairs hand) (run val len) []

def pickPlaneWithTwo (val : Int) (len : Nat) : List Int :=
  (run val len).flatMap (pickThreeWithTwo c hand)

def pickMissle : List Int := pick c.pairs hand 1 16 ++ pick c.pairs hand 1 17

/-- `seek_func` -/
def seekFunc (last : Played CardType) : CardType → Option (List Int)
  | .single => seekValue (last.value + 1) 17 (fun i => valueCounts c.pairs hand i ≠ 0) (pick c.pairs hand 1)
  | .double => seekValue (last.value + 1) 15
      (fun i => valueCounts c.pairs hand i = 2 ∧ valueCounts c.pairs hand i < 4) (pick c.pairs hand 2)
  | .three => seekValue (last.value + 1) 15 (fun i => valueCounts c.pairs hand i = 3) (pick c.pairs hand 3)
  | .threeWithOne => seekValue (last.value + 1) 15
      (fun i => valueCounts c.pairs hand i = 3 ∧ 4 ≤ hand.card) (pickWith c.pairs hand lua 3 1)
  | .threeWithTwo => seekValue (last.value + 1) 15
      (fun i => valueCounts c.pairs hand i = 3 ∧ 0 < countGroup c.pairs hand 2) (pickThreeWithTwo c hand)
  | .fourWithDouble => seekValue (last.value + 1) 15
      (fun i => valueCounts c.pairs hand i = 4 ∧ 6 ≤ hand.card) (pickWith c.pairs hand lua 4 2)
  | .singleLine => seekLine c.pairs lua hand last 1 1 true
      fun firstValue _ => pickLine c.pairs hand 1 firstValue last.count
  | .doubleLine => seekLine c.pairs lua hand last 2 2 true
      fun firstValue _ => pickLine c.pairs hand 2 firstValue (last.count / 2)
  | .plane => seekLine c.pairs lua hand last 3 3 true (pickLine c.pairs hand 3)
  | .planeWithOne => seekLine c.pairs lua hand last 3 4 (last.count ≤ countGroup c.pairs hand 1 * 4)
      fun firstValue _ => pickPlaneWithOne c lua hand firstValue (last.count / 4)
  | .planeWithTwo => seekLine c.pairs lua hand last 3 5 (last.count ≤ countGroup c.pairs hand 2 * 5)
      fun firstValue _ => pickPlaneWithTwo c hand firstValue (last.count / 5)
  | .bomb => seekValue (last.value + 1) 15 (fun i => valueCounts c.pairs hand i = 4) (pick c.pairs hand 4)
  | .missle =>
      if 0 < valueCounts c.pairs hand 16 ∧ 0 < valueCounts c.pairs hand 17 then some (pickMissle c hand)
      else none

def seekAnyBomb : Option (List Int) :=
  seekValue 3 14 (fun i => valueCounts c.pairs hand i = 4) (pick c.pairs hand 4)

/-- `cards_util.seek_great_than` -/
def seekGreatThan (last : Played CardType) : Sought :=
  if last.kind = .missle then .nothing
  else
    checked (((seekFunc c lua hand last last.kind).or (seekAnyBomb c hand)).or
      (seekFunc c lua hand last .missle))

end

/-! ### The hand and the last discard -/

/-- A hand of the deck. -/
abbrev Hand := Climbing.Hand deck

/-- Cards of the deck that `get_cards_type` has given their type. -/
structure Last (c : DiscardConf) extends Played CardType where
  discard : Cards
  judged : getCardsType c.pairs discard.list = some (kind, value)
  counted : count = discard.list.length

/-- How many cards a type takes. -/
def Sized : CardType → Nat → Prop
  | .single, n => n = 1
  | .double, n => n = 2
  | .three, n => n = 3
  | .threeWithOne, n => n = 4
  | .threeWithTwo, n => n = 5
  | .fourWithDouble, n => n = 6 ∨ n = 8
  | .singleLine, n => 5 ≤ n
  | .doubleLine, n => ∃ k, 3 ≤ k ∧ n = 2 * k
  | .plane, n => ∃ k, 2 ≤ k ∧ n = 3 * k
  | .planeWithOne, n => ∃ k, 2 ≤ k ∧ n = 4 * k
  | .planeWithTwo, n => ∃ k, 2 ≤ k ∧ n = 5 * k
  | .bomb, n => 4 ≤ n
  | .missle, n => n = 2

/-- What the value says that a combination is given with its type. -/
def ValueOf (keys : List Int) : CardType → Int → Prop
  | .single, v => keys = [v]
  | .double, v => keys.count v = 2
  | .three, v | .threeWithOne, v | .threeWithTwo, v => keys.count v = 3
  | .fourWithDouble, v | .bomb, v => keys.count v = 4
  | .singleLine, v => v = (maxContinuityCards fun i => keys.count i = 1).headD 0
  | .doubleLine, v => v = (maxContinuityCards fun i => keys.count i = 2).headD 0
  | .plane, v => v = (maxContinuityCards fun i => keys.count i = 3).headD 0
  | .planeWithOne, v => planeStart (maxContinuityCards fun i => keys.count i = 3) keys.length 4 = some v
  | .planeWithTwo, v => planeStart (maxContinuityCards fun i => keys.count i = 3) keys.length 5 = some v
  | .missle, v => v = 96

section Types

variable {pairs : List Int → List Int} (same : ∀ values, (pairs values).Perm values)

theorem planeType_value {values : List Int} {count : Nat} {kind : CardType} {v : Int}
    (found : planeType values count = some (kind, v)) :
    kind = .plane ∧ v = values.headD 0 ∨ kind = .planeWithOne ∧ planeStart values count 4 = some v ∨
      kind = .planeWithTwo ∧ planeStart values count 5 = some v := by
  unfold planeType at found
  split at found
  · cases found
  · split at found
    · cases found
      exact .inl ⟨rfl, rfl⟩
    · split at found
      · rename_i start ones
        cases found
        exact .inr (.inl ⟨rfl, ones⟩)
      · obtain ⟨start, twos, pair⟩ := Option.map_eq_some_iff.1 found
        cases pair
        exact .inr (.inr ⟨rfl, twos⟩)

include same in
theorem valueOf_typed {list : List Int} {kind : CardType} {v : Int}
    (typed : getCardsType pairs list = some (kind, v)) : ValueOf (list.map value) kind v := by
  have first : ∀ {n : Nat}, 0 < n → 0 < countCounts (list.map value) n →
      (list.map value).count (countValue pairs (list.map value) n) = n :=
    fun pos some_value => countValue_count same pos some_value
  unfold getCardsType at typed
  split at typed
  · cases typed
    rfl
  · split at typed
    · cases typed
      rfl
    · simp only [] at typed
      split at typed
      · rename_i four
        split at typed
        · cases typed
          exact first (by decide) four
        · split at typed
          · cases typed
            exact first (by decide) four
          · cases typed
      · split at typed
        · rename_i three
          split at typed
          · split at typed
            · cases typed
              exact first (by decide) three
            · split at typed
              · cases typed
                exact first (by decide) three
              · split at typed
                · cases typed
                  exact first (by decide) three
                · cases typed
          · have length : list.length = (list.map value).length := (List.length_map _).symm
            rw [length] at typed
            rcases planeType_value typed with ⟨rfl, start⟩ | ⟨rfl, start⟩ | ⟨rfl, start⟩ <;> exact start
        · split at typed
          · rename_i two
            cases typed
            exact first (by decide) (by omega)
          · split at typed
            · cases typed
              rfl
            · unfold singleLine at typed
              simp only [] at typed
              split at typed
              · cases typed
                rfl
              · cases typed

theorem kindOf_sized (cards : Cards) {kind : CardType}
    (found : kindOf (cards.list.map value) = some kind) : Sized kind cards.list.length := by
  have total := total cards
  rw [← List.length_map (f := value)]
  unfold kindOf at found
  simp only [] at found
  split at found
  · split at found
    · rename_i which
      cases found
      exact which.imp And.right And.right
    · split at found
      · cases found
        change 4 ≤ _
        omega
      · cases found
  · split at found
    · split at found
      · split at found
        · rename_i which
          cases found
          exact which.2
        · split at found
          · rename_i which
            cases found
            exact which.2
          · split at found
            · rename_i which
              cases found
              exact which.2.2
            · cases found
      · obtain ⟨two, which⟩ := planeKind_some found
        have le := scanned_le cards (by decide) two
        rcases which with ⟨rfl, counts⟩ | ⟨rfl, _, ⟨k, counts⟩, _⟩ | ⟨rfl, _, _, ⟨k, counts⟩, _⟩
        · exact ⟨_, two, by omega⟩
        · exact ⟨k, by omega, counts⟩
        · exact ⟨k, by omega, counts⟩
    · split at found
      · rename_i which
        cases found
        exact which.2
      · split at found
        · rename_i which
          cases found
          exact ⟨_, which.2.1, by omega⟩
        · split at found
          · rename_i which
            cases found
            change 5 ≤ _
            omega
          · cases found

theorem typed_sized {pairs : List Int → List Int} (cards : Cards) {kind : CardType} {v : Int}
    (typed : getCardsType pairs cards.list = some (kind, v)) : Sized kind cards.list.length := by
  by_cases one : cards.list.length = 1
  · obtain ⟨card, single⟩ := List.length_eq_one_iff.1 one
    rw [single] at typed ⊢
    cases typed
    rfl
  · by_cases jokers : cards.list.Perm [96, 97]
    · have missle : getCardsType pairs cards.list = some (.missle, 96) := by
        rcases jokers_iff.1 jokers with same | same <;> rw [same] <;> rfl
      cases missle.symm.trans typed
      exact jokers.length_eq
    · have found := getCardsType_kind pairs cards one jokers
      rw [typed] at found
      exact kindOf_sized cards found.symm

theorem Last.sized {c : DiscardConf} (last : Last c) : Sized last.kind last.count := by
  rw [last.counted]
  exact typed_sized last.discard last.judged

/-- A combination is found as one. -/
theorem legal_typed (pairs : List Int → List Int) (cards : Cards) {kind : CardType}
    (legal : Legal cards.list kind) : ∃ v, getCardsType pairs cards.list = some (kind, v) := by
  by_cases one : cards.list.length = 1
  · exact (single_grammar pairs cards one kind).2 legal
  · by_cases jokers : cards.list.Perm [96, 97]
    · exact (jokers_grammar pairs cards jokers kind).2 legal
    · have not_missle : kind ≠ .missle := by
        rintro rfl
        exact jokers legal
      rw [found_iff, getCardsType_kind pairs cards one jokers]
      have profile := (legal_iff_profile cards kind not_missle).1 legal
      apply kindOf_of_profile cards profile
      rintro rfl
      have total := total cards
      rw [List.length_map] at total
      obtain ⟨ones, twos, threes, fours⟩ := profile
      omega

end Types

/-! ### Discards over the last one -/

section Beats

variable {c : DiscardConf} (hand : Hand) (last : Last c)

/-- The list is classified and ranked strictly above the last discard. -/
def Beats (list : List Int) : Prop :=
  ∃ kind v, getCardsType c.pairs list = some (kind, v) ∧
    compareCards ⟨kind, list.length, v⟩ (some last.toPlayed) = some 1

variable {hand last} {list : List Int} {kind : CardType} {v : Int}

def cardsOf (taken : Taken hand list) : Cards where
  list := list
  distinct := taken.distinct
  dealt card mem := hand.dealt card (taken.held card mem)

theorem taken_typed (taken : Taken hand list) (legal : Legal list kind)
    (only : ∀ u, ValueOf (list.map value) kind u → u = v) :
    getCardsType c.pairs list = some (kind, v) := by
  obtain ⟨u, typed⟩ := legal_typed c.pairs (cardsOf taken) legal
  change getCardsType c.pairs list = _ at typed
  rw [← only u (valueOf_typed c.pairs_perm typed)]
  exact typed

theorem number_bomb : kind.number = CardType.bomb.number ↔ kind = .bomb := by
  cases kind <;> decide

theorem number_missle : kind.number = CardType.missle.number ↔ kind = .missle := by
  cases kind <;> decide

theorem number_lt_bomb (not_bomb : kind ≠ .bomb) (not_missle : kind ≠ .missle) :
    kind.number < CardType.bomb.number := by
  cases kind with
  | bomb => exact absurd rfl not_bomb
  | missle => exact absurd rfl not_missle
  | _ => decide

theorem beats_same (typed : getCardsType c.pairs list = some (kind, v)) (not_bomb : kind ≠ .bomb)
    (not_missle : kind ≠ .missle) (same : last.kind = kind) (counts : last.count = list.length)
    (above : last.value < v) : Beats last list :=
  ⟨kind, v, typed,
    compare_same (mt number_bomb.1 not_bomb) (mt number_missle.1 not_missle) same counts above⟩

theorem beats_bomb_iff (typed : getCardsType c.pairs list = some (.bomb, v))
    (not_missle : last.kind ≠ .missle) :
    Beats last list ↔ (last.kind = .bomb → last.value < v) := by
  constructor
  · rintro ⟨kind, u, typed', above⟩ bomb
    cases typed.symm.trans typed'
    rcases compare_above above with missle | ⟨_, less | ⟨_, above⟩⟩ | ⟨_, _, above⟩
    · cases missle
    · rw [bomb] at less
      exact absurd less (Nat.lt_irrefl _)
    · exact above
    · exact above
  · intro above
    refine ⟨.bomb, v, typed, ?_⟩
    apply compare_bomb rfl (show CardType.bomb.number ≠ CardType.missle.number by decide) _
      (mt number_missle.1 not_missle)
    by_cases bomb : last.kind = .bomb
    · exact .inr ⟨number_bomb.2 bomb, above bomb⟩
    · exact .inl (number_lt_bomb bomb not_missle)

theorem beats_missle (typed : getCardsType c.pairs list = some (.missle, v)) : Beats last list :=
  ⟨.missle, v, typed, rfl⟩

/-- Another number of cards is not above the last discard, if they are no bomb. -/
theorem not_beats (differ : list.length ≠ last.count)
    (plain : ∀ kind v, getCardsType c.pairs list = some (kind, v) → kind ≠ .bomb ∧ kind ≠ .missle) :
    ¬ Beats last list := by
  rintro ⟨kind, v, typed, above⟩
  obtain ⟨not_bomb, not_missle⟩ := plain kind v typed
  rcases compare_above above with missle | ⟨bomb, _⟩ | ⟨_, counts, _⟩
  · exact not_missle (number_missle.1 missle)
  · exact not_bomb (number_bomb.1 bomb)
  · exact differ counts

/-- More than two cards without four equal ones are neither a bomb nor the missle. -/
theorem taken_plain (taken : Taken hand list) (long : 2 < list.length)
    (no_four : ∀ v, (list.map value).count v ≠ 4) {kind : CardType} {v : Int}
    (typed : getCardsType c.pairs list = some (kind, v)) : kind ≠ .bomb ∧ kind ≠ .missle := by
  constructor
  · rintro rfl
    exact no_four v (valueOf_typed c.pairs_perm typed)
  · rintro rfl
    have two : list.length = 2 := typed_sized (cardsOf taken) typed
    omega

end Beats

/-! ### What is picked -/

section Picks

variable {c : DiscardConf} {lua : LuaSort} {hand : Hand}

theorem four_le (hand : Hand) (v : Int) : hand.count v ≤ 4 := hand.count_le (by decide) v

/-- The values of a hand are from the three to the jokers. -/
theorem hand_bounds (hand : Hand) {v : Int} (some_card : 0 < hand.count v) : 3 ≤ v ∧ v ≤ 17 := by
  have of_deck : ∀ v ∈ deck.map value, 3 ≤ v ∧ v ≤ 17 := by decide
  exact of_deck v (hand.value_mem some_card)

theorem equal_consists (n b : Nat) (v : Int) : Consists (List.replicate n v) n [v] b [] :=
  ⟨by simp, by simp⟩

theorem row_consists (copies k n : Nat) (b : Int) :
    Consists ((run b n).flatMap (List.replicate copies)) copies (run b n) k [] where
  distinct := by
    rw [List.append_nil]
    exact run_nodup b n
  perm := by simp

/-- The first value of a row is one of the hand's. -/
theorem row_low {Kind : Type} {last : Played Kind} {copies n : Nat} {b : Int}
    (row : RunAbove hand last copies n b) (pos : 0 < copies) (some_value : 0 < n) : 3 ≤ b := by
  have first := row.2 b (mem_run.2 (by omega))
  exact (hand_bounds hand (by omega)).1

/-- A triple with the single card that is looked for. -/
theorem withOne_consists {v : Int} (three : hand.count v = 3) {cards : List Int}
    (found : searchMinCombination c.pairs hand.cards lua 1 (valueCards c.pairs hand.cards v) =
      some cards) :
    Taken hand (pickWith c.pairs hand.cards lua 3 1 v) ∧
      ∃ w, Consists ((pickWith c.pairs hand.cards lua 3 1 v).map value) 3 [v] 1 [w] := by
  obtain ⟨comb, mem, ws, kickers⟩ := searchMin_made found
  rw [List.mem_singleton.1 mem] at kickers
  obtain ⟨taken, one, made⟩ := @pickWith_consists _ _ _ _ c.pairs_perm 3 1 1 1 v (by decide) three
    cards ws found kickers
  obtain ⟨w, rfl⟩ := List.length_eq_one_iff.1 one
  exact ⟨taken, w, made⟩

/-- Four cards with two single cards, or with a pair where there are fewer. -/
theorem withTwo_consists {v : Int} (four : hand.count v = 4) {cards : List Int}
    (found : searchMinCombination c.pairs hand.cards lua 2 (valueCards c.pairs hand.cards v) =
      some cards) :
    Taken hand (pickWith c.pairs hand.cards lua 4 2 v) ∧
      (2 ≤ hand.valuesWith 1 ∧
          (∃ w x, Consists ((pickWith c.pairs hand.cards lua 4 2 v).map value) 4 [v] 1 [w, x]) ∨
        hand.valuesWith 1 < 2 ∧ 0 < hand.valuesWith 2 ∧
          ∃ w, Consists ((pickWith c.pairs hand.cards lua 4 2 v).map value) 4 [v] 2 [w]) := by
  have singles := free_beside c.pairs_perm four (by decide) (by decide : 1 ≠ 4)
  have twos := free_beside c.pairs_perm four (by decide) (by decide : 2 ≠ 4)
  have made := found
  rw [searchMin_two, Option.or_eq_some_iff] at made
  rcases made with ones | ⟨no_ones, pair⟩
  · obtain ⟨ws, kickers⟩ := pickMin_made (show ∀ n ∈ [1, 1], 0 < n by simp) ones
    obtain ⟨taken, two, made⟩ := @pickWith_consists _ _ _ _ c.pairs_perm 4 2 1 2 v (by decide) four
      cards ws found kickers
    obtain ⟨w, x, rfl⟩ := List.length_eq_two.1 two
    refine ⟨taken, .inl ⟨?_, w, x, made⟩⟩
    have not_none := mt (pickMin_none c.pairs_perm Nat.one_pos 2).2
      (by rw [show List.replicate 2 1 = [1, 1] from rfl, ones]; nofun)
    omega
  · obtain ⟨ws, kickers⟩ := pickMin_made (show ∀ n ∈ [2], 0 < n by simp) pair
    obtain ⟨taken, one, made⟩ := @pickWith_consists _ _ _ _ c.pairs_perm 4 2 2 1 v (by decide) four
      cards ws found kickers
    obtain ⟨w, rfl⟩ := List.length_eq_one_iff.1 one
    have few := (pickMin_none c.pairs_perm Nat.one_pos 2).1 no_ones
    have not_none := mt (pickMin_none c.pairs_perm Nat.two_pos 1).2
      (by rw [show List.replicate 1 2 = [2] from rfl, pair]; nofun)
    exact ⟨taken, .inr ⟨by omega, by omega, w, made⟩⟩

/-- A value with two cards is no joker's. -/
theorem pair_bounds (hand : Hand) {v : Int} (two : hand.count v = 2) : v ∈ run 3 13 := by
  have of_deck : ∀ v ∈ deck.map value, 1 < (deck.map value).count v → v ∈ run 3 13 := by decide
  apply of_deck v (hand.value_mem (by omega))
  have := hand.count_deck v
  omega

/-- A pair to a triple is found if a value has two cards. -/
theorem pair_found {v : Int} (three : hand.count v = 3)
    (some_pair : 0 < countGroup c.pairs hand.cards 2) :
    ∃ w, hand.count w = 2 ∧
      findMinValueWithExactlyCount c.pairs hand.cards 2 (valueCards c.pairs hand.cards v) = some w := by
  obtain ⟨u, mem⟩ := Finset.card_pos.1 some_pair
  obtain ⟨_, two⟩ := Finset.mem_filter.1 mem
  rw [valueCounts_eq c.pairs_perm] at two
  have beside := free_beside c.pairs_perm three (by decide) (by decide : 2 ≠ 3)
  have pos : 0 < hand.valuesWith 2 := by
    apply List.length_pos_of_mem (a := u)
    rw [List.mem_filter, decide_eq_true_eq]
    exact ⟨pair_bounds hand two, two⟩
  rw [findMinValue_eq]
  cases free : freeValues c.pairs hand.cards 2 (valueCards c.pairs hand.cards v) with
  | nil =>
      rw [free] at beside
      change 0 = _ at beside
      omega
  | cons w rest =>
      have there : w ∈ freeValues c.pairs hand.cards 2 (valueCards c.pairs hand.cards v) := by
        rw [free]
        exact List.mem_cons_self
      have times := (mem_freeValues.1 there).2.1
      rw [valueCounts_eq c.pairs_perm] at times
      exact ⟨w, times, rfl⟩

theorem withPair_consists {v : Int} (three : hand.count v = 3)
    (some_pair : 0 < countGroup c.pairs hand.cards 2) :
    Taken hand (pickThreeWithTwo c hand.cards v) ∧
      ∃ w, Consists ((pickThreeWithTwo c hand.cards v).map value) 3 [v] 2 [w] := by
  obtain ⟨w, two, found⟩ := @pair_found c hand v three some_pair
  have apart : ∀ u ∈ [v], u ∉ [w] := by
    intro u mem there
    rw [List.mem_singleton] at mem there
    rw [← mem, there, two] at three
    cases three
  have picked := @kickers_picked _ _ hand c.pairs_perm _ _ (List.nodup_singleton v)
    (List.nodup_singleton w) apart
  have keys := @kickers_keys _ _ hand c.pairs_perm _ _ (List.nodup_singleton v)
    (List.nodup_singleton w) apart
  rw [List.flatMap_singleton, List.flatMap_singleton] at picked keys
  unfold pickThreeWithTwo
  rw [found, Option.map_some, Option.getD_some, pick_all c.pairs_perm three, pick_all c.pairs_perm two]
  refine ⟨picked.taken c.pairs_perm, w, ?_, ?_⟩
  · exact List.nodup_cons.2 ⟨apart v List.mem_cons_self, List.nodup_singleton w⟩
  · rw [keys]
    simp [three, two]

end Picks

/-! ### Discards that are found -/

/-- The search finds a discard that is not above the last one: a triple, or triples in a row, the
kickers of which are missing, the jokers being counted but not taken; four equal cards with other
kickers than the last discard has; and a bomb below the last one. -/
def Short (hand : Hand) (last : Played CardType) : Prop :=
  match last.kind with
  | .threeWithOne => (∃ i, (last.value < i ∧ i ≤ 15) ∧ hand.count i = 3) ∧ 4 ≤ hand.cards.card ∧
      hand.valuesWith 1 = 0
  | .fourWithDouble => (∃ i, (last.value < i ∧ i ≤ 15) ∧ hand.count i = 4) ∧ 6 ≤ hand.cards.card ∧
      (last.count = 6 ∧ hand.valuesWith 1 < 2 ∧ 0 < hand.valuesWith 2 ∨
        last.count = 8 ∧ (2 ≤ hand.valuesWith 1 ∨ 0 < hand.valuesWith 2))
  | .planeWithOne => (∃ b, RunAbove hand last 3 (last.count / 4) b) ∧
      last.count ≤ hand.allWith 1 * 4 ∧ hand.valuesWith 1 < last.count / 4
  | .bomb => (∃ i, (3 ≤ i ∧ i ≤ 14) ∧ hand.count i = 4) ∧
      ∀ i, last.value < i → i ≤ 15 → hand.count i ≠ 4
  | _ => False

section Found

variable {c : DiscardConf} {lua : LuaSort} {hand : Hand} {last : Last c} {cards : List Int}

theorem replicate_count {n : Nat} {i u : Int} (pos : 0 < n)
    (times : (List.replicate n i).count u = n) : u = i := by
  have mem := List.count_pos_iff.1 (times ▸ pos)
  exact (List.mem_replicate.1 mem).2

theorem single_typed {v : Int} (enough : 1 ≤ hand.count v) :
    getCardsType c.pairs (pick c.pairs hand.cards 1 v) = some (.single, v) := by
  obtain ⟨taken, keys⟩ := pick_taken c.pairs_perm enough
  apply taken_typed taken
  · exact ⟨v, by rw [keys]; exact equal_consists 1 2 v⟩
  · intro u single
    rw [keys] at single
    exact (List.singleton_inj.1 single).symm

theorem bomb_typed {i : Int} (four : hand.count i = 4) :
    getCardsType c.pairs (pick c.pairs hand.cards 4 i) = some (.bomb, i) := by
  obtain ⟨taken, keys⟩ := pick_taken c.pairs_perm (Nat.le_of_eq four.symm)
  apply taken_typed taken
  · exact ⟨i, by rw [keys]; exact equal_consists 4 1 i⟩
  · intro u times
    rw [keys] at times
    exact replicate_count (by decide) times

theorem three_typed {i : Int} (three : 3 ≤ hand.count i) :
    getCardsType c.pairs (pick c.pairs hand.cards 3 i) = some (.three, i) := by
  obtain ⟨taken, keys⟩ := pick_taken c.pairs_perm three
  apply taken_typed taken
  · exact ⟨i, by rw [keys]; exact equal_consists 3 1 i⟩
  · intro u times
    rw [keys] at times
    exact replicate_count (by decide) times

theorem double_typed {i : Int} (two : 2 ≤ hand.count i) :
    getCardsType c.pairs (pick c.pairs hand.cards 2 i) = some (.double, i) := by
  obtain ⟨taken, keys⟩ := pick_taken c.pairs_perm two
  apply taken_typed taken
  · exact ⟨i, by rw [keys]; exact equal_consists 2 1 i⟩
  · intro u times
    rw [keys] at times
    exact replicate_count (by decide) times

theorem consists_only {keys ws : List Int} {a b : Nat} {u v : Int} (made : Consists keys a [v] b ws)
    (a_pos : 0 < a) (b_pos : 0 < b) (differ : a ≠ b) (times : keys.count u = a) : u = v :=
  List.mem_singleton.1 ((made.count_iff a_pos b_pos differ).1 times)

theorem pick_length {n : Nat} {i : Int} (enough : n ≤ hand.count i) :
    (pick c.pairs hand.cards n i).length = n := by
  rw [keys_length (pick_taken c.pairs_perm enough).2, List.length_replicate]

/-- So many equal cards over as many of them. -/
theorem equal_outcome {kind : CardType} {n : Nat} {i : Int} (same : last.kind = kind) (pos : 0 < n)
    (counts : last.count = n) (above : last.value < i) (enough : n ≤ hand.count i)
    (typed : getCardsType c.pairs (pick c.pairs hand.cards n i) = some (kind, i))
    (not_bomb : kind ≠ .bomb) (not_missle : kind ≠ .missle) :
    SearchOutcome (Beats last) hand (pick c.pairs hand.cards n i) True := by
  have length := pick_length (c := c) enough
  refine ⟨(pick_taken c.pairs_perm enough).1, ?_, iff_of_true ?_ trivial⟩
  · exact List.ne_nil_of_length_pos (by omega)
  · exact beats_same typed not_bomb not_missle same (counts.trans length.symm) above

theorem bomb_outcome {i : Int} (four : hand.count i = 4) (not_missle : last.kind ≠ .missle) :
    SearchOutcome (Beats last) hand (pick c.pairs hand.cards 4 i) (last.kind = .bomb → last.value < i) := by
  have length := pick_length (c := c) (Nat.le_of_eq four.symm)
  refine ⟨(pick_taken c.pairs_perm (Nat.le_of_eq four.symm)).1, ?_,
    beats_bomb_iff (bomb_typed four) not_missle⟩
  exact List.ne_nil_of_length_pos (by omega)

theorem line_length (copies n : Nat) (b : Int) :
    ((run b n).flatMap (List.replicate copies)).length = copies * n := by
  rw [List.length_flatMap]
  simp [Nat.mul_comm]

/-- A line is classified with its first value. -/
theorem line_typed {kind : CardType} {copies n : Nat} {b : Int} (pos : 0 < copies) (two : 2 ≤ n)
    (low : 3 ≤ b) (below : b + n ≤ 15) (enough : ∀ u ∈ run b n, copies ≤ hand.count u)
    (legal : ∀ list : List Int, (∀ k, Consists (list.map value) copies (run b n) k []) → Legal list kind)
    (first : ∀ keys u, ValueOf keys kind u →
      u = (maxContinuityCards fun i => keys.count i = copies).headD 0) :
    getCardsType c.pairs (pickLine c.pairs hand.cards copies b n) = some (kind, b) := by
  obtain ⟨taken, keys⟩ := pickLine_taken c.pairs_perm enough
  have made : ∀ k, Consists ((pickLine c.pairs hand.cards copies b n).map value) copies (run b n) k [] := by
    intro k
    rw [keys]
    exact row_consists copies k n b
  apply taken_typed taken (legal _ made)
  intro u starts
  rw [first _ u starts]
  exact (made (copies + 1)).scan_head pos (Nat.succ_pos _) (by omega) low below two

section Lines

variable {n : Nat} {b : Int} (low : 3 ≤ b) (below : b + n ≤ 15)

include low below

theorem singleLine_typed (five : 5 ≤ n) (enough : ∀ u ∈ run b n, 1 ≤ hand.count u) :
    getCardsType c.pairs (pickLine c.pairs hand.cards 1 b n) = some (.singleLine, b) := by
  apply line_typed Nat.one_pos (by omega) low below enough _ fun _ _ => id
  intro list made
  refine ⟨_, ⟨b, n, low, below, .refl _⟩, ?_, made 2⟩
  rw [run_length]
  exact five

theorem doubleLine_typed (three : 3 ≤ n) (enough : ∀ u ∈ run b n, 2 ≤ hand.count u) :
    getCardsType c.pairs (pickLine c.pairs hand.cards 2 b n) = some (.doubleLine, b) := by
  apply line_typed Nat.two_pos (by omega) low below enough _ fun _ _ => id
  intro list made
  refine ⟨_, ⟨b, n, low, below, .refl _⟩, ?_, made 1⟩
  rw [run_length]
  exact three

theorem plane_typed (two : 2 ≤ n) (enough : ∀ u ∈ run b n, 3 ≤ hand.count u) :
    getCardsType c.pairs (pickLine c.pairs hand.cards 3 b n) = some (.plane, b) := by
  apply line_typed (by decide) two low below enough _ fun _ _ => id
  intro list made
  refine ⟨_, ⟨b, n, low, below, .refl _⟩, ?_, made 1⟩
  rw [run_length]
  exact two

end Lines

theorem pickLine_length {copies n : Nat} {b : Int} (enough : ∀ u ∈ run b n, copies ≤ hand.count u) :
    (pickLine c.pairs hand.cards copies b n).length = copies * n := by
  rw [keys_length (pickLine_taken c.pairs_perm enough).2, line_length]

/-- A line over as many cards. -/
theorem line_outcome {kind : CardType} {copies n : Nat} {b : Int} (same : last.kind = kind)
    (pos : 0 < copies) (some_value : 0 < n) (counts : last.count = copies * n)
    (row : RunAbove hand last.toPlayed copies n b)
    (typed : getCardsType c.pairs (pickLine c.pairs hand.cards copies b n) = some (kind, b))
    (not_bomb : kind ≠ .bomb) (not_missle : kind ≠ .missle) :
    SearchOutcome (Beats last) hand (pickLine c.pairs hand.cards copies b n) True := by
  have enough := fun u mem => (row.2 u mem).1
  have length := pickLine_length (c := c) enough
  have some_card := Nat.mul_pos pos some_value
  refine ⟨(pickLine_taken c.pairs_perm enough).1, List.ne_nil_of_length_pos (by omega),
    iff_of_true ?_ trivial⟩
  exact beats_same typed not_bomb not_missle same (by omega) row.1.1

theorem withOne_typed {i : Int} (three : hand.count i = 3) (some_single : hand.valuesWith 1 ≠ 0) :
    Taken hand (pickWith c.pairs hand.cards lua 3 1 i) ∧
      (pickWith c.pairs hand.cards lua 3 1 i).length = 4 ∧
      getCardsType c.pairs (pickWith c.pairs hand.cards lua 3 1 i) = some (.threeWithOne, i) := by
  have search := @searchMin_one_none c.pairs hand.cards (valueCards c.pairs hand.cards i) lua
    c.pairs_perm
  rw [free_beside c.pairs_perm three (by decide) (by decide)] at search
  cases found : searchMinCombination c.pairs hand.cards lua 1 (valueCards c.pairs hand.cards i) with
  | none => exact absurd (search.1 found) some_single
  | some kicker =>
      obtain ⟨taken, w, made⟩ := withOne_consists three found
      have length := made.perm.length_eq
      rw [List.length_map] at length
      refine ⟨taken, length, ?_⟩
      exact taken_typed taken ⟨i, w, made⟩
        fun u times => consists_only made (by decide) (by decide) (by decide) times

/-- Without a single card the triple is alone. -/
theorem withOne_bare {i : Int} (three : hand.count i = 3) (no_single : hand.valuesWith 1 = 0) :
    pickWith c.pairs hand.cards lua 3 1 i = pick c.pairs hand.cards 3 i := by
  have search := @searchMin_one_none c.pairs hand.cards (valueCards c.pairs hand.cards i) lua
    c.pairs_perm
  rw [free_beside c.pairs_perm three (by decide) (by decide)] at search
  rw [pickWith, search.2 no_single, Option.getD_none, List.append_nil]

/-- A triple with a single card is over the last discard if there is one. -/
theorem withOne_outcome {i : Int} (same : last.kind = .threeWithOne) (counts : last.count = 4)
    (above : last.value < i) (three : hand.count i = 3) :
    SearchOutcome (Beats last) hand (pickWith c.pairs hand.cards lua 3 1 i)
      (hand.valuesWith 1 ≠ 0) := by
  by_cases none : hand.valuesWith 1 = 0
  · have length := pick_length (c := c) (Nat.le_of_eq three.symm)
    rw [withOne_bare three none]
    refine ⟨(pick_taken c.pairs_perm (Nat.le_of_eq three.symm)).1,
      List.ne_nil_of_length_pos (by omega), iff_of_false ?_ (not_not.2 none)⟩
    apply not_beats (by omega)
    intro kind v typed
    cases (three_typed (Nat.le_of_eq three.symm)).symm.trans typed
    exact ⟨by decide, by decide⟩
  · obtain ⟨taken, length, typed⟩ := @withOne_typed c lua hand i three none
    refine ⟨taken, List.ne_nil_of_length_pos (by omega), iff_of_true ?_ none⟩
    exact beats_same typed (by decide) (by decide) same (by omega) above

theorem withPair_typed {i : Int} (three : hand.count i = 3)
    (some_pair : 0 < countGroup c.pairs hand.cards 2) :
    Taken hand (pickThreeWithTwo c hand.cards i) ∧ (pickThreeWithTwo c hand.cards i).length = 5 ∧
      getCardsType c.pairs (pickThreeWithTwo c hand.cards i) = some (.threeWithTwo, i) := by
  obtain ⟨taken, w, made⟩ := @withPair_consists c hand i three some_pair
  have length := made.perm.length_eq
  rw [List.length_map] at length
  refine ⟨taken, length, ?_⟩
  exact taken_typed taken (.inl ⟨i, w, made⟩)
    fun u times => consists_only made (by decide) (by decide) (by decide) times

theorem withPair_outcome {i : Int} (same : last.kind = .threeWithTwo) (counts : last.count = 5)
    (above : last.value < i) (three : hand.count i = 3)
    (some_pair : 0 < countGroup c.pairs hand.cards 2) :
    SearchOutcome (Beats last) hand (pickThreeWithTwo c hand.cards i) True := by
  obtain ⟨taken, length, typed⟩ := @withPair_typed c hand i three some_pair
  refine ⟨taken, List.ne_nil_of_length_pos (by omega), iff_of_true ?_ trivial⟩
  exact beats_same typed (by decide) (by decide) same (by omega) above

/-- Four cards with a pair are no combination. -/
theorem four_with_pair_untyped {list : List Int} (taken : Taken hand list) {v w : Int}
    (made : Consists (list.map value) 4 [v] 2 [w]) : getCardsType c.pairs list = none := by
  have length := made.perm.length_eq
  simp at length
  have has := made.counts (by decide) (by decide) (by decide)
  have others := (only_iff (cardsOf taken).four_le 4 2).1
    ((consists_iff (by decide) (by decide) (by decide) _ _).1 made).2.2
  have one : countCounts (list.map value) 1 = 0 := others 1 (by decide) (by decide) (by decide)
  have found := getCardsType_kind c.pairs (cardsOf taken) (by change list.length ≠ 1; omega) (by
    intro jokers
    have two := jokers.length_eq
    change list.length = 2 at two
    omega)
  change (getCardsType c.pairs list).map Prod.fst = kindOf (list.map value) at found
  rw [← Option.map_eq_none_iff (f := Prod.fst), found]
  simp at has
  simp [kindOf, has, one, length]

theorem four_outcome {i : Int} (same : last.kind = .fourWithDouble)
    (counts : last.count = 6 ∨ last.count = 8) (above : last.value < i) (four : hand.count i = 4) :
    SearchOutcome (Beats last) hand (pickWith c.pairs hand.cards lua 4 2 i)
      (¬ (last.count = 6 ∧ hand.valuesWith 1 < 2 ∧ 0 < hand.valuesWith 2 ∨
        last.count = 8 ∧ (2 ≤ hand.valuesWith 1 ∨ 0 < hand.valuesWith 2))) := by
  cases found : searchMinCombination c.pairs hand.cards lua 2 (valueCards c.pairs hand.cards i) with
  | none =>
      have alone : pickWith c.pairs hand.cards lua 4 2 i = pick c.pairs hand.cards 4 i := by
        rw [pickWith, found, Option.getD_none, List.append_nil]
      have left := (searchMin_two_none c.pairs_perm).1 found
      unfold pairsLeft at left
      rw [free_beside c.pairs_perm four (by decide) (by decide),
        free_beside c.pairs_perm four (by decide) (by decide)] at left
      rw [alone]
      refine (bomb_outcome four ?_).congr (iff_of_true ?_ (by omega))
      · rw [same]
        decide
      · rw [same]
        nofun
  | some kickers =>
      obtain ⟨taken, ⟨enough, w, x, made⟩ | ⟨few, pair, w, made⟩⟩ := withTwo_consists four found
      · have length := made.perm.length_eq
        rw [List.length_map] at length
        simp at length
        have typed : getCardsType c.pairs _ = some (.fourWithDouble, i) :=
          taken_typed taken (.inl ⟨i, w, x, made⟩) fun u times => consists_only made (by decide) (by decide) (by decide) times
        refine ⟨taken, List.ne_nil_of_length_pos (by omega), ?_⟩
        rcases counts with six | eight
        · refine iff_of_true ?_ (by omega)
          exact beats_same typed (by decide) (by decide) same (by omega) above
        · refine iff_of_false ?_ (by omega)
          apply not_beats (by omega)
          intro kind v typed'
          cases typed.symm.trans typed'
          exact ⟨by decide, by decide⟩
      · have length := made.perm.length_eq
        rw [List.length_map] at length
        simp at length
        refine ⟨taken, List.ne_nil_of_length_pos (by omega), iff_of_false ?_ (by omega)⟩
        rintro ⟨kind, v, typed, _⟩
        rw [four_with_pair_untyped taken made] at typed
        cases typed

theorem planeStart_whole {values : List Int} {size : Nat} (pos : 0 < size) (some_value : values ≠ []) :
    planeStart values (size * values.length) size = some (values.headD 0) := by
  unfold planeStart
  rw [Nat.mul_div_cancel_left _ pos]
  cases values with
  | nil => exact absurd rfl some_value
  | cons v rest =>
      rw [List.length_cons, List.range_succ_eq_map, List.find?_cons_of_pos]
      · rfl
      · rw [decide_eq_true_eq]
        push_cast
        rw [Int.sub_zero, Int.mul_comm]

/-- What a plane with single cards is made of. -/
structure WithOnes (hand : Hand) (b : Int) (n : Nat) (list : List Int) (ws : List Int) : Prop where
  taken : Taken hand list
  made : Consists (list.map value) 3 (run b n) 1 ws
  many : ws.length = min n (hand.valuesWith 1)

theorem pickPlane_made {b : Int} {n : Nat} (three : ∀ u ∈ run b n, hand.count u = 3) :
    ∃ ws, WithOnes hand b n (pickPlaneWithOne c lua hand.cards b n) ws := by
  obtain ⟨taken, ws, distinct, few, sum, perm⟩ := planeWithKickers_taken c.pairs_perm
    (@counts_one c.pairs hand.cards lua c.pairs_perm) (by decide) (run_nodup b n) three fun _ _ => rfl
  have one : ∀ w ∈ ws, hand.count w = 1 := by
    intro w mem
    have := few w mem
    omega
  refine ⟨ws, taken, ⟨distinct, ?_⟩, ?_⟩
  · rw [flatMap_each one] at perm
    exact perm
  · rw [run_length, freeValues_eq c.pairs_perm, List.map_congr_left one] at sum
    simp at sum
    exact sum

theorem WithOnes.length {b : Int} {n : Nat} {list ws : List Int} (plane : WithOnes hand b n list ws) :
    list.length = 3 * n + ws.length := by
  have length := plane.made.perm.length_eq
  rw [List.length_map, List.length_append, line_length, List.length_flatMap] at length
  rw [length]
  simp

theorem WithOnes.no_four {b : Int} {n : Nat} {list ws : List Int} (plane : WithOnes hand b n list ws)
    (v : Int) : (list.map value).count v ≠ 4 := by
  intro four
  have only := ((consists_iff (by decide) (by decide) (by decide) _ _).1 plane.made).2.2
  have times := only v (List.count_pos_iff.1 (by omega))
  omega

section WithOnes

variable {b : Int} {n : Nat} {list ws : List Int} (plane : WithOnes hand b n list ws)
  (low : 3 ≤ b) (below : b + n ≤ 15) (two : 2 ≤ n)

include plane low below two

/-- The scan keeps all triples. -/
theorem WithOnes.kept : scanned (list.map value) 3 = n ∧ countCounts (list.map value) 3 = n := by
  have row : Run (run b n) := ⟨b, n, low, below, .refl _⟩
  have values := ((consists_iff (by decide) (by decide) (by decide) _ _).1 plane.made).1
  have has := (plane.made.counts (by decide) (by decide) (by decide)).1
  rw [run_length] at has
  have kept := scanned_run (cardsOf plane.taken) (by decide : 0 < 3) (row.perm values)
    (by change 2 ≤ countCounts (list.map value) 3; omega)
  exact ⟨kept.trans has, has⟩

/-- The type of triples with single cards depends on their number alone. -/
theorem WithOnes.kind :
    (getCardsType c.pairs list).map Prod.fst = planeKind n (3 * n + ws.length) := by
  obtain ⟨kept, has⟩ := plane.kept low below two
  have length := plane.length
  have others := (only_iff (cardsOf plane.taken).four_le 3 1).1
    ((consists_iff (by decide) (by decide) (by decide) _ _).1 plane.made).2.2
  have four : countCounts (list.map value) 4 = 0 := others 4 (by decide) (by decide) (by decide)
  have found := getCardsType_kind c.pairs (cardsOf plane.taken) (by change list.length ≠ 1; omega) (by
    intro jokers
    have two := jokers.length_eq
    change list.length = 2 at two
    omega)
  change (getCardsType c.pairs list).map Prod.fst = kindOf (list.map value) at found
  rw [found, kindOf]
  rw [if_neg (by omega), if_pos (by omega), if_neg (by omega), kept, List.length_map, length]

/-- As many single cards as triples are a plane. -/
theorem WithOnes.typed (all : ws.length = n) :
    getCardsType c.pairs list = some (.planeWithOne, b) := by
  obtain ⟨kept, _⟩ := plane.kept low below two
  have length := plane.length
  have row : Run (run b n) := ⟨b, n, low, below, .refl _⟩
  apply taken_typed plane.taken
  · refine ⟨run b n, ws, row, ?_, ?_, plane.made⟩
    · rw [run_length]
      exact two
    · rw [run_length]
      exact all
  · intro u start
    have first := plane.made.scan_head (by decide) (by decide) (by decide) low below two
    change (maxContinuityCards fun i => (list.map value).count i = 3).length = n at kept
    change planeStart _ (list.map value).length 4 = some u at start
    have total : (list.map value).length =
        4 * (maxContinuityCards fun i => (list.map value).count i = 3).length := by
      rw [List.length_map]
      omega
    rw [total, planeStart_whole (by decide) (List.ne_nil_of_length_pos (by omega)), first] at start
    exact (Option.some.inj start).symm

end WithOnes

theorem plane_outcome {b : Int} {n : Nat} (same : last.kind = .planeWithOne) (two : 2 ≤ n)
    (counts : last.count = 4 * n) (row : RunAbove hand last.toPlayed 3 n b) :
    SearchOutcome (Beats last) hand (pickPlaneWithOne c lua hand.cards b n)
      (¬ hand.valuesWith 1 < n) := by
  have three : ∀ u ∈ run b n, hand.count u = 3 := by
    intro u mem
    have := row.2 u mem
    omega
  obtain ⟨ws, plane⟩ := @pickPlane_made c lua hand b n three
  have length := plane.length
  have many := plane.many
  have low := row_low row (by decide) (by omega)
  refine ⟨plane.taken, List.ne_nil_of_length_pos (by omega), ?_⟩
  by_cases short : hand.valuesWith 1 < n
  · refine iff_of_false ?_ (not_not.2 short)
    apply not_beats (by omega)
    intro kind v typed
    exact taken_plain plane.taken (by omega) plane.no_four typed
  · refine iff_of_true ?_ short
    have typed := plane.typed (c := c) low row.1.2 two (by omega)
    exact beats_same typed (by decide) (by decide) same (by omega) row.1.1

/-- Each triple of a plane is given the same pair. -/
theorem planeWithTwo_repeats {b : Int} {n : Nat} (two : 2 ≤ n)
    (three : ∀ u ∈ run b n, hand.count u = 3) (some_pair : 0 < countGroup c.pairs hand.cards 2) :
    ¬ (pickPlaneWithTwo c hand.cards b n).Nodup := by
  have pair : ∀ u, hand.count u = 3 →
      findMinValueWithExactlyCount c.pairs hand.cards 2 (valueCards c.pairs hand.cards u) =
        (freeValues c.pairs hand.cards 2 []).head? := by
    intro u times
    have beside := @freeValues_beside c.pairs hand.cards 2 [] c.pairs_perm u 3
      (by rw [valueCounts_eq c.pairs_perm, times]) (by decide) (by decide)
    rw [List.nil_append] at beside
    rw [findMinValue_eq, beside]
  obtain ⟨m, rfl⟩ := Nat.exists_eq_add_of_le' two
  have first := three b (mem_run.2 (by omega))
  have second := three (b + 1) (mem_run.2 (by omega))
  obtain ⟨w, times, found⟩ := @pair_found c hand b first some_pair
  have again := (pair (b + 1) second).trans ((pair b first).symm.trans found)
  have some_card : 0 < (pick c.pairs hand.cards 2 w).length := by
    rw [pick_length (by omega)]
    decide
  obtain ⟨card, mem⟩ := List.exists_mem_of_length_pos some_card
  intro distinct
  rw [pickPlaneWithTwo, run_cons, run_cons, List.flatMap_cons, List.flatMap_cons] at distinct
  apply (List.nodup_append.1 distinct).2.2 card _ card _ rfl
  · rw [pickThreeWithTwo, found]
    exact List.mem_append_right _ mem
  · rw [pickThreeWithTwo, again]
    exact List.mem_append_left _ (List.mem_append_right _ mem)

/-- What is found for the type of the last discard is over it unless the search falls short. -/
theorem found_outcome
    (found : seekFunc c lua hand.cards last.toPlayed last.kind = some cards)
    (not_missle : last.kind ≠ .missle) (not_twos : last.kind ≠ .planeWithTwo) :
    SearchOutcome (Beats last) hand cards (¬ Short hand last.toPlayed) := by
  have sized := last.sized
  unfold Short
  cases kind : last.kind with
  | single =>
      rw [kind] at found sized
      obtain ⟨i, within, fits, rfl⟩ := seekValue_some found
      rw [decide_eq_true_eq, valueCounts_eq c.pairs_perm] at fits
      exact (equal_outcome kind Nat.one_pos sized (by omega) (by omega) (single_typed (by omega))
        (by decide) (by decide)).congr (by simp)
  | double =>
      rw [kind] at found sized
      obtain ⟨i, within, fits, rfl⟩ := seekValue_some found
      rw [decide_eq_true_eq, valueCounts_eq c.pairs_perm] at fits
      exact (equal_outcome kind Nat.two_pos sized (by omega) (by omega) (double_typed (by omega))
        (by decide) (by decide)).congr (by simp)
  | three =>
      rw [kind] at found sized
      obtain ⟨i, within, fits, rfl⟩ := seekValue_some found
      rw [decide_eq_true_eq, valueCounts_eq c.pairs_perm] at fits
      exact (equal_outcome kind (by decide) sized (by omega) (by omega) (three_typed (by omega))
        (by decide) (by decide)).congr (by simp)
  | threeWithOne =>
      rw [kind] at found sized
      obtain ⟨i, within, fits, rfl⟩ := seekValue_some found
      rw [decide_eq_true_eq, valueCounts_eq c.pairs_perm] at fits
      refine (withOne_outcome kind sized (by omega) fits.1).congr (not_congr ?_)
      constructor
      · intro none
        exact ⟨⟨i, by omega, fits.1⟩, fits.2, none⟩
      · exact fun short => short.2.2
  | threeWithTwo =>
      rw [kind] at found sized
      obtain ⟨i, within, fits, rfl⟩ := seekValue_some found
      rw [decide_eq_true_eq, valueCounts_eq c.pairs_perm] at fits
      exact (withPair_outcome kind sized (by omega) fits.1 fits.2).congr (by simp)
  | fourWithDouble =>
      rw [kind] at found sized
      obtain ⟨i, within, fits, rfl⟩ := seekValue_some found
      rw [decide_eq_true_eq, valueCounts_eq c.pairs_perm] at fits
      refine (four_outcome kind sized (by omega) fits.1).congr (not_congr ?_)
      constructor
      · intro other
        exact ⟨⟨i, by omega, fits.1⟩, fits.2, other⟩
      · exact fun short => short.2.2
  | singleLine =>
      rw [kind] at found sized
      rw [seekFunc] at found
      have five : 5 ≤ last.count := sized
      obtain ⟨b, row, _, rfl⟩ := seekLine_some c.pairs_perm (four_le hand) Nat.one_pos Nat.one_pos
        (by omega) (Nat.one_mul _).symm found
      have typed := singleLine_typed (c := c) (row_low row Nat.one_pos (by omega)) row.1.2 five
        fun u mem => (row.2 u mem).1
      exact (line_outcome kind Nat.one_pos (by omega) (Nat.one_mul _).symm row typed (by decide)
        (by decide)).congr (by simp)
  | doubleLine =>
      rw [kind] at found sized
      rw [seekFunc] at found
      obtain ⟨n, three, counts⟩ := sized
      obtain ⟨b, row, _, rfl⟩ := seekLine_some c.pairs_perm (four_le hand) Nat.two_pos Nat.two_pos
        (by omega) counts found
      have half : last.count / 2 = n := by omega
      rw [half]
      have typed := doubleLine_typed (c := c) (row_low row Nat.two_pos (by omega)) row.1.2 three
        fun u mem => (row.2 u mem).1
      exact (line_outcome kind Nat.two_pos (by omega) counts row typed (by decide)
        (by decide)).congr (by simp)
  | plane =>
      rw [kind] at found sized
      rw [seekFunc] at found
      obtain ⟨n, two, counts⟩ := sized
      obtain ⟨b, row, _, rfl⟩ := seekLine_some c.pairs_perm (four_le hand) (by decide) (by decide)
        (by omega) counts found
      have typed := plane_typed (c := c) (row_low row (by decide) (by omega)) row.1.2 two
        fun u mem => (row.2 u mem).1
      exact (line_outcome kind (by decide) (by omega) counts row typed (by decide)
        (by decide)).congr (by simp)
  | planeWithOne =>
      rw [kind] at found sized
      rw [seekFunc] at found
      obtain ⟨n, two, counts⟩ := sized
      obtain ⟨b, row, enough, rfl⟩ := seekLine_some c.pairs_perm (four_le hand) (by decide) (by decide)
        (by omega) counts found
      rw [decide_eq_true_eq, countGroup_eq c.pairs_perm] at enough
      have quarter : last.count / 4 = n := by omega
      rw [quarter]
      refine (plane_outcome kind two counts row).congr (not_congr ?_)
      constructor
      · intro short
        exact ⟨⟨b, row⟩, enough, short⟩
      · exact fun short => short.2.2
  | planeWithTwo => exact absurd kind not_twos
  | bomb =>
      rw [kind] at found
      obtain ⟨i, within, fits, rfl⟩ := seekValue_some found
      rw [decide_eq_true_eq, valueCounts_eq c.pairs_perm] at fits
      refine (bomb_outcome fits not_missle).congr (iff_of_true (fun _ => by omega) ?_)
      rintro ⟨_, none⟩
      exact none i (by omega) within.2 fits
  | missle => exact absurd kind not_missle

theorem no_bomb_above (none : seekFunc c lua hand.cards last.toPlayed last.kind = none)
    (bomb : last.kind = .bomb) {i : Int} (above : last.value < i) (below : i ≤ 15) :
    hand.count i ≠ 4 := by
  rw [bomb, seekFunc, seekValue_none] at none
  have unfit := none i (by omega) below
  rw [decide_eq_false_iff_not, valueCounts_eq c.pairs_perm] at unfit
  exact unfit

/-- Where nothing is found for the type, the search falls short only of a bomb. -/
theorem short_of_none (none : seekFunc c lua hand.cards last.toPlayed last.kind = none) :
    Short hand last.toPlayed ↔ last.kind = .bomb ∧ ∃ i, (3 ≤ i ∧ i ≤ 14) ∧ hand.count i = 4 := by
  have sized := last.sized
  unfold Short
  cases kind : last.kind with
  | threeWithOne =>
      rw [kind, seekFunc, seekValue_none] at none
      refine iff_of_false ?_ (by simp)
      rintro ⟨⟨i, within, three⟩, enough, _⟩
      have unfit := none i (by omega) within.2
      rw [decide_eq_false_iff_not, valueCounts_eq c.pairs_perm] at unfit
      exact unfit ⟨three, enough⟩
  | fourWithDouble =>
      rw [kind, seekFunc, seekValue_none] at none
      refine iff_of_false ?_ (by simp)
      rintro ⟨⟨i, within, four⟩, enough, _⟩
      have unfit := none i (by omega) within.2
      rw [decide_eq_false_iff_not, valueCounts_eq c.pairs_perm] at unfit
      exact unfit ⟨four, enough⟩
  | planeWithOne =>
      rw [kind] at none sized
      rw [seekFunc] at none
      obtain ⟨n, two, counts⟩ := sized
      have quarter : last.count / 4 = n := by omega
      rw [quarter]
      refine iff_of_false ?_ (by simp)
      rintro ⟨⟨b, row⟩, enough, _⟩
      rw [← countGroup_eq c.pairs_perm] at enough
      exact seekLine_none c.pairs_perm (four_le hand) (by decide) (by decide) (by omega) counts
        (decide_eq_true enough) none b row
  | bomb =>
      simp only [true_and, and_iff_left_iff_imp]
      intro _ i above below
      exact no_bomb_above none kind above below
  | _ => simp

/-- A joker is the only card of its value. -/
theorem joker_pick {v joker : Int} (only : ∀ card ∈ deck, value card = v → card = joker)
    (some_card : 0 < hand.count v) : pick c.pairs hand.cards 1 v = [joker] := by
  obtain ⟨taken, keys⟩ := pick_taken c.pairs_perm some_card
  obtain ⟨card, single⟩ := List.length_eq_one_iff.1 (pick_length (c := c) some_card)
  rw [single] at taken keys ⊢
  have times : value card = v := List.singleton_inj.1 keys
  rw [only card (hand.dealt card (taken.held card List.mem_cons_self)) times]

theorem pickMissle_eq (small : 0 < hand.count 16) (big : 0 < hand.count 17) :
    pickMissle c hand.cards = [96, 97] := by
  rw [pickMissle, joker_pick (by decide : ∀ card ∈ deck, value card = 16 → card = 96) small,
    joker_pick (by decide : ∀ card ∈ deck, value card = 17 → card = 97) big]
  rfl

theorem joker_held {v joker : Int} (only : ∀ card ∈ deck, value card = v → card = joker)
    (some_card : 0 < hand.count v) : joker ∈ hand.cards := by
  obtain ⟨card, mem⟩ := Finset.card_pos.1 some_card
  obtain ⟨held, times⟩ := Finset.mem_filter.1 mem
  rw [← only card (hand.dealt card held) times]
  exact held

theorem missle_taken (small : 0 < hand.count 16) (big : 0 < hand.count 17) : Taken hand [96, 97] := by
  refine ⟨by decide, ?_⟩
  intro card mem
  rcases List.mem_pair.1 mem with rfl | rfl
  · exact joker_held (by decide : ∀ card ∈ deck, value card = 16 → card = 96) small
  · exact joker_held (by decide : ∀ card ∈ deck, value card = 17 → card = 97) big

theorem missle_found (found : seekFunc c lua hand.cards last.toPlayed .missle = some cards) :
    SearchOutcome (Beats last) hand cards True := by
  rw [seekFunc] at found
  split at found
  · rename_i jokers
    cases found
    rw [valueCounts_eq c.pairs_perm, valueCounts_eq c.pairs_perm] at jokers
    rw [pickMissle_eq jokers.1 jokers.2]
    exact ⟨missle_taken jokers.1 jokers.2, List.cons_ne_nil _ _, iff_of_true (beats_missle rfl) trivial⟩
  · cases found

theorem anyBomb_found (found : seekAnyBomb c hand.cards = some cards) :
    ∃ i, (3 ≤ i ∧ i ≤ 14) ∧ hand.count i = 4 ∧ cards = pick c.pairs hand.cards 4 i := by
  obtain ⟨i, within, fits, same⟩ := seekValue_some found
  rw [decide_eq_true_eq, valueCounts_eq c.pairs_perm] at fits
  exact ⟨i, within, fits, same⟩

theorem anyBomb_none (none : seekAnyBomb c hand.cards = none) {i : Int} (within : 3 ≤ i ∧ i ≤ 14) :
    hand.count i ≠ 4 := by
  have unfit := seekValue_none.1 none i within.1 within.2
  rw [decide_eq_false_iff_not, valueCounts_eq c.pairs_perm] at unfit
  exact unfit

/-- Every discard that the search finds is made of cards of the hand, and is classified and ranked
above the last one. -/
def SeekSound (lua : LuaSort) (hand : Hand) (last : Last c) : Prop :=
  ∀ cards, seekGreatThan c lua hand.cards last.toPlayed = .cards cards →
    Taken hand cards ∧ Beats last cards

/-- What is searched for when nothing is found for the type. -/
theorem others_outcome (found : (seekAnyBomb c hand.cards).or
      (seekFunc c lua hand.cards last.toPlayed .missle) = some cards)
    (not_missle : last.kind ≠ .missle)
    (none_above : last.kind = .bomb → ∀ i, last.value < i → i ≤ 15 → hand.count i ≠ 4) :
    SearchOutcome (Beats last) hand cards
      (¬ (last.kind = .bomb ∧ ∃ i, (3 ≤ i ∧ i ≤ 14) ∧ hand.count i = 4)) := by
  rcases Option.or_eq_some_iff.1 found with bomb | ⟨no_bomb, jokers⟩
  · obtain ⟨i, within, four, rfl⟩ := anyBomb_found bomb
    refine (bomb_outcome four not_missle).congr ?_
    constructor
    · rintro above ⟨bomb, _⟩
      exact none_above bomb i (above bomb) (by omega) four
    · intro no_bomb bomb
      exact absurd ⟨bomb, i, within, four⟩ no_bomb
  · refine (missle_found jokers).congr (iff_of_true trivial ?_)
    rintro ⟨_, i, within, four⟩
    exact anyBomb_none no_bomb within four

theorem others_none (none : (seekAnyBomb c hand.cards).or
      (seekFunc c lua hand.cards last.toPlayed .missle) = none) :
    ¬ (last.kind = .bomb ∧ ∃ i, (3 ≤ i ∧ i ≤ 14) ∧ hand.count i = 4) := by
  rintro ⟨_, i, within, four⟩
  exact anyBomb_none (Option.or_eq_none_iff.1 none).1 within four

theorem SearchOutcome.sound_iff {good : Prop} {found : Option (List Int)} (some_found : found = some cards)
    (outcome : SearchOutcome (Beats last) hand cards good) :
    (∀ list, checked found = .cards list → Taken hand list ∧ Beats last list) ↔ good := by
  rw [← outcome.beats_iff]
  constructor
  · intro all
    exact (all cards (checked_iff.2 ⟨some_found, outcome.some_card, outcome.taken.distinct⟩)).2
  · intro beats list sought
    cases (some_found.symm.trans (checked_iff.1 sought).1)
    exact ⟨outcome.taken, beats⟩

/-- A plane with pairs is stopped by the assertion. -/
theorem planeWithTwo_stopped (found : seekFunc c lua hand.cards last.toPlayed last.kind = some cards)
    (twos : last.kind = .planeWithTwo) : ¬ cards.Nodup := by
  have sized := last.sized
  rw [twos] at found sized
  rw [seekFunc] at found
  obtain ⟨n, two, counts⟩ := sized
  obtain ⟨b, row, enough, rfl⟩ := seekLine_some c.pairs_perm (four_le hand) (by decide) (by decide)
    (by omega) counts found
  rw [decide_eq_true_eq] at enough
  have fifth : last.count / 5 = n := by omega
  rw [fifth]
  refine planeWithTwo_repeats two ?_ (by omega)
  intro u mem
  have := row.2 u mem
  omega

theorem seekSound_iff : SeekSound lua hand last ↔ ¬ Short hand last.toPlayed := by
  unfold SeekSound seekGreatThan
  by_cases missle : last.kind = .missle
  · rw [if_pos missle]
    refine iff_of_true nofun ?_
    rw [Short, missle]
    simp
  · rw [if_neg missle]
    cases found : seekFunc c lua hand.cards last.toPlayed last.kind with
    | some cards =>
        by_cases twos : last.kind = .planeWithTwo
        · refine iff_of_true ?_ (by rw [Short, twos]; simp)
          intro list sought
          obtain ⟨same, _, distinct⟩ := checked_iff.1 sought
          cases same
          exact absurd distinct (planeWithTwo_stopped found twos)
        · exact SearchOutcome.sound_iff rfl (found_outcome found missle twos)
    | none =>
        rw [short_of_none found, Option.none_or]
        cases other : (seekAnyBomb c hand.cards).or
            (seekFunc c lua hand.cards last.toPlayed .missle) with
        | some cards =>
            exact SearchOutcome.sound_iff rfl (others_outcome other missle
              fun bomb i above below => no_bomb_above found bomb above below)
        | none => exact iff_of_true nofun (others_none other)

end Found

end FkServer.Land
