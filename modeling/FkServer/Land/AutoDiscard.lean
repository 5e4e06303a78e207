import FkServer.Land.Seek

/-!
`cards_util.seek_greatest` of `land`, and the discards that `auto_discard` makes for a player: when
the search finds cards that have no type, and when `do_action_discard` refuses what is found.
-/
namespace FkServer.Land

open Climbing

/-! ### The search for the longest discard -/

section
variable (c : DiscardConf) (lua : LuaSort) (hand : Finset Int)

/-- `seek_continuity_cards_count(valuecounts, 3, value_count)`, with what is picked of the longest
run if it is long enough. -/
def seekLongest (valueCount : Nat) (enough : Nat → Bool) (picks : Int → Nat → List Int) :
    Option (List Int) :=
  (seekContinuityCardsCount lua (continuable (valueCounts c.pairs hand) valueCount)
    (fun _ => false) 3).bind fun (lianCount, firstValue) =>
      if enough lianCount then some (picks firstValue lianCount) else none

/-- `seek_func` of `seek_greatest` -/
def greatestFunc : CardType → Option (List Int)
  | .single => seekValue 3 17 (fun i => valueCounts c.pairs hand i = 1) (pick c.pairs hand 1)
  | .double => seekValue 3 15
      (fun i => 2 ≤ valueCounts c.pairs hand i ∧ valueCounts c.pairs hand i < 4) (pick c.pairs hand 2)
  | .three => seekValue 3 15 (fun i => valueCounts c.pairs hand i = 3) (pick c.pairs hand 3)
  | .threeWithOne => seekValue 3 15 (fun i => valueCounts c.pairs hand i = 3 ∧ 4 ≤ hand.card)
      (pickWith c.pairs hand lua 3 1)
  | .threeWithTwo => seekValue 3 15
      (fun i => valueCounts c.pairs hand i = 3 ∧ 0 < countGroup c.pairs hand 2) (pickThreeWithTwo c hand)
  | .fourWithDouble => seekValue 3 15 (fun i => valueCounts c.pairs hand i = 4 ∧ 6 ≤ hand.card)
      (pickWith c.pairs hand lua 4 2)
  | .singleLine => seekLongest c lua hand 1 (5 ≤ ·) (pickLine c.pairs hand 1)
  | .doubleLine => seekLongest c lua hand 3 (2 ≤ ·) (pickLine c.pairs hand 2)
  | .plane => seekLongest c lua hand 3 (2 ≤ ·) (pickLine c.pairs hand 3)
  | .planeWithOne => seekLongest c lua hand 3 (fun n => 2 ≤ n ∧ n ≤ countGroup c.pairs hand 1)
      (pickPlaneWithOne c lua hand)
  | .planeWithTwo => seekLongest c lua hand 3 (fun n => 2 ≤ n ∧ n ≤ countGroup c.pairs hand 2)
      (pickPlaneWithTwo c hand)
  | .bomb => seekValue 3 15 (fun i => valueCounts c.pairs hand i = 4) (pick c.pairs hand 4)
  | .missle =>
      if 0 < valueCounts c.pairs hand 16 ∧ 0 < valueCounts c.pairs hand 17 then some (pickMissle c hand)
      else none

/-- `seekorder`. Four cards with two are never among them, `FOUR_WITH_TWO` being no type. -/
def seekorder : List CardType :=
  [.planeWithOne, .plane, .doubleLine, .singleLine, .threeWithOne, .double, .single, .bomb, .missle] ++
    (if c.sanDaiEr then [.threeWithTwo] else []) ++ if c.sanZhang then [.three] else []

/-- `typecards`, without the types for which there are no cards. -/
def typecards : List (CardType × List Int) :=
  (seekorder c).filterMap fun t =>
    ((greatestFunc c lua hand t).filter fun cards => cards ≠ []).map fun cards => (t, cards)

/-- The order of the types found: the missle last, a bomb before it, and the longer ones first. -/
def typecardLt (l r : CardType × List Int) : Bool :=
  if l.1 = .missle then false
  else if r.1 = .missle then true
  else if l.1 = .bomb then false
  else if r.1 = .bomb then true
  else r.2.length < l.2.length

/-- `cards_util.seek_greatest` -/
def seekGreatest : Sought :=
  match (lua.sort typecardLt (typecards c lua hand)).head? with
  | none => .error
  | some top => checked (some top.2)

end

/-- `auto_discard`, up to the cards it finds for the player on turn. -/
def autoDiscard (c : DiscardConf) (lua : LuaSort) (s : Discards) : Sought :=
  match s.lastDiscard with
  | none => seekGreatest c lua (s.handCards s.curDiscardChair)
  | some last => seekGreatThan c lua (s.handCards s.curDiscardChair) last.toPlayed

/-! ### The order of the types found -/

/-- What the types found are sorted by. -/
def rank (found : CardType × List Int) : Int :=
  if found.1 = .missle then -2 else if found.1 = .bomb then -1 else found.2.length

theorem typecardLt_eq : typecardLt = fun l r => decide (rank r < rank l) := by
  funext l r
  have left : (0 : Int) ≤ l.2.length := Int.natCast_nonneg _
  have right : (0 : Int) ≤ r.2.length := Int.natCast_nonneg _
  unfold typecardLt rank
  by_cases l_missle : l.1 = .missle <;> by_cases r_missle : r.1 = .missle <;>
    by_cases l_bomb : l.1 = .bomb <;> by_cases r_bomb : r.1 = .bomb <;>
    simp_all <;> omega

section Top

variable {c : DiscardConf} {lua : LuaSort} {hand : Finset Int} {t : CardType} {cards : List Int}

theorem mem_typecards : (t, cards) ∈ typecards c lua hand ↔
    t ∈ seekorder c ∧ greatestFunc c lua hand t = some cards ∧ cards ≠ [] := by
  unfold typecards
  simp only [List.mem_filterMap, Option.map_eq_some_iff, Option.filter_eq_some_iff, Prod.mk.injEq,
    decide_eq_true_eq]
  constructor
  · rintro ⟨_, order, _, ⟨found, some_card⟩, rfl, rfl⟩
    exact ⟨order, found, some_card⟩
  · rintro ⟨order, found, some_card⟩
    exact ⟨t, order, cards, ⟨found, some_card⟩, rfl, rfl⟩

/-- What is found has the highest rank of all types found. -/
theorem seekGreatest_top (found : seekGreatest c lua hand = .cards cards) :
    ∃ t, (t, cards) ∈ typecards c lua hand ∧
      ∀ other ∈ typecards c lua hand, rank other ≤ rank (t, cards) := by
  unfold seekGreatest at found
  rw [typecardLt_eq] at found
  cases top : (lua.sort (fun l r => decide (rank r < rank l)) (typecards c lua hand)).head? with
  | none =>
      rw [top] at found
      cases found
  | some first =>
      rw [top] at found
      cases (checked_iff.1 found).1
      exact ⟨first.1, lua.head_mem top, lua.key_le_head rank top⟩

end Top

/-! ### What is found for each type -/

/-- So many values in a row, with so many cards of each. -/
def HeldRow (hand : Hand) (copies n : Nat) (b : Int) : Prop :=
  (3 ≤ b ∧ b + n ≤ 15) ∧ ∀ u ∈ run b n, copies ≤ hand.count u ∧ hand.count u ≤ 3

/-- No row is longer. -/
def Longest (hand : Hand) (copies n : Nat) : Prop := ∀ m b, HeldRow hand copies m b → m ≤ n

/-- Cards of the hand that are given the type. -/
def TakenAs (c : DiscardConf) (hand : Hand) (kind : CardType) (cards : List Int) : Prop :=
  Taken hand cards ∧ ∃ v, getCardsType c.pairs cards = some (kind, v)

section Candidates

variable {c : DiscardConf} {lua : LuaSort} {hand : Hand} {cards : List Int}

theorem longest_run {copies m : Nat} {b : Int} (pos : 0 < copies) (some_value : 0 < m)
    (row : HeldRow hand copies m b) :
    ∃ n b', seekContinuityCardsCount lua (continuable (valueCounts c.pairs hand.cards) copies)
      (fun _ => false) 3 = some (n, b') ∧ m ≤ n :=
  @seekContinuity_longest _ _ lua _ _ _ some_value row.1.1 row.1.2
    (fun u mem => (continuable_iff c.pairs_perm (four_le hand) pos u).2 (row.2 u mem)) fun _ _ _ => rfl

theorem run_found {copies n : Nat} {b : Int} (pos : 0 < copies)
    (found : seekContinuityCardsCount lua (continuable (valueCounts c.pairs hand.cards) copies)
      (fun _ => false) 3 = some (n, b)) : HeldRow hand copies n b ∧ Longest hand copies n := by
  have section_ := seekContinuity_found found
  refine ⟨⟨⟨section_.above, section_.below⟩, ?_⟩, ?_⟩
  · intro u mem
    exact (continuable_iff c.pairs_perm (four_le hand) pos u).1 (section_.inside u mem)
  · intro m b' row
    rcases Nat.eq_zero_or_pos m with rfl | some_value
    · exact Nat.zero_le n
    · obtain ⟨n', b'', same, long⟩ := @longest_run c lua hand _ _ _ pos some_value row
      cases found.symm.trans same
      exact long

theorem seekLongest_some {copies : Nat} {enough : Nat → Bool} {picks : Int → Nat → List Int}
    (pos : 0 < copies) (found : seekLongest c lua hand.cards copies enough picks = some cards) :
    ∃ n b, HeldRow hand copies n b ∧ Longest hand copies n ∧ enough n = true ∧ cards = picks b n := by
  obtain ⟨⟨n, b⟩, longest, taken⟩ := Option.bind_eq_some_iff.1 found
  obtain ⟨row, most⟩ := run_found pos longest
  simp only [] at taken
  split at taken
  · rename_i passes
    exact ⟨n, b, row, most, passes, (Option.some.inj taken).symm⟩
  · cases taken

theorem seekLongest_exists {copies m : Nat} {b : Int} {enough : Nat → Bool}
    {picks : Int → Nat → List Int} (pos : 0 < copies) (some_value : 0 < m) (row : HeldRow hand copies m b)
    (can : ∀ n b', m ≤ n → HeldRow hand copies n b' → enough n = true) :
    ∃ n b', m ≤ n ∧ HeldRow hand copies n b' ∧
      seekLongest c lua hand.cards copies enough picks = some (picks b' n) := by
  obtain ⟨n, b', longest, long⟩ := @longest_run c lua hand _ _ _ pos some_value row
  have row' := (run_found pos longest).1
  refine ⟨n, b', long, row', ?_⟩
  rw [seekLongest, longest, Option.bind_some]
  exact if_pos (can n b' long row')

theorem found_single (found : greatestFunc c lua hand.cards .single = some cards) :
    TakenAs c hand .single cards ∧ cards.length = 1 := by
  obtain ⟨i, _, fits, rfl⟩ := seekValue_some found
  rw [decide_eq_true_eq, valueCounts_eq c.pairs_perm] at fits
  exact ⟨⟨(pick_taken c.pairs_perm (by omega)).1, i, single_typed (by omega)⟩, pick_length (by omega)⟩

theorem found_double (found : greatestFunc c lua hand.cards .double = some cards) :
    TakenAs c hand .double cards ∧ cards.length = 2 := by
  obtain ⟨i, _, fits, rfl⟩ := seekValue_some found
  rw [decide_eq_true_eq, valueCounts_eq c.pairs_perm] at fits
  exact ⟨⟨(pick_taken c.pairs_perm fits.1).1, i, double_typed fits.1⟩, pick_length fits.1⟩

theorem bare_three {i : Int} (three : hand.count i = 3) :
    TakenAs c hand .three (pick c.pairs hand.cards 3 i) ∧ (pick c.pairs hand.cards 3 i).length = 3 := by
  have enough := Nat.le_of_eq three.symm
  exact ⟨⟨(pick_taken c.pairs_perm enough).1, i, three_typed enough⟩, pick_length enough⟩

theorem found_three (found : greatestFunc c lua hand.cards .three = some cards) :
    TakenAs c hand .three cards ∧ cards.length = 3 := by
  obtain ⟨i, _, fits, rfl⟩ := seekValue_some found
  rw [decide_eq_true_eq, valueCounts_eq c.pairs_perm] at fits
  exact bare_three fits

theorem found_withOne (found : greatestFunc c lua hand.cards .threeWithOne = some cards) :
    4 ≤ hand.cards.card ∧ ∃ i, hand.count i = 3 ∧ cards = pickWith c.pairs hand.cards lua 3 1 i := by
  obtain ⟨i, _, fits, rfl⟩ := seekValue_some found
  rw [decide_eq_true_eq, valueCounts_eq c.pairs_perm] at fits
  exact ⟨fits.2, i, fits.1, rfl⟩

theorem withOne_cases {i : Int} (three : hand.count i = 3) :
    hand.valuesWith 1 ≠ 0 ∧ TakenAs c hand .threeWithOne (pickWith c.pairs hand.cards lua 3 1 i) ∧
        (pickWith c.pairs hand.cards lua 3 1 i).length = 4 ∨
      hand.valuesWith 1 = 0 ∧ TakenAs c hand .three (pickWith c.pairs hand.cards lua 3 1 i) ∧
        (pickWith c.pairs hand.cards lua 3 1 i).length = 3 := by
  by_cases none : hand.valuesWith 1 = 0
  · rw [withOne_bare three none]
    exact .inr ⟨none, bare_three three⟩
  · obtain ⟨taken, length, typed⟩ := @withOne_typed c lua hand i three none
    exact .inl ⟨none, ⟨taken, i, typed⟩, length⟩

theorem found_withPair (found : greatestFunc c lua hand.cards .threeWithTwo = some cards) :
    (TakenAs c hand .threeWithTwo cards ∧ cards.length = 5) ∧ 0 < hand.allWith 2 := by
  obtain ⟨i, _, fits, rfl⟩ := seekValue_some found
  rw [decide_eq_true_eq, valueCounts_eq c.pairs_perm] at fits
  obtain ⟨taken, length, typed⟩ := @withPair_typed c hand i fits.1 fits.2
  rw [countGroup_eq c.pairs_perm] at fits
  exact ⟨⟨⟨taken, i, typed⟩, length⟩, fits.2⟩

theorem found_line (found : greatestFunc c lua hand.cards .singleLine = some cards) :
    ∃ n b, HeldRow hand 1 n b ∧ 5 ≤ n ∧ TakenAs c hand .singleLine cards ∧ cards.length = n := by
  rw [greatestFunc] at found
  obtain ⟨n, b, row, _, enough, rfl⟩ := seekLongest_some (by decide) found
  have each := fun u mem => (row.2 u mem).1
  have five : 5 ≤ n := of_decide_eq_true enough
  refine ⟨n, b, row, five, ⟨(pickLine_taken c.pairs_perm each).1, b, ?_⟩, ?_⟩
  · exact singleLine_typed row.1.1 row.1.2 five each
  · rw [pickLine_length each, Nat.one_mul]

theorem found_plane (found : greatestFunc c lua hand.cards .plane = some cards) :
    ∃ n b, HeldRow hand 3 n b ∧ 2 ≤ n ∧ TakenAs c hand .plane cards ∧ cards.length = 3 * n := by
  rw [greatestFunc] at found
  obtain ⟨n, b, row, _, enough, rfl⟩ := seekLongest_some (by decide) found
  have each := fun u mem => (row.2 u mem).1
  have two : 2 ≤ n := of_decide_eq_true enough
  refine ⟨n, b, row, two, ⟨(pickLine_taken c.pairs_perm each).1, b, ?_⟩, pickLine_length each⟩
  exact plane_typed row.1.1 row.1.2 two each

theorem found_doubleLine (found : greatestFunc c lua hand.cards .doubleLine = some cards) :
    ∃ n b, HeldRow hand 3 n b ∧ 2 ≤ n ∧ cards.length = 2 * n := by
  rw [greatestFunc] at found
  obtain ⟨n, b, row, _, enough, rfl⟩ := seekLongest_some (by decide) found
  refine ⟨n, b, row, of_decide_eq_true enough, pickLine_length fun u mem => ?_⟩
  have := row.2 u mem
  omega

theorem found_withOnes (found : greatestFunc c lua hand.cards .planeWithOne = some cards) :
    ∃ n b ws, HeldRow hand 3 n b ∧ Longest hand 3 n ∧ 2 ≤ n ∧ n ≤ hand.allWith 1 ∧
      WithOnes hand b n cards ws := by
  rw [greatestFunc] at found
  obtain ⟨n, b, row, longest, enough, rfl⟩ := seekLongest_some (by decide) found
  rw [decide_eq_true_eq, countGroup_eq c.pairs_perm] at enough
  obtain ⟨ws, plane⟩ := @pickPlane_made c lua hand b n fun u mem => by
    have := row.2 u mem
    omega
  exact ⟨n, b, ws, row, longest, enough.1, enough.2, plane⟩

theorem found_bomb (found : greatestFunc c lua hand.cards .bomb = some cards) :
    TakenAs c hand .bomb cards := by
  obtain ⟨i, _, fits, rfl⟩ := seekValue_some found
  rw [decide_eq_true_eq, valueCounts_eq c.pairs_perm] at fits
  exact ⟨(pick_taken c.pairs_perm (Nat.le_of_eq fits.symm)).1, i, bomb_typed fits⟩

theorem found_missle (found : greatestFunc c lua hand.cards .missle = some cards) :
    TakenAs c hand .missle cards := by
  rw [greatestFunc] at found
  split at found
  · rename_i jokers
    cases found
    rw [valueCounts_eq c.pairs_perm, valueCounts_eq c.pairs_perm] at jokers
    rw [pickMissle_eq jokers.1 jokers.2]
    exact ⟨missle_taken jokers.1 jokers.2, 96, rfl⟩
  · cases found

/-! ### The types that are there -/

theorem singleLine_there {m : Nat} {b : Int} (row : HeldRow hand 1 m b) (five : 5 ≤ m) :
    ∃ cards, (.singleLine, cards) ∈ typecards c lua hand.cards ∧ m ≤ cards.length := by
  obtain ⟨n, b', long, row', found⟩ := @seekLongest_exists c lua hand 1 m b (5 ≤ ·)
    (pickLine c.pairs hand.cards 1) (by decide) (by omega) row fun n _ long _ => decide_eq_true (by omega)
  have length := pickLine_length (c := c) fun u mem => (row'.2 u mem).1
  refine ⟨_, mem_typecards.2 ⟨?_, found, List.ne_nil_of_length_pos (by omega)⟩, by omega⟩
  simp [seekorder]

theorem plane_there {m : Nat} {b : Int} (row : HeldRow hand 3 m b) (two : 2 ≤ m) :
    ∃ cards, (.plane, cards) ∈ typecards c lua hand.cards ∧ 3 * m ≤ cards.length := by
  obtain ⟨n, b', long, row', found⟩ := @seekLongest_exists c lua hand 3 m b (2 ≤ ·)
    (pickLine c.pairs hand.cards 3) (by decide) (by omega) row fun n _ long _ => decide_eq_true (by omega)
  have length := pickLine_length (c := c) fun u mem => (row'.2 u mem).1
  refine ⟨_, mem_typecards.2 ⟨?_, found, List.ne_nil_of_length_pos (by omega)⟩, by omega⟩
  simp [seekorder]

/-- A value with three cards is not above the two. -/
theorem three_bounds {i : Int} (three : hand.count i = 3) : 3 ≤ i ∧ i ≤ 15 := by
  have of_deck : ∀ v ∈ deck.map value, 2 < (deck.map value).count v → 3 ≤ v ∧ v ≤ 15 := by decide
  apply of_deck i (hand.value_mem (by omega))
  have := hand.count_deck i
  omega

theorem withPair_there {i : Int} (three : hand.count i = 3) (some_pair : 0 < hand.allWith 2)
    (rule : c.sanDaiEr = true) :
    ∃ cards, (.threeWithTwo, cards) ∈ typecards c lua hand.cards ∧ cards.length = 5 := by
  have fit : decide (valueCounts c.pairs hand.cards i = 3 ∧ 0 < countGroup c.pairs hand.cards 2) = true := by
    rw [decide_eq_true_eq, valueCounts_eq c.pairs_perm, countGroup_eq c.pairs_perm]
    exact ⟨three, some_pair⟩
  obtain ⟨cards, found⟩ := @seekValue_exists 3 15 i
    (fun i => valueCounts c.pairs hand.cards i = 3 ∧ 0 < countGroup c.pairs hand.cards 2)
    (pickThreeWithTwo c hand.cards) (three_bounds three) fit
  have length := (@found_withPair c lua hand cards found).1.2
  refine ⟨cards, mem_typecards.2 ⟨?_, found, List.ne_nil_of_length_pos (by omega)⟩, length⟩
  simp [seekorder, rule]

theorem withOne_there {i : Int} (three : hand.count i = 3) (enough : 4 ≤ hand.cards.card) :
    ∃ cards, (.threeWithOne, cards) ∈ typecards c lua hand.cards ∧ 3 ≤ cards.length := by
  have fit : decide (valueCounts c.pairs hand.cards i = 3 ∧ 4 ≤ hand.cards.card) = true := by
    rw [decide_eq_true_eq, valueCounts_eq c.pairs_perm]
    exact ⟨three, enough⟩
  obtain ⟨cards, found⟩ := @seekValue_exists 3 15 i
    (fun i => valueCounts c.pairs hand.cards i = 3 ∧ 4 ≤ hand.cards.card)
    (pickWith c.pairs hand.cards lua 3 1) (three_bounds three) fit
  have found_one : greatestFunc c lua hand.cards .threeWithOne = some cards := found
  obtain ⟨_, j, three', rfl⟩ := found_withOne found_one
  have length : 3 ≤ (pickWith c.pairs hand.cards lua 3 1 j).length := by
    rcases @withOne_cases c lua hand j three' with ⟨_, _, four⟩ | ⟨_, _, three⟩ <;> omega
  refine ⟨_, mem_typecards.2 ⟨?_, found_one, List.ne_nil_of_length_pos (by omega)⟩, length⟩
  simp [seekorder]

end Candidates

/-! ### The type that comes first -/

/-- Nothing longer is found than a triple, for which there is no single card. -/
structure Alone (c : DiscardConf) (hand : Hand) : Prop where
  three : ∃ i, hand.count i = 3
  enough : 4 ≤ hand.cards.card
  no_single : hand.valuesWith 1 = 0
  no_plane : ∀ n b, HeldRow hand 3 n b → n < 2
  no_line : ∀ n b, HeldRow hand 1 n b → n < 5
  no_pair : ¬ (c.sanDaiEr = true ∧ 0 < hand.allWith 2)

/-- Triples in a row are taken with fewer single cards, because the jokers are counted but not
taken, and no line is longer. -/
structure Few (hand : Hand) (n : Nat) : Prop where
  two : 2 ≤ n
  row : ∃ b, HeldRow hand 3 n b
  longest : Longest hand 3 n
  counted : n ≤ hand.allWith 1
  few : hand.valuesWith 1 < n
  no_line : ∀ m b, HeldRow hand 1 m b → m ≤ 3 * n + hand.valuesWith 1

/-- What the type that comes first is. -/
inductive Top (c : DiscardConf) (hand : Hand) (cards : List Int) : Prop
  | fair (kind : CardType) (taken : TakenAs c hand kind cards) (allowed : typeRefused c kind = false)
  | alone (taken : TakenAs c hand .three cards) (alone : Alone c hand)
  | few (n : Nat) (b : Int) (ws : List Int) (plane : WithOnes hand b n cards ws) (row : HeldRow hand 3 n b)
      (few : Few hand n)

section First

variable {c : DiscardConf} {lua : LuaSort} {hand : Hand} {t : CardType} {cards : List Int}

theorem rank_length (not_bomb : t ≠ .bomb) (not_missle : t ≠ .missle) :
    rank (t, cards) = cards.length := by
  rw [rank, if_neg not_missle, if_neg not_bomb]

theorem top_of_best (mem : (t, cards) ∈ typecards c lua hand.cards)
    (best : ∀ other ∈ typecards c lua hand.cards, rank other ≤ rank (t, cards)) : Top c hand cards := by
  obtain ⟨order, found, some_card⟩ := mem_typecards.1 mem
  have longest : ∀ {t' cards'}, (t', cards') ∈ typecards c lua hand.cards → t' ≠ .bomb → t' ≠ .missle →
      t ≠ .bomb → t ≠ .missle → cards'.length ≤ cards.length := by
    intro t' cards' there not_bomb' not_missle' not_bomb not_missle
    have le := best _ there
    rw [rank_length not_bomb' not_missle', rank_length not_bomb not_missle] at le
    omega
  cases t with
  | single => exact .fair _ (found_single found).1 (by simp [typeRefused])
  | double => exact .fair _ (found_double found).1 (by simp [typeRefused])
  | three =>
      have rule : c.sanZhang = true := by simpa [seekorder] using order
      exact .fair _ (found_three found).1 (by simp [typeRefused, rule])
  | threeWithOne =>
      obtain ⟨enough, i, three, rfl⟩ := found_withOne found
      rcases @withOne_cases c lua hand i three with ⟨_, taken, _⟩ | ⟨none, taken, length⟩
      · exact .fair _ taken (by simp [typeRefused])
      · refine .alone taken ⟨⟨i, three⟩, enough, none, ?_, ?_, ?_⟩
        · intro n b row
          by_contra two
          obtain ⟨plane, there, long⟩ := @plane_there c lua hand n b row (by omega)
          have := longest there (by decide) (by decide) (by decide) (by decide)
          omega
        · intro n b row
          by_contra five
          obtain ⟨line, there, long⟩ := @singleLine_there c lua hand n b row (by omega)
          have := longest there (by decide) (by decide) (by decide) (by decide)
          omega
        · rintro ⟨rule, pair⟩
          obtain ⟨five, there, long⟩ := @withPair_there c lua hand i three pair rule
          have := longest there (by decide) (by decide) (by decide) (by decide)
          omega
  | threeWithTwo =>
      have rule : c.sanDaiEr = true := by simpa [seekorder] using order
      exact .fair _ (found_withPair found).1.1 (by simp [typeRefused, rule])
  | fourWithDouble => simp [seekorder] at order
  | singleLine =>
      obtain ⟨n, b, _, _, taken, _⟩ := found_line found
      exact .fair _ taken (by simp [typeRefused])
  | doubleLine =>
      obtain ⟨n, b, row, two, length⟩ := found_doubleLine found
      obtain ⟨plane, there, long⟩ := @plane_there c lua hand n b row two
      have := longest there (by decide) (by decide) (by decide) (by decide)
      omega
  | plane =>
      obtain ⟨n, b, _, _, taken, _⟩ := found_plane found
      exact .fair _ taken (by simp [typeRefused])
  | planeWithOne =>
      obtain ⟨n, b, ws, row, most, two, counted, plane⟩ := found_withOnes found
      have length := plane.length
      have many := plane.many
      by_cases few : hand.valuesWith 1 < n
      · refine .few n b ws plane row ⟨two, ⟨b, row⟩, most, counted, few, ?_⟩
        intro m b' line
        by_contra longer
        obtain ⟨long_line, there, long⟩ := @singleLine_there c lua hand m b' line (by omega)
        have := longest there (by decide) (by decide) (by decide) (by decide)
        omega
      · exact .fair _ ⟨plane.taken, b, plane.typed row.1.1 row.1.2 two (by omega)⟩ (by simp [typeRefused])
  | planeWithTwo => simp [seekorder] at order
  | bomb => exact .fair _ (found_bomb found) (by simp [typeRefused])
  | missle => exact .fair _ (found_missle found) (by simp [typeRefused])

theorem Top.taken (top : Top c hand cards) : Taken hand cards := by
  cases top with
  | fair kind taken allowed => exact taken.1
  | alone taken alone => exact taken.1
  | few n b ws plane row few => exact plane.taken

end First

/-! ### The types of what is found -/

/-- The single cards that triples in a row are taken with are some, but not as many as make up a
type of a plane. -/
def Unclassified (hand : Hand) : Prop :=
  ∃ n, Few hand n ∧ 0 < hand.valuesWith 1 ∧ ¬ 4 ∣ 3 * n + hand.valuesWith 1 ∧
    ¬ 5 ∣ 3 * n + hand.valuesWith 1

/-- Whatever the search returns is made of cards of the hand and has a type. -/
def GreatestSound (c : DiscardConf) (hand : Hand) : Prop :=
  ∀ lua cards, seekGreatest c lua hand.cards = .cards cards →
    Taken hand cards ∧ (getCardsType c.pairs cards).isSome = true

section Sound

variable {c : DiscardConf} {lua : LuaSort} {hand : Hand} {t : CardType} {cards : List Int}

theorem planeKind_of_few {n k : Nat} (two : 2 ≤ n) (few : k ≤ n) :
    planeKind n (3 * n + k) = if k = 0 then some .plane else if 4 ∣ 3 * n + k then some .planeWithOne
      else if 5 ∣ 3 * n + k then some .planeWithTwo else none := by
  unfold planeKind
  rw [if_neg (by omega)]
  by_cases none : k = 0
  · rw [if_pos (by omega), if_pos none]
  · rw [if_neg (by omega), if_neg none]
    have four : (4 ∣ 3 * n + k ∧ 3 * n + k ≤ n * 4) ↔ 4 ∣ 3 * n + k := and_iff_left (by omega)
    have five : (5 ∣ 3 * n + k ∧ 3 * n + k ≤ n * 5) ↔ 5 ∣ 3 * n + k := and_iff_left (by omega)
    simp only [four, five]

/-- The triples with few single cards have the type of a plane, or none. -/
theorem few_kind {n : Nat} {b : Int} {ws : List Int} (plane : WithOnes hand b n cards ws)
    (row : HeldRow hand 3 n b) (few : Few hand n) :
    (getCardsType c.pairs cards).map Prod.fst =
      if hand.valuesWith 1 = 0 then some .plane
      else if 4 ∣ 3 * n + hand.valuesWith 1 then some .planeWithOne
      else if 5 ∣ 3 * n + hand.valuesWith 1 then some .planeWithTwo else none := by
  have many : ws.length = hand.valuesWith 1 := by
    rw [plane.many]
    exact Nat.min_eq_right (Nat.le_of_lt few.few)
  rw [plane.kind row.1.1 row.1.2 few.two, many]
  exact planeKind_of_few few.two (Nat.le_of_lt few.few)

theorem Top.classified (top : Top c hand cards) (not_short : ¬ Unclassified hand) :
    (getCardsType c.pairs cards).isSome = true := by
  cases top with
  | fair kind taken allowed =>
      obtain ⟨_, v, typed⟩ := taken
      rw [typed]
      rfl
  | alone taken alone =>
      obtain ⟨_, v, typed⟩ := taken
      rw [typed]
      rfl
  | few n b ws plane row few =>
      have kind := few_kind (c := c) plane row few
      rw [← Option.isSome_map (f := Prod.fst), kind]
      split
      · rfl
      · split
        · rfl
        · split
          · rfl
          · rename_i some_single not_four not_five
            exact absurd ⟨n, few, Nat.pos_of_ne_zero some_single, not_four, not_five⟩ not_short

/-- No type that is found is longer than a plane with few single cards. -/
theorem rank_le_few {n : Nat} (few : Few hand n) (mem : (t, cards) ∈ typecards c lua hand.cards) :
    rank (t, cards) ≤ 3 * n + hand.valuesWith 1 := by
  obtain ⟨order, found, some_card⟩ := mem_typecards.1 mem
  have two := few.two
  have length : t ≠ .bomb → t ≠ .missle → cards.length ≤ 3 * n + hand.valuesWith 1 →
      rank (t, cards) ≤ 3 * n + hand.valuesWith 1 := by
    intro not_bomb not_missle le
    rw [rank_length not_bomb not_missle]
    omega
  cases t with
  | single => exact length (by decide) (by decide) (by have := (found_single found).2; omega)
  | double => exact length (by decide) (by decide) (by have := (found_double found).2; omega)
  | three => exact length (by decide) (by decide) (by have := (found_three found).2; omega)
  | threeWithOne =>
      obtain ⟨_, i, three, rfl⟩ := found_withOne found
      apply length (by decide) (by decide)
      rcases @withOne_cases c lua hand i three with ⟨_, _, four⟩ | ⟨_, _, three⟩ <;> omega
  | threeWithTwo => exact length (by decide) (by decide) (by have := (found_withPair found).1.2; omega)
  | fourWithDouble => simp [seekorder] at order
  | singleLine =>
      obtain ⟨m, b, row, _, _, long⟩ := found_line found
      exact length (by decide) (by decide) (by have := few.no_line m b row; omega)
  | doubleLine =>
      obtain ⟨m, b, row, _, long⟩ := found_doubleLine found
      exact length (by decide) (by decide) (by have := few.longest m b row; omega)
  | plane =>
      obtain ⟨m, b, row, _, _, long⟩ := found_plane found
      exact length (by decide) (by decide) (by have := few.longest m b row; omega)
  | planeWithOne =>
      obtain ⟨m, b, ws, row, _, _, _, plane⟩ := found_withOnes found
      apply length (by decide) (by decide)
      have := few.longest m b row
      rw [plane.length, plane.many]
      omega
  | planeWithTwo => simp [seekorder] at order
  | bomb =>
      change (-1 : Int) ≤ _
      omega
  | missle =>
      change (-2 : Int) ≤ _
      omega

/-- Sorted by insertion, the plane with few single cards comes first. -/
theorem few_first {n : Nat} (few : Few hand n) :
    ∃ b ws cards, HeldRow hand 3 n b ∧ WithOnes hand b n cards ws ∧
      seekGreatest c .insertion hand.cards = .cards cards := by
  have two := few.two
  obtain ⟨b, row⟩ := few.row
  obtain ⟨m, b', long, row', found⟩ := @seekLongest_exists c .insertion hand 3 n b
    (fun n => 2 ≤ n ∧ n ≤ countGroup c.pairs hand.cards 1) (pickPlaneWithOne c .insertion hand.cards)
    (by decide) (by omega) row fun m b' long row' => by
      have counted := few.counted
      have := few.longest m b' row'
      rw [decide_eq_true_eq, countGroup_eq c.pairs_perm]
      omega
  obtain rfl : m = n := Nat.le_antisymm (few.longest m b' row') long
  obtain ⟨ws, plane⟩ := @pickPlane_made c .insertion hand b' m fun u mem => by
    have := row'.2 u mem
    omega
  have length := plane.length
  have many := plane.many
  have less := few.few
  have some_card := List.ne_nil_of_length_pos (by omega : 0 < (pickPlaneWithOne c .insertion hand.cards b' m).length)
  have first : greatestFunc c .insertion hand.cards .planeWithOne =
      some (pickPlaneWithOne c .insertion hand.cards b' m) := found
  refine ⟨b', ws, _, row', plane, ?_⟩
  obtain ⟨rest, split⟩ : ∃ rest, typecards c .insertion hand.cards =
      (.planeWithOne, pickPlaneWithOne c .insertion hand.cards b' m) :: rest := by
    refine ⟨_, List.filterMap_cons_some ?_⟩
    rw [first, Option.filter_some, if_pos (decide_eq_true some_card), Option.map_some]
  have head : (LuaSort.insertion.sort typecardLt (typecards c .insertion hand.cards)).head? =
      some (.planeWithOne, pickPlaneWithOne c .insertion hand.cards b' m) := by
    rw [split]
    apply LuaSort.insertion_head
    rintro ⟨t, other⟩ mem
    have there : (t, other) ∈ typecards c .insertion hand.cards := by
      rw [split]
      exact List.mem_cons_of_mem _ mem
    have le := rank_le_few few there
    rw [typecardLt_eq, decide_eq_false_iff_not, rank_length (by decide) (by decide)]
    omega
  rw [seekGreatest, head]
  exact checked_iff.2 ⟨rfl, some_card, plane.taken.distinct⟩

/-- Where a type is found, the first one is returned. -/
theorem greatest_exists {found : CardType × List Int} (mem : found ∈ typecards c lua hand.cards) :
    ∃ t cards, seekGreatest c lua hand.cards = .cards cards ∧
      (t, cards) ∈ typecards c lua hand.cards ∧
      ∀ other ∈ typecards c lua hand.cards, rank other ≤ rank (t, cards) := by
  have sorted := typecardLt_eq
  cases top : (lua.sort typecardLt (typecards c lua hand.cards)).head? with
  | none =>
      rw [lua.head_eq_none_iff.1 top] at mem
      cases mem
  | some first =>
      obtain ⟨t, cards⟩ := first
      have there := lua.head_mem top
      have best : ∀ other ∈ typecards c lua hand.cards, rank other ≤ rank (t, cards) := by
        rw [sorted] at top
        exact lua.key_le_head rank top
      refine ⟨t, cards, ?_, there, best⟩
      rw [seekGreatest, top]
      exact checked_iff.2 ⟨rfl, (mem_typecards.1 there).2.2, (top_of_best there best).taken.distinct⟩

/-- A triple alone comes first where nothing longer is found. -/
theorem alone_first (alone : Alone c hand) (rule : c.sanZhang = false) :
    ∃ cards, seekGreatest c lua hand.cards = .cards cards ∧ TakenAs c hand .three cards := by
  obtain ⟨i, three⟩ := alone.three
  obtain ⟨long, there, length⟩ := @withOne_there c lua hand i three alone.enough
  obtain ⟨t, cards, returned, mem, best⟩ := greatest_exists there
  obtain ⟨order, found, _⟩ := mem_typecards.1 mem
  have le := best _ there
  rw [rank_length (by decide) (by decide)] at le
  have most : t ≠ .bomb → t ≠ .missle → 3 ≤ cards.length := by
    intro not_bomb not_missle
    rw [rank_length not_bomb not_missle] at le
    omega
  refine ⟨cards, returned, ?_⟩
  cases t with
  | threeWithOne =>
      obtain ⟨_, j, three', rfl⟩ := found_withOne found
      rcases @withOne_cases c lua hand j three' with ⟨some_single, _⟩ | ⟨_, taken, _⟩
      · exact absurd alone.no_single some_single
      · exact taken
  | single =>
      have := most (by decide) (by decide)
      have := (found_single found).2
      omega
  | double =>
      have := most (by decide) (by decide)
      have := (found_double found).2
      omega
  | three => simp [seekorder, rule] at order
  | threeWithTwo =>
      have allowed : c.sanDaiEr = true := by simpa [seekorder] using order
      exact absurd ⟨allowed, (found_withPair found).2⟩ alone.no_pair
  | fourWithDouble => simp [seekorder] at order
  | singleLine =>
      obtain ⟨m, b, row, five, _⟩ := found_line found
      have := alone.no_line m b row
      omega
  | doubleLine =>
      obtain ⟨m, b, row, two, _⟩ := found_doubleLine found
      have := alone.no_plane m b row
      omega
  | plane =>
      obtain ⟨m, b, row, two, _⟩ := found_plane found
      have := alone.no_plane m b row
      omega
  | planeWithOne =>
      obtain ⟨m, b, ws, row, _, two, _⟩ := found_withOnes found
      have := alone.no_plane m b row
      omega
  | planeWithTwo => simp [seekorder] at order
  | bomb =>
      change _ ≤ (-1 : Int) at le
      omega
  | missle =>
      change _ ≤ (-2 : Int) at le
      omega

theorem greatestSound_iff : GreatestSound c hand ↔ ¬ Unclassified hand := by
  constructor
  · rintro sound ⟨n, few, some_single, not_four, not_five⟩
    obtain ⟨b, ws, cards, row, plane, found⟩ := @few_first c hand n few
    have classified := (sound .insertion cards found).2
    rw [← Option.isSome_map (f := Prod.fst), few_kind plane row few, if_neg (by omega), if_neg not_four,
      if_neg not_five] at classified
    cases classified
  · intro not_short lua cards found
    obtain ⟨t, mem, best⟩ := seekGreatest_top found
    have top := top_of_best mem best
    exact ⟨top.taken, top.classified not_short⟩

end Sound

/-! ### The discards of the table -/

/-- A player on turn with cards of the deck, after no discard or one that the table has accepted. -/
structure Turn (c : DiscardConf) where
  state : Discards
  play : state.status = .play
  dealt : ∀ card ∈ state.handCards state.curDiscardChair, card ∈ deck
  accepted : ∀ d, state.lastDiscard = some d →
    typeRefused c d.kind = false ∧ ∃ last : Last c, last.toPlayed = d.toPlayed

def Turn.hand {c : DiscardConf} (turn : Turn c) : Hand where
  cards := turn.state.handCards turn.state.curDiscardChair
  dealt := turn.dealt

def Accepted : Reply Discards → Prop
  | .next _ | .over _ => True
  | .refused _ | .failed _ => False

/-- Whatever is found for the player on turn is accepted as a discard. -/
def AutoAccepted (c : DiscardConf) (turn : Turn c) : Prop :=
  ∀ lua cards, autoDiscard c lua turn.state = .cards cards →
    Accepted (doActionDiscard c turn.state turn.state.curDiscardChair cards)

/-- The search finds no type, or a triple that the rules of the table leave out, or no discard above
the last one. -/
def AutoShort (c : DiscardConf) (turn : Turn c) : Prop :=
  match turn.state.lastDiscard with
  | none => Unclassified turn.hand ∨ c.sanZhang = false ∧ Alone c turn.hand
  | some d => Short turn.hand d.toPlayed

section Table

variable {c : DiscardConf} {lua : LuaSort} {turn : Turn c} {cards : List Int}

theorem accepted_iff (turn : Turn c) :
    Accepted (doActionDiscard c turn.state turn.state.curDiscardChair cards) ↔
      (∀ card ∈ cards, card ∈ turn.hand.cards) ∧ ∃ kind v,
        getCardsType c.pairs cards = some (kind, v) ∧ typeRefused c kind = false ∧
          compareCards ⟨kind, cards.length, v⟩
            (turn.state.lastDiscard.map LastDiscard.toPlayed) = some 1 := by
  unfold doActionDiscard
  rw [if_neg (not_not.2 turn.play), if_neg (not_not.2 rfl)]
  split
  · rename_i missing
    refine iff_of_false id ?_
    rintro ⟨held, _⟩
    exact missing (List.all_eq_true.2 fun card mem => decide_eq_true (held card mem))
  · rename_i all_held
    have held : ∀ card ∈ cards, card ∈ turn.hand.cards := by
      intro card mem
      exact of_decide_eq_true (List.all_eq_true.1 (not_not.1 all_held) card mem)
    rw [and_iff_right held]
    cases typed : getCardsType c.pairs cards with
    | none => exact iff_of_false id nofun
    | some found =>
        obtain ⟨kind, v⟩ := found
        simp only []
        split
        · rename_i refused
          refine iff_of_false id ?_
          rintro ⟨_, _, ⟨⟩, allowed, _⟩
          rw [refused] at allowed
          cases allowed
        · rename_i allowed
          split
          · rename_i low
            refine iff_of_false id ?_
            rintro ⟨_, _, ⟨⟩, _, above⟩
            rw [compareCards] at above low
            rw [notGreater_iff.2 above] at low
            cases low
          · rename_i greater
            have above := notGreater_iff.1 (Bool.eq_false_iff.2 greater)
            refine iff_of_true ?_ ⟨kind, v, rfl, Bool.eq_false_iff.2 allowed, above⟩
            split <;> trivial

theorem number_inj {kind kind' : CardType} (same : kind.number = kind'.number) : kind = kind' := by
  cases kind <;> cases kind' <;> first | rfl | exact absurd same (by decide)

/-- A discard above the last one that the rules of the table allow is allowed as well. -/
theorem above_allowed {kind : CardType} {count : Nat} {v : Int} {r : Played CardType}
    (above : compareCards ⟨kind, count, v⟩ (some r) = some 1) (allowed : typeRefused c r.kind = false) :
    typeRefused c kind = false := by
  rcases compare_above above with missle | ⟨bomb, _⟩ | ⟨same, _⟩
  · obtain rfl : kind = .missle := number_missle.1 missle
    simp [typeRefused]
  · obtain rfl : kind = .bomb := number_bomb.1 bomb
    simp [typeRefused]
  · obtain rfl : kind = r.kind := number_inj same
    exact allowed

theorem seekGreatThan_nodup {hand : Finset Int} {last : Played CardType}
    (found : seekGreatThan c lua hand last = .cards cards) : cards.Nodup := by
  unfold seekGreatThan at found
  split at found
  · cases found
  · exact (checked_iff.1 found).2.2

/-- After a discard, what is found is accepted where the search does not fall short. -/
theorem above_accepted_iff {d : LastDiscard CardType} (after : turn.state.lastDiscard = some d) :
    AutoAccepted c turn ↔ ¬ Short turn.hand d.toPlayed := by
  obtain ⟨allowed, last, same⟩ := turn.accepted d after
  rw [← same, ← @seekSound_iff c .insertion turn.hand last]
  have beats_iff : ∀ cards, Accepted (doActionDiscard c turn.state turn.state.curDiscardChair cards) ↔
      (∀ card ∈ cards, card ∈ turn.hand.cards) ∧ Beats last cards := by
    intro cards
    rw [accepted_iff, after, Option.map_some, ← same]
    apply and_congr_right
    intro _
    constructor
    · rintro ⟨kind, v, typed, _, above⟩
      exact ⟨kind, v, typed, above⟩
    · rintro ⟨kind, v, typed, above⟩
      refine ⟨kind, v, typed, above_allowed above ?_, above⟩
      rw [same]
      exact allowed
  have found_iff : ∀ lua cards, autoDiscard c lua turn.state = .cards cards ↔
      seekGreatThan c lua turn.hand.cards last.toPlayed = .cards cards := by
    intro lua cards
    rw [autoDiscard, after, same]
    rfl
  constructor
  · intro accepted cards found
    obtain ⟨held, beats⟩ := (beats_iff cards).1 (accepted .insertion cards ((found_iff _ _).2 found))
    exact ⟨⟨seekGreatThan_nodup found, held⟩, beats⟩
  · intro sound lua cards found
    rw [seekSound_iff, ← @seekSound_iff c lua turn.hand last] at sound
    obtain ⟨taken, beats⟩ := sound cards ((found_iff _ _).1 found)
    exact (beats_iff cards).2 ⟨taken.held, beats⟩

/-- Before any discard, what is found is accepted where it has a type that the rules allow. -/
theorem first_accepted_iff (before : turn.state.lastDiscard = none) :
    AutoAccepted c turn ↔ ¬ (Unclassified turn.hand ∨ c.sanZhang = false ∧ Alone c turn.hand) := by
  have found_iff : ∀ lua cards, autoDiscard c lua turn.state = .cards cards ↔
      seekGreatest c lua turn.hand.cards = .cards cards := by
    intro lua cards
    rw [autoDiscard, before]
    rfl
  constructor
  · intro accepted
    rintro (⟨n, few, some_single, not_four, not_five⟩ | ⟨rule, alone⟩)
    · obtain ⟨b, ws, cards, row, plane, found⟩ := @few_first c turn.hand n few
      obtain ⟨_, kind, v, typed, _⟩ := (accepted_iff turn).1 (accepted _ _ ((found_iff _ _).2 found))
      have none := few_kind (c := c) plane row few
      rw [typed, if_neg (by omega), if_neg not_four, if_neg not_five] at none
      cases none
    · obtain ⟨cards, found, _, u, three⟩ := @alone_first c .insertion turn.hand alone rule
      obtain ⟨_, kind, v, typed, allowed, _⟩ :=
        (accepted_iff turn).1 (accepted _ _ ((found_iff _ _).2 found))
      cases three.symm.trans typed
      simp [typeRefused, rule] at allowed
  · intro not_short lua cards found
    rw [not_or] at not_short
    obtain ⟨t, mem, best⟩ := seekGreatest_top ((found_iff _ _).1 found)
    have top := top_of_best mem best
    have classified := top.classified not_short.1
    refine (accepted_iff turn).2 ⟨top.taken.held, ?_⟩
    rw [before]
    cases top with
    | fair kind taken allowed =>
        obtain ⟨_, v, typed⟩ := taken
        exact ⟨kind, v, typed, allowed, rfl⟩
    | alone taken alone =>
        obtain ⟨_, v, typed⟩ := taken
        have rule : c.sanZhang = true := by
          by_contra off
          exact not_short.2 ⟨Bool.eq_false_iff.2 off, alone⟩
        exact ⟨.three, v, typed, by simp [typeRefused, rule], rfl⟩
    | few n b ws plane row few =>
        obtain ⟨⟨kind, v⟩, typed⟩ := Option.isSome_iff_exists.1 classified
        refine ⟨kind, v, typed, ?_, rfl⟩
        have kinds := few_kind (c := c) plane row few
        rw [typed, Option.map_some] at kinds
        split at kinds
        · cases kinds
          simp [typeRefused]
        · split at kinds
          · cases kinds
            simp [typeRefused]
          · split at kinds
            · cases kinds
              simp [typeRefused]
            · cases kinds

theorem autoAccepted_iff (turn : Turn c) : AutoAccepted c turn ↔ ¬ AutoShort c turn := by
  unfold AutoShort
  cases after : turn.state.lastDiscard with
  | none => exact first_accepted_iff after
  | some d => exact above_accepted_iff after

end Table

/-- The searches find a discard above the last one, a type, and what the table accepts, but for the
hands for which they fall short. -/
theorem auto_play_iff (c : DiscardConf) (lua : LuaSort) (hand : Hand) (last : Last c) (turn : Turn c) :
    (SeekSound lua hand last ↔ ¬ Short hand last.toPlayed) ∧
      (GreatestSound c hand ↔ ¬ Unclassified hand) ∧ (AutoAccepted c turn ↔ ¬ AutoShort c turn) :=
  ⟨seekSound_iff, greatestSound_iff, autoAccepted_iff turn⟩

/-- Three threes and fours, a six and a joker. -/
def jokerHand : Hand := ⟨{3, 23, 43, 4, 24, 44, 6, 96}, by decide⟩

theorem jokerHand_few : Few jokerHand 2 := by
  have threes : ∀ v ∈ deck.map value, 3 ≤ jokerHand.count v → v = 3 ∨ v = 4 := by decide
  have ones : ∀ v ∈ deck.map value, 1 ≤ jokerHand.count v → v = 3 ∨ v = 4 ∨ v = 6 ∨ v = 16 := by decide
  refine ⟨Nat.le_refl 2, ⟨3, by decide, by decide⟩, ?_, by decide, by decide, ?_⟩
  · intro m b row
    by_contra longer
    have all : ∀ u, b ≤ u → u < b + 3 → u = 3 ∨ u = 4 := by
      intro u above below
      have three := (row.2 u (mem_run.2 (by omega))).1
      exact threes u (jokerHand.value_mem (by omega)) three
    have := all b (by omega) (by omega)
    have := all (b + 2) (by omega) (by omega)
    omega
  · intro m b row
    by_contra longer
    have some_cards : jokerHand.valuesWith 1 = 1 := by decide
    have all : ∀ u, b ≤ u → u < b + 3 → u = 3 ∨ u = 4 ∨ u = 6 ∨ u = 16 := by
      intro u above below
      have one := (row.2 u (mem_run.2 (by omega))).1
      exact ones u (jokerHand.value_mem (by omega)) one
    have := all b (by omega) (by omega)
    have := all (b + 1) (by omega) (by omega)
    have := all (b + 2) (by omega) (by omega)
    omega

theorem jokerHand_unclassified : Unclassified jokerHand :=
  ⟨2, jokerHand_few, by decide, by decide, by decide⟩

/-- Three fives alone are found over three threes with a four, and the triples of the threes and
fours with the six have no type, so that the table refuses them. -/
theorem bare_triple_and_seven_cards :
    (∃ (c : DiscardConf) (lua : LuaSort) (hand : Hand) (last : Last c), ¬ SeekSound lua hand last) ∧
      (∃ (c : DiscardConf) (hand : Hand), ¬ GreatestSound c hand) ∧
      ∃ (c : DiscardConf) (turn : Turn c), ¬ AutoAccepted c turn := by
  have c : DiscardConf := ⟨3, false, false, false, id, fun _ => .refl _⟩
  refine ⟨?_, ⟨c, jokerHand, ?_⟩, c, ?_⟩
  · refine ⟨⟨3, false, false, false, id, fun _ => .refl _⟩, .insertion, ⟨{5, 25, 45, 7, 27}, by decide⟩,
      ⟨⟨.threeWithOne, 4, 3⟩, ⟨[3, 23, 43, 4], by decide, by decide⟩, by decide, rfl⟩, ?_⟩
    rw [seekSound_iff, not_not]
    exact ⟨⟨5, by decide, by decide⟩, by decide, by decide⟩
  · rw [greatestSound_iff, not_not]
    exact jokerHand_unclassified
  · refine ⟨⟨⟨.play, 1, fun _ => jokerHand.cards, none, 0, 0, fun _ => 0, fun _ => 0, fun _ => 0,
      fun _ => false, fun _ => 0⟩, rfl, jokerHand.dealt, nofun⟩, ?_⟩
    rw [autoAccepted_iff, not_not]
    exact .inl jokerHand_unclassified

end FkServer.Land
