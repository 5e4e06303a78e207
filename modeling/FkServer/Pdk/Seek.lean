import FkServer.Climbing.Hands
import FkServer.Pdk.Grammar

/-!
`cards_util.seek_great_than`, the search of a hand for a discard over the last one, and when the
discard it finds is of no use because there are no kickers.
-/
namespace FkServer.Pdk

open Climbing

/-! ### The search -/

section
variable (c : DiscardConf) (lua : LuaSort) (hand : Finset Int)

/-- `rule and rule.play and rule.play.AAA_is_bomb` -/
def DiscardConf.hasMissle (c : DiscardConf) : Bool := c.play.any Play.aaaIsBomb

def pickPlaneWithOne (val : Int) (len : Nat) : List Int :=
  planeWithKickers c.pairs hand lua 1 (valueCards c.pairs hand) (run val len) []

def pickPlaneWithTwo (val : Int) (len : Nat) : List Int :=
  planeWithKickers c.pairs hand lua 2 (pick c.pairs hand 3) (run val len) []

/-- `seek_func` -/
def seekFunc (last : Played CardType) : CardType → Option (List Int)
  | .single => seekValue (last.value + 1) 15 (fun i => valueCounts c.pairs hand i ≠ 0) (pick c.pairs hand 1)
  | .double => seekValue (last.value + 1) 15
      (fun i => 2 ≤ valueCounts c.pairs hand i ∧ valueCounts c.pairs hand i < 4) (pick c.pairs hand 2)
  | .three => seekValue (last.value + 1) 15
      (fun i => valueCounts c.pairs hand i = 3 ∧ (c.hasMissle = false ∨ i ≠ 14)) (pick c.pairs hand 3)
  | .threeWithOne => seekValue (last.value + 1) 15
      (fun i => valueCounts c.pairs hand i = 3 ∧ 4 ≤ hand.card ∧ (c.hasMissle = false ∨ i ≠ 14))
      (pickWith c.pairs hand lua 3 1)
  | .threeWithTwo => seekValue (last.value + 1) 15
      (fun i => valueCounts c.pairs hand i = 3 ∧ 5 ≤ hand.card ∧ (c.hasMissle = false ∨ i ≠ 14))
      (pickWith c.pairs hand lua 3 2)
  | .fourWithDouble => seekValue (last.value + 1) 15
      (fun i => valueCounts c.pairs hand i = 4 ∧ 6 ≤ hand.card) (pickWith c.pairs hand lua 4 2)
  | .fourWithThree => seekValue (last.value + 1) 15
      (fun i => valueCounts c.pairs hand i = 4 ∧ 7 ≤ hand.card) (pickWith c.pairs hand lua 4 3)
  | .singleLine => seekLine c.pairs lua hand last 1 1 true
      fun firstValue _ => pickLine c.pairs hand 1 firstValue last.count
  | .doubleLine => seekLine c.pairs lua hand last 2 2 true
      fun firstValue _ => pickLine c.pairs hand 2 firstValue (last.count / 2)
  | .plane => seekLine c.pairs lua hand last 3 3 true (pickLine c.pairs hand 3)
  | .planeWithOne => seekLine c.pairs lua hand last 3 4 (last.count ≤ hand.card)
      fun firstValue _ => pickPlaneWithOne c lua hand firstValue (last.count / 4)
  | .planeWithTwo => seekLine c.pairs lua hand last 3 5 (last.count ≤ hand.card)
      fun firstValue _ => pickPlaneWithTwo c lua hand firstValue (last.count / 5)
  | .planeWithMix => none
  | .bomb => seekValue (last.value + 1) 15 (fun i => valueCounts c.pairs hand i = 4) (pick c.pairs hand 4)
  | .missle => if 3 ≤ valueCounts c.pairs hand 14 then some (pick c.pairs hand 3 14) else none

def seekAnyBomb (last : Played CardType) : Option (List Int) :=
  (((run 3 12).find? fun i => valueCounts c.pairs hand i = 4).map (pick c.pairs hand 4)).or
    (if c.hasMissle then seekFunc c lua hand last .missle else none)

/-- `seek_func` has no entry for planes with some kickers: calling it is a Lua error. -/
def seekGreatThan (last : Played CardType) : Sought :=
  if last.kind = .missle then .nothing
  else if last.kind = .planeWithMix then .error
  else
    let found := seekFunc c lua hand last last.kind
    let found := if found.isNone ∧ last.kind ≠ .bomb then seekAnyBomb c lua hand last else found
    let found := if found.isNone ∧ last.kind = .bomb ∧ c.hasMissle then
      seekFunc c lua hand last .missle else found
    checked found

end

/-! ### The hand and the last discard -/

/-- A hand of the deck. -/
abbrev Hand := Climbing.Hand deck

/-- A discard that `get_cards_type` has given its type. -/
structure Last (c : DiscardConf) extends Played CardType where
  list : List Int
  judged : getCardsType c list = some (kind, value)
  counted : count = list.length

/-- How many cards a type takes. -/
def Sized : CardType → Nat → Prop
  | .single, n => n = 1
  | .double, n => n = 2
  | .three, n => n = 3
  | .threeWithOne, n => n = 4
  | .threeWithTwo, n => n = 5
  | .fourWithDouble, n => n = 6
  | .fourWithThree, n => n = 7
  | .singleLine, n => 5 ≤ n
  | .doubleLine, n => ∃ k, 2 ≤ k ∧ n = 2 * k
  | .plane, n => ∃ k, 2 ≤ k ∧ n = 3 * k
  | .planeWithOne, n => ∃ k, 2 ≤ k ∧ n = 4 * k
  | .planeWithTwo, n => ∃ k, 2 ≤ k ∧ n = 5 * k
  | .planeWithMix, _ | .bomb, _ | .missle, _ => True

theorem countCounts_le (keys : List Int) (n : Nat) : countCounts keys n ≤ keys.length :=
  (List.length_filter_le _ _).trans (List.dedup_sublist keys).length_le

theorem cardsType_sized {pairs : List Int → List Int} {list : List Int} {kind : CardType} {v : Int}
    (found : cardsType pairs list = some (kind, v)) : Sized kind list.length := by
  unfold cardsType at found
  simp only [] at found
  split at found
  · cases found
    rfl
  · rw [Option.or_eq_some_iff, Option.or_eq_some_iff] at found
    rcases found with four | ⟨_, three | ⟨_, others⟩⟩
    · unfold fourType at four
      split at four
      · cases four
      · split at four
        · rename_i which
          cases four
          exact which.2
        · split at four
          · rename_i which
            cases four
            exact which.2
          · split at four
            · cases four
              trivial
            · split at four
              · rename_i which
                cases four
                exact which.2
              · cases four
    · unfold threeType at three
      split at three
      · cases three
      · split at three
        · rename_i which
          cases three
          exact which.2
        · split at three
          · rename_i which
            cases three
            exact which.2
          · split at three
            · rename_i which
              cases three
              exact which.2.2
            · cases three
    · split at others
      · obtain ⟨⟨two, _⟩, which⟩ := (planeType_iff _ _ kind v).1 others
        rcases which with ⟨rfl, count⟩ | ⟨rfl, count⟩ | ⟨rfl, count⟩ | ⟨rfl, _⟩
        · exact ⟨_, two, count⟩
        · exact ⟨_, two, count⟩
        · exact ⟨_, two, count⟩
        · trivial
      · rcases Option.or_eq_some_iff.1 others with doubles | ⟨_, singles⟩
        · unfold doubleType at doubles
          simp only [] at doubles
          split at doubles
          · rename_i which
            cases doubles
            exact which.2
          · split at doubles
            · rename_i which
              cases doubles
              exact ⟨_, which.2.1, by omega⟩
            · cases doubles
        · unfold singleLine at singles
          simp only [] at singles
          split at singles
          · rename_i which
            cases singles
            have le := countCounts_le (list.map Climbing.value) 1
            rw [List.length_map] at le
            exact which.1.trans le
          · cases singles

theorem Last.sized {c : DiscardConf} (last : Last c) : Sized last.kind last.count := by
  obtain ⟨⟨kind, v⟩, found, same⟩ := Option.map_eq_some_iff.1 last.judged
  have sized := cardsType_sized found
  rw [last.counted]
  split at same
  · cases kind_eq : last.kind <;> simp_all [Sized]
  · cases same
    exact sized

/-! ### Discards over the last one -/

section Beats

variable {c : DiscardConf} (lua : LuaSort) (hand : Hand) (last : Last c)

/-- The list is classified and ranked strictly above the last discard. -/
def Beats (list : List Int) : Prop :=
  ∃ kind v, getCardsType c list = some (kind, v) ∧
    compareCards ⟨kind, list.length, v⟩ (some last.toPlayed) = some 1

def cardsOf {hand : Hand} {list : List Int} (taken : Taken hand list) : Cards where
  list := list
  distinct := taken.distinct
  dealt card mem := hand.dealt card (taken.held card mem)

variable {lua hand last} {list : List Int} {kind : CardType} {v : Int}

theorem taken_cardsType_iff (taken : Taken hand list) (kind : CardType) (v : Int) :
    cardsType c.pairs list = some (kind, v) ↔ Found (list.map value) kind v :=
  Pdk.cardsType_iff (cardsOf taken) c.pairs_perm kind v

theorem taken_cardsType (taken : Taken hand list) (legal : Legal (list.map value) kind v) :
    cardsType c.pairs list = some (kind, v) :=
  (taken_cardsType_iff taken kind v).2 (found_of_legal (cardsOf taken) legal)

theorem taken_typed (taken : Taken hand list) (legal : Legal (list.map value) kind v)
    (plain : ¬ (c.hasMissle = true ∧ kind = .three ∧ v = 14)) :
    getCardsType c list = some (kind, v) := by
  rw [getCardsType, taken_cardsType taken legal, Option.map_some, if_neg]
  rintro ⟨missle, three⟩
  rw [Prod.mk.injEq] at three
  exact plain ⟨missle, three.1, three.2⟩

theorem number_bomb : kind.number = CardType.bomb.number ↔ kind = .bomb := by
  cases kind <;> decide

theorem number_missle : kind.number = CardType.missle.number ↔ kind = .missle := by
  cases kind <;> decide

theorem number_lt_bomb (not_bomb : kind ≠ .bomb) (not_missle : kind ≠ .missle) :
    kind.number < CardType.bomb.number := by
  cases kind with
  | bomb => exact absurd rfl not_bomb
  | missle => exact absurd rfl not_missle
  | _ => decide

theorem beats_same (taken : Taken hand list) (legal : Legal (list.map value) kind v)
    (plain : ¬ (c.hasMissle = true ∧ kind = .three ∧ v = 14)) (not_bomb : kind ≠ .bomb)
    (not_missle : kind ≠ .missle) (same : last.kind = kind) (counts : last.count = list.length)
    (above : last.value < v) : Beats last list :=
  ⟨kind, v, taken_typed taken legal plain,
    compare_same (mt number_bomb.1 not_bomb) (mt number_missle.1 not_missle) same counts above⟩

theorem beats_bomb (taken : Taken hand list) (legal : Legal (list.map value) .bomb v)
    (not_missle : last.kind ≠ .missle) (above : last.kind = .bomb → last.value < v) :
    Beats last list := by
  refine ⟨.bomb, v, taken_typed taken legal (by simp), ?_⟩
  apply compare_bomb rfl (show CardType.bomb.number ≠ CardType.missle.number by decide) _
    (mt number_missle.1 not_missle)
  by_cases bomb : last.kind = .bomb
  · exact .inr ⟨number_bomb.2 bomb, above bomb⟩
  · exact .inl (number_lt_bomb bomb not_missle)

theorem beats_missle (taken : Taken hand list) (missle : c.hasMissle = true)
    (legal : Legal (list.map value) .three 14) : Beats last list := by
  refine ⟨.missle, 14, ?_, rfl⟩
  rw [getCardsType, taken_cardsType taken legal, Option.map_some, if_pos ⟨missle, rfl⟩]

/-- Another number of cards is not above the last discard, if they are no bomb. -/
theorem not_beats (taken : Taken hand list) (differ : list.length ≠ last.count)
    (not_four : ∀ v, ¬ Found (list.map value) .bomb v)
    (not_aces : c.hasMissle = true → ¬ Found (list.map value) .three 14) : ¬ Beats last list := by
  rintro ⟨kind, v, typed, above⟩
  obtain ⟨⟨kind', v'⟩, found, same⟩ := Option.map_eq_some_iff.1 typed
  rcases compare_above above with missle | ⟨bomb, _⟩ | ⟨_, counts, _⟩
  · obtain rfl := number_missle.1 missle
    split at same
    · rename_i aces
      obtain ⟨missle, three⟩ := aces
      rw [three] at found
      exact not_aces missle ((taken_cardsType_iff taken _ _).1 found)
    · cases same
      exact (taken_cardsType_iff taken _ _).1 found
  · obtain rfl := number_bomb.1 bomb
    split at same
    · cases same
    · cases same
      exact not_four _ ((taken_cardsType_iff taken _ _).1 found)
  · exact differ counts

end Beats

/-! ### Cards that are picked -/

section Picks

variable {c : DiscardConf} {lua : LuaSort} {hand : Hand}

theorem pickWith_kickers {copies others : Nat} {v : Int} (pos : 0 < copies)
    (times : hand.count v = copies) {cards : List Int}
    (found : searchMinCombination c.pairs hand.cards lua others (valueCards c.pairs hand.cards v) =
      some cards) :
    Taken hand (pickWith c.pairs hand.cards lua copies others v) ∧ ∃ kickers : List Int,
      kickers.length = others ∧ v ∉ kickers ∧
        (pickWith c.pairs hand.cards lua copies others v).map value =
          List.replicate copies v ++ kickers := by
  obtain ⟨comb, mem, ws, made⟩ := searchMin_made found
  obtain ⟨taken, distinct, counts, keys⟩ := pickWith_some c.pairs_perm pos times found made
  have sum := (fullCombination_sum others comb mem).1
  refine ⟨taken, ws.flatMap fun u => List.replicate (hand.count u) u, ?_, ?_, keys⟩
  · rw [kickers_length, counts, sum]
  · intro there
    obtain ⟨u, mem, copy⟩ := List.mem_flatMap.1 there
    rw [← (List.mem_replicate.1 copy).2] at mem
    exact (List.nodup_cons.1 distinct).1 mem

/-- Triples in a row with the kickers that the loop finds are a plane. -/
theorem planeWithKickers_plane {others : Nat} {left : List Int → Nat}
    (counts : KickerCounts c.pairs hand.cards lua others left) (few : others ≤ 2)
    {excluded : Int → List Int} {b : Int} {n : Nat} (two : 2 ≤ n) (above : 3 ≤ b) (below : b + n ≤ 15)
    (three : ∀ u ∈ run b n, hand.count u = 3)
    (whole : ∀ u ∈ run b n, excluded u = valueCards c.pairs hand.cards u) :
    Taken hand (planeWithKickers c.pairs hand.cards lua others excluded (run b n) []) ∧
      ∃ kickers, kickers.length = others * min n (left []) ∧
        IsPlane ((planeWithKickers c.pairs hand.cards lua others excluded (run b n) []).map value)
          b n kickers := by
  obtain ⟨taken, ws, distinct, bounds, sum, perm⟩ :=
    planeWithKickers_taken c.pairs_perm counts few (run_nodup b n) three whole
  rw [run_length] at sum
  refine ⟨taken, ws.flatMap fun u => List.replicate (hand.count u) u, ?_, two, above, below, perm, ?_⟩
  · rw [kickers_length, sum]
  · intro u
    rw [count_flatMap (List.nodup_append.1 distinct).2.1]
    split
    · rename_i there
      exact (bounds u there).2.trans few
    · exact Nat.zero_le 2

theorem four_le (hand : Hand) (v : Int) : hand.count v ≤ 4 := hand.count_le (by decide) v

/-- The values of a hand are from the three to the two. -/
theorem hand_bounds (hand : Hand) {v : Int} (some_card : 0 < hand.count v) : 3 ≤ v ∧ v ≤ 15 := by
  have of_deck : ∀ v ∈ deck.map value, 3 ≤ v ∧ v ≤ 15 := by decide
  exact of_deck v (hand.value_mem some_card)

end Picks

/-! ### Discards that are found -/

/-- A value above the last discard has three cards that are not the missle. -/
def TripleAbove (c : DiscardConf) (hand : Hand) (last : Played CardType) : Prop :=
  ∃ i, (last.value < i ∧ i ≤ 15) ∧ hand.count i = 3 ∧ (c.hasMissle = false ∨ i ≠ 14)

/-- The search finds the triples it looks for, but the hand has not the kickers for them. -/
def KickersMissing (c : DiscardConf) (hand : Hand) (last : Played CardType) : Prop :=
  match last.kind with
  | .threeWithOne => TripleAbove c hand last ∧ 4 ≤ hand.cards.card ∧ hand.valuesWith 1 = 0
  | .threeWithTwo => TripleAbove c hand last ∧ 5 ≤ hand.cards.card ∧
      hand.valuesWith 1 / 2 + hand.valuesWith 2 = 0
  | .planeWithOne => (∃ b, RunAbove hand last 3 (last.count / 4) b) ∧
      last.count ≤ hand.cards.card ∧ hand.valuesWith 1 < last.count / 4
  | .planeWithTwo => (∃ b, RunAbove hand last 3 (last.count / 5) b) ∧
      last.count ≤ hand.cards.card ∧
      hand.valuesWith 1 / 2 + hand.valuesWith 2 < last.count / 5
  | _ => False

section Found

variable {c : DiscardConf} {lua : LuaSort} {hand : Hand} {last : Last c} {cards : List Int}

/-- So many equal cards over as many of them. -/
theorem equal_outcome {kind : CardType} {n : Nat} {i : Int} (same : last.kind = kind) (pos : 0 < n)
    (counts : last.count = n) (above : last.value < i) (enough : n ≤ hand.count i)
    (legal : Legal (List.replicate n i) kind i)
    (plain : ¬ (c.hasMissle = true ∧ kind = .three ∧ i = 14)) (not_bomb : kind ≠ .bomb)
    (not_missle : kind ≠ .missle) : SearchOutcome (Beats last) hand (pick c.pairs hand.cards n i) True := by
  obtain ⟨taken, keys⟩ := pick_taken c.pairs_perm enough
  have length := keys_length keys
  rw [List.length_replicate] at length
  refine ⟨taken, ne_nil keys (by simp; omega), iff_of_true ?_ trivial⟩
  rw [← keys] at legal
  exact beats_same taken legal plain not_bomb not_missle same (by omega) above

theorem bomb_outcome {i : Int} (four : hand.count i = 4) (not_missle : last.kind ≠ .missle)
    (above : last.kind = .bomb → last.value < i) : SearchOutcome (Beats last) hand (pick c.pairs hand.cards 4 i) True := by
  obtain ⟨taken, keys⟩ := pick_taken c.pairs_perm (Nat.le_of_eq four.symm)
  refine ⟨taken, ne_nil keys (List.cons_ne_nil _ _), iff_of_true ?_ trivial⟩
  have legal : Legal ((pick c.pairs hand.cards 4 i).map value) .bomb i := by
    rw [keys]
    exact .refl _
  exact beats_bomb taken legal not_missle above

theorem missle_outcome (three : 3 ≤ hand.count 14) (missle : c.hasMissle = true) :
    SearchOutcome (Beats last) hand (pick c.pairs hand.cards 3 14) True := by
  obtain ⟨taken, keys⟩ := pick_taken c.pairs_perm three
  refine ⟨taken, ne_nil keys (List.cons_ne_nil _ _), iff_of_true ?_ trivial⟩
  have legal : Legal ((pick c.pairs hand.cards 3 14).map value) .three 14 := by
    rw [keys]
    exact .refl _
  exact beats_missle taken missle legal

/-- A line over as many cards. -/
theorem line_outcome {kind : CardType} {copies n : Nat} {b : Int} (same : last.kind = kind)
    (pos : 0 < copies) (some_value : 0 < n) (counts : last.count = copies * n)
    (row : RunAbove hand last.toPlayed copies n b)
    (legal : Legal ((run b n).flatMap (List.replicate copies)) kind b) (not_three : kind ≠ .three)
    (not_bomb : kind ≠ .bomb) (not_missle : kind ≠ .missle) :
    SearchOutcome (Beats last) hand (pickLine c.pairs hand.cards copies b n) True := by
  obtain ⟨taken, keys⟩ := pickLine_taken c.pairs_perm fun u mem => (row.2 u mem).1
  have length := keys_length keys
  have total : ((run b n).flatMap (List.replicate copies)).length = copies * n := by
    rw [List.length_flatMap]
    simp [Nat.mul_comm]
  have some_key : (run b n).flatMap (List.replicate copies) ≠ [] := by
    intro none
    rw [none] at total
    have := Nat.mul_pos pos some_value
    simp at total
    omega
  refine ⟨taken, ne_nil keys some_key, iff_of_true ?_ trivial⟩
  rw [← keys] at legal
  exact beats_same taken legal (fun h => not_three h.2.1) not_bomb not_missle same (by omega) row.1.1

/-- A triple with kickers is over the last discard if there are kickers. -/
theorem triple_outcome {kind : CardType} {others : Nat} {i : Int} {missing : Prop}
    (same : last.kind = kind) (pos : 0 < others) (counts : last.count = 3 + others)
    (above : last.value < i) (three : hand.count i = 3) (no_missle : c.hasMissle = false ∨ i ≠ 14)
    (search : searchMinCombination c.pairs hand.cards lua others (valueCards c.pairs hand.cards i) = none ↔
      missing)
    (legal : ∀ kickers : List Int, kickers.length = others → i ∉ kickers →
      Legal (List.replicate 3 i ++ kickers) kind i)
    (not_three : kind ≠ .three) (not_bomb : kind ≠ .bomb) (not_missle : kind ≠ .missle) :
    SearchOutcome (Beats last) hand (pickWith c.pairs hand.cards lua 3 others i) (¬ missing) := by
  cases found : searchMinCombination c.pairs hand.cards lua others (valueCards c.pairs hand.cards i) with
  | none =>
      obtain ⟨taken, keys⟩ := pickWith_none c.pairs_perm three found
      have length := keys_length keys
      rw [List.length_replicate] at length
      refine ⟨taken, ne_nil keys (List.cons_ne_nil _ _), iff_of_false ?_ (not_not.2 (search.1 found))⟩
      apply not_beats taken (by omega)
      · rintro v ⟨_, four⟩
        rw [List.length_map] at four
        omega
      · rintro missle ⟨times, _⟩
        rw [keys, List.count_replicate] at times
        split at times
        · rename_i aces
          rcases no_missle with off | other
          · rw [off] at missle
            cases missle
          · exact other (by simpa using aces)
        · cases times
  | some kickers =>
      obtain ⟨taken, kickers, many, fresh, keys⟩ := pickWith_kickers (by decide) three found
      have length := keys_length keys
      rw [List.length_append, List.length_replicate, many] at length
      have there : ¬ missing := by
        rw [← search, found]
        nofun
      refine ⟨taken, ne_nil keys (List.cons_ne_nil _ _), iff_of_true ?_ there⟩
      have combination := legal kickers many fresh
      rw [← keys] at combination
      exact beats_same taken combination (fun h => not_three h.2.1) not_bomb not_missle same
        (by omega) above

/-- Four equal cards are a bomb without kickers. -/
theorem four_outcome {kind : CardType} {others : Nat} {i : Int} (same : last.kind = kind)
    (counts : last.count = 4 + others) (above : last.value < i) (four : hand.count i = 4)
    (legal : ∀ kickers : List Int, kickers.length = others →
      Legal (List.replicate 4 i ++ kickers) kind i)
    (not_three : kind ≠ .three) (not_bomb : kind ≠ .bomb) (not_missle : kind ≠ .missle) :
    SearchOutcome (Beats last) hand (pickWith c.pairs hand.cards lua 4 others i) True := by
  cases found : searchMinCombination c.pairs hand.cards lua others (valueCards c.pairs hand.cards i) with
  | none =>
      obtain ⟨taken, keys⟩ := pickWith_none c.pairs_perm four found
      refine ⟨taken, ne_nil keys (List.cons_ne_nil _ _), iff_of_true ?_ trivial⟩
      have bomb : Legal ((pickWith c.pairs hand.cards lua 4 others i).map value) .bomb i := by
        rw [keys]
        exact .refl _
      exact beats_bomb taken bomb (same ▸ not_missle) fun other => absurd (same.symm.trans other) not_bomb
  | some kickers =>
      obtain ⟨taken, kickers, many, fresh, keys⟩ := pickWith_kickers (by decide) four found
      have length := keys_length keys
      rw [List.length_append, List.length_replicate, many] at length
      refine ⟨taken, ne_nil keys (List.cons_ne_nil _ _), iff_of_true ?_ trivial⟩
      have combination := legal kickers many
      rw [← keys] at combination
      exact beats_same taken combination (fun h => not_three h.2.1) not_bomb not_missle same
        (by omega) above

/-- A plane with kickers is over the last discard if there are kickers for all triples. -/
theorem plane_outcome {kind : CardType} {others n : Nat} {b : Int} {left : List Int → Nat}
    (counting : KickerCounts c.pairs hand.cards lua others left) (pos : 0 < others) (few : others ≤ 2)
    {excluded : Int → List Int}
    (whole : ∀ u, hand.count u = 3 → excluded u = valueCards c.pairs hand.cards u)
    (same : last.kind = kind) (two : 2 ≤ n) (counts : last.count = 3 * n + others * n)
    (row : RunAbove hand last.toPlayed 3 n b)
    (legal : ∀ keys kickers, IsPlane keys b n kickers → kickers.length = others * n →
      Legal keys kind b)
    (not_three : kind ≠ .three) (not_bomb : kind ≠ .bomb) (not_missle : kind ≠ .missle) :
    SearchOutcome (Beats last) hand (planeWithKickers c.pairs hand.cards lua others excluded (run b n) [])
      (¬ left [] < n) := by
  have three : ∀ u ∈ run b n, hand.count u = 3 := by
    intro u mem
    have := row.2 u mem
    omega
  have first := three b (mem_run.2 (by omega))
  have low := (@hand_bounds hand b (by omega)).1
  obtain ⟨taken, kickers, many, plane⟩ := planeWithKickers_plane counting few two low row.1.2 three
    fun u mem => whole u (three u mem)
  have length : (planeWithKickers c.pairs hand.cards lua others excluded (run b n) []).length =
      3 * n + kickers.length := by
    have total := plane.perm.length_eq
    rw [List.length_map, List.length_append, List.length_flatMap] at total
    rw [total]
    simp [Nat.mul_comm]
  have some_card : planeWithKickers c.pairs hand.cards lua others excluded (run b n) [] ≠ [] := by
    intro none
    rw [none] at length
    simp at length
    omega
  by_cases short : left [] < n
  · refine ⟨taken, some_card, iff_of_false ?_ (not_not.2 short)⟩
    rw [Nat.min_eq_right (by omega)] at many
    have less : others * left [] < others * n := Nat.mul_lt_mul_of_pos_left short pos
    apply not_beats taken (by omega)
    · rintro v ⟨_, four⟩
      rw [List.length_map] at four
      omega
    · rintro _ ⟨_, aces⟩
      rw [List.length_map] at aces
      omega
  · refine ⟨taken, some_card, iff_of_true ?_ short⟩
    rw [Nat.min_eq_left (by omega)] at many
    exact beats_same taken (legal _ kickers plane many) (fun h => not_three h.2.1) not_bomb not_missle
      same (by omega) row.1.1

theorem replicate_with {copies others : Nat} {i : Int} {kickers : List Int} (many : kickers.length = others) :
    With (List.replicate copies i ++ kickers) copies i others :=
  ⟨kickers, many, .refl _⟩

/-- The first value of a row is one of the hand's. -/
theorem row_low {copies n : Nat} {b : Int} (row : RunAbove hand last.toPlayed copies n b)
    (pos : 0 < copies) (some_value : 0 < n) : 3 ≤ b := by
  have first := row.2 b (mem_run.2 (by omega))
  exact (hand_bounds hand (by omega)).1

/-- What is found for the type of the last discard is over it unless the kickers are missing. -/
theorem found_outcome
    (found : seekFunc c lua hand.cards last.toPlayed last.kind = some cards)
    (not_missle : last.kind ≠ .missle) :
    SearchOutcome (Beats last) hand cards (¬ KickersMissing c hand last.toPlayed) := by
  have sized := last.sized
  unfold KickersMissing
  cases kind : last.kind with
  | single =>
      rw [kind] at found sized
      obtain ⟨i, within, fits, rfl⟩ := seekValue_some found
      rw [decide_eq_true_eq, valueCounts_eq c.pairs_perm] at fits
      exact (equal_outcome kind Nat.one_pos sized within.1 (by omega) (.refl _) (by simp) (by simp)
        (by simp)).congr (by simp)
  | double =>
      rw [kind] at found sized
      obtain ⟨i, within, fits, rfl⟩ := seekValue_some found
      rw [decide_eq_true_eq, valueCounts_eq c.pairs_perm] at fits
      exact (equal_outcome kind Nat.two_pos sized within.1 fits.1 (.refl _) (by simp) (by simp)
        (by simp)).congr (by simp)
  | three =>
      rw [kind] at found sized
      obtain ⟨i, within, fits, rfl⟩ := seekValue_some found
      rw [decide_eq_true_eq, valueCounts_eq c.pairs_perm] at fits
      refine (equal_outcome kind (by decide) sized within.1 (Nat.le_of_eq fits.1.symm) (.refl _) ?_
        (by simp) (by simp)).congr (by simp)
      rintro ⟨missle, _, aces⟩
      rcases fits.2 with off | other
      · rw [off] at missle
        cases missle
      · exact other aces
  | threeWithOne =>
      rw [kind] at found sized
      obtain ⟨i, within, fits, rfl⟩ := seekValue_some found
      rw [decide_eq_true_eq, valueCounts_eq c.pairs_perm] at fits
      have search := @searchMin_one_none c.pairs hand.cards (valueCards c.pairs hand.cards i) lua
        c.pairs_perm
      rw [free_beside c.pairs_perm fits.1 (by decide) (by decide)] at search
      refine (triple_outcome kind Nat.one_pos sized within.1 fits.1 fits.2.2 search ?_ (by simp)
        (by simp) (by simp)).congr ?_
      · intro kickers many fresh
        refine ⟨replicate_with many, fun four => ?_⟩
        have times := four.count_eq i
        rw [List.count_append, List.count_replicate_self, List.count_replicate_self,
          List.count_eq_zero.2 fresh] at times
        cases times
      · exact not_congr ⟨fun none => ⟨⟨i, within, fits.1, fits.2.2⟩, fits.2.1, none⟩, fun h => h.2.2⟩
  | threeWithTwo =>
      rw [kind] at found sized
      obtain ⟨i, within, fits, rfl⟩ := seekValue_some found
      rw [decide_eq_true_eq, valueCounts_eq c.pairs_perm] at fits
      have search := @searchMin_two_none c.pairs hand.cards (valueCards c.pairs hand.cards i) lua
        c.pairs_perm
      unfold pairsLeft at search
      rw [free_beside c.pairs_perm fits.1 (by decide) (by decide),
        free_beside c.pairs_perm fits.1 (by decide) (by decide)] at search
      refine (triple_outcome kind Nat.two_pos sized within.1 fits.1 fits.2.2 search ?_ (by simp)
        (by simp) (by simp)).congr ?_
      · intro kickers many _
        exact replicate_with many
      · exact not_congr ⟨fun none => ⟨⟨i, within, fits.1, fits.2.2⟩, fits.2.1, none⟩, fun h => h.2.2⟩
  | fourWithDouble =>
      rw [kind] at found sized
      obtain ⟨i, within, fits, rfl⟩ := seekValue_some found
      rw [decide_eq_true_eq, valueCounts_eq c.pairs_perm] at fits
      exact (four_outcome kind (sized.trans rfl) within.1 fits.1 (fun _ many => replicate_with many) (by simp)
        (by simp) (by simp)).congr (by simp)
  | fourWithThree =>
      rw [kind] at found sized
      obtain ⟨i, within, fits, rfl⟩ := seekValue_some found
      rw [decide_eq_true_eq, valueCounts_eq c.pairs_perm] at fits
      exact (four_outcome kind (sized.trans rfl) within.1 fits.1 (fun _ many => replicate_with many) (by simp)
        (by simp) (by simp)).congr (by simp)
  | singleLine =>
      rw [kind] at found sized
      rw [seekFunc] at found
      have five : 5 ≤ last.count := sized
      obtain ⟨b, row, _, rfl⟩ := seekLine_some c.pairs_perm (four_le hand) Nat.one_pos Nat.one_pos (by omega)
        (Nat.one_mul _).symm found
      refine (line_outcome kind Nat.one_pos (by omega) (Nat.one_mul _).symm row ?_ (by simp) (by simp)
        (by simp)).congr (by simp)
      rw [flatMap_one]
      exact ⟨_, five, row_low row Nat.one_pos (by omega), row.1.2, .refl _⟩
  | doubleLine =>
      rw [kind] at found sized
      rw [seekFunc] at found
      obtain ⟨n, two, counts⟩ := sized
      obtain ⟨b, row, _, rfl⟩ := seekLine_some c.pairs_perm (four_le hand) Nat.two_pos Nat.two_pos (by omega) counts found
      have half : last.count / 2 = n := by omega
      rw [half]
      refine (line_outcome kind Nat.two_pos (by omega) counts row ?_ (by simp) (by simp)
        (by simp)).congr (by simp)
      exact ⟨n, two, row_low row Nat.two_pos (by omega), row.1.2, .refl _⟩
  | plane =>
      rw [kind] at found sized
      rw [seekFunc] at found
      obtain ⟨n, two, counts⟩ := sized
      obtain ⟨b, row, _, rfl⟩ := seekLine_some c.pairs_perm (four_le hand) (by decide) (by decide) (by omega) counts found
      refine (line_outcome kind (by decide) (by omega) counts row ?_ (by simp) (by simp)
        (by simp)).congr (by simp)
      refine ⟨n, two, row_low row (by decide) (by omega), row.1.2, ?_, by simp⟩
      rw [List.append_nil]
  | planeWithOne =>
      rw [kind] at found sized
      rw [seekFunc] at found
      obtain ⟨n, two, counts⟩ := sized
      obtain ⟨b, row, enough, rfl⟩ := seekLine_some c.pairs_perm (four_le hand) (by decide) (by decide) (by omega) counts found
      have quarter : last.count / 4 = n := by omega
      rw [decide_eq_true_eq] at enough
      rw [quarter]
      refine (plane_outcome (counts_one c.pairs_perm) Nat.one_pos (by decide) (fun _ _ => rfl) kind two
        (by omega) row ?_ (by simp) (by simp) (by simp)).congr ?_
      · intro keys kickers plane many
        exact ⟨n, kickers, plane, by omega⟩
      · rw [freeValues_eq c.pairs_perm]
        exact not_congr ⟨fun short => ⟨⟨b, row⟩, enough, short⟩, fun h => h.2.2⟩
  | planeWithTwo =>
      rw [kind] at found sized
      rw [seekFunc] at found
      obtain ⟨n, two, counts⟩ := sized
      obtain ⟨b, row, enough, rfl⟩ := seekLine_some c.pairs_perm (four_le hand) (by decide) (by decide) (by omega) counts found
      have fifth : last.count / 5 = n := by omega
      rw [decide_eq_true_eq] at enough
      rw [fifth]
      refine (plane_outcome (counts_two c.pairs_perm) Nat.two_pos (by decide)
        (fun _ three => pick_all c.pairs_perm three) kind two (by omega) row ?_ (by simp) (by simp) (by simp)).congr ?_
      · intro keys kickers plane many
        exact ⟨n, kickers, plane, many⟩
      · unfold pairsLeft
        rw [freeValues_eq c.pairs_perm, freeValues_eq c.pairs_perm]
        exact not_congr ⟨fun short => ⟨⟨b, row⟩, enough, short⟩, fun h => h.2.2⟩
  | planeWithMix =>
      rw [kind] at found
      cases found
  | bomb =>
      rw [kind] at found
      obtain ⟨i, within, fits, rfl⟩ := seekValue_some found
      rw [decide_eq_true_eq, valueCounts_eq c.pairs_perm] at fits
      exact (bomb_outcome fits not_missle fun _ => within.1).congr (by simp)
  | missle => exact absurd kind not_missle

theorem not_triple_of_none {need : Nat} {picks : Int → List Int}
    (none : seekValue (last.value + 1) 15 (fun i => valueCounts c.pairs hand.cards i = 3 ∧
      need ≤ hand.cards.card ∧ (c.hasMissle = false ∨ i ≠ 14)) picks = none) :
    ¬ (TripleAbove c hand last.toPlayed ∧ need ≤ hand.cards.card) := by
  rintro ⟨⟨i, within, three, other⟩, enough⟩
  have unfit := seekValue_none.1 none i within.1 within.2
  rw [decide_eq_false_iff_not, valueCounts_eq c.pairs_perm] at unfit
  exact unfit ⟨three, enough, other⟩

/-- Where nothing is found for the type, no kickers are looked for. -/
theorem not_missing_of_none
    (none : seekFunc c lua hand.cards last.toPlayed last.kind = none) :
    ¬ KickersMissing c hand last.toPlayed := by
  have sized := last.sized
  unfold KickersMissing
  cases kind : last.kind with
  | threeWithOne =>
      rw [kind, seekFunc] at none
      exact fun missing => not_triple_of_none none ⟨missing.1, missing.2.1⟩
  | threeWithTwo =>
      rw [kind, seekFunc] at none
      exact fun missing => not_triple_of_none none ⟨missing.1, missing.2.1⟩
  | planeWithOne =>
      rw [kind] at none sized
      rw [seekFunc] at none
      obtain ⟨n, two, counts⟩ := sized
      have quarter : last.count / 4 = n := by omega
      rw [quarter]
      rintro ⟨⟨b, row⟩, enough, _⟩
      exact seekLine_none c.pairs_perm (four_le hand) (by decide) (by decide) (by omega) counts (decide_eq_true enough) none b row
  | planeWithTwo =>
      rw [kind] at none sized
      rw [seekFunc] at none
      obtain ⟨n, two, counts⟩ := sized
      have fifth : last.count / 5 = n := by omega
      rw [fifth]
      rintro ⟨⟨b, row⟩, enough, _⟩
      exact seekLine_none c.pairs_perm (four_le hand) (by decide) (by decide) (by omega) counts (decide_eq_true enough) none b row
  | _ => simp

theorem missle_found (found : seekFunc c lua hand.cards last.toPlayed .missle = some cards)
    (missle : c.hasMissle = true) : SearchOutcome (Beats last) hand cards True := by
  rw [seekFunc] at found
  split at found
  · rename_i three
    cases found
    rw [valueCounts_eq c.pairs_perm] at three
    exact missle_outcome three missle
  · cases found

theorem anyBomb_outcome (found : seekAnyBomb c lua hand.cards last.toPlayed = some cards)
    (not_missle : last.kind ≠ .missle) (not_bomb : last.kind ≠ .bomb) :
    SearchOutcome (Beats last) hand cards True := by
  rcases Option.or_eq_some_iff.1 found with bomb | ⟨_, aces⟩
  · obtain ⟨i, first, rfl⟩ := Option.map_eq_some_iff.1 bomb
    have four := List.find?_some first
    rw [decide_eq_true_eq, valueCounts_eq c.pairs_perm] at four
    exact bomb_outcome four not_missle fun same => absurd same not_bomb
  · split at aces
    · rename_i missle
      exact missle_found aces missle
    · cases aces

/-- Every discard that the search finds is classified and ranked above the last one. -/
def SeekSound (lua : LuaSort) (hand : Hand) (last : Last c) : Prop :=
  ∀ cards, seekGreatThan c lua hand.cards last.toPlayed = .cards cards → Beats last cards

theorem seekSound_iff : SeekSound lua hand last ↔ ¬ KickersMissing c hand last.toPlayed := by
  unfold SeekSound seekGreatThan
  by_cases missle : last.kind = .missle
  · rw [if_pos missle]
    refine iff_of_true nofun ?_
    rw [KickersMissing, missle]
    simp
  · rw [if_neg missle]
    by_cases mix : last.kind = .planeWithMix
    · rw [if_pos mix]
      refine iff_of_true nofun ?_
      rw [KickersMissing, mix]
      simp
    · rw [if_neg mix]
      cases found : seekFunc c lua hand.cards last.toPlayed last.kind with
      | some cards =>
          have outcome := found_outcome found missle
          rw [← outcome.beats_iff]
          simp only [Option.isNone_some, Bool.false_eq_true, false_and, if_false]
          constructor
          · intro all
            exact all cards (checked_iff.2 ⟨rfl, outcome.some_card, outcome.taken.distinct⟩)
          · rintro beats list sought
            cases (checked_iff.1 sought).1
            exact beats
      | none =>
          refine iff_of_true ?_ (not_missing_of_none found)
          intro cards sought
          simp only [Option.isNone_none, true_and] at sought
          by_cases bomb : last.kind = .bomb
          · simp only [bomb, ne_eq, not_true_eq_false, if_false, Option.isNone_none, true_and] at sought
            have result := (checked_iff.1 sought).1
            split at result
            · rename_i aces
              exact (missle_found result aces).beats_iff.2 trivial
            · cases result
          · simp only [bomb, ne_eq, not_false_eq_true, if_true, false_and, and_false, if_false] at sought
            exact (anyBomb_outcome (checked_iff.1 sought).1 missle bomb).beats_iff.2 trivial

end Found

/-- The types are exactly the combinations but for the lists taken for one, and the search finds
discards over the last one but where it has no kickers for its triples. -/
theorem classified_and_sought_iff (c : DiscardConf) (lua : LuaSort) (cards : Cards) (hand : Hand)
    (last : Last c) :
    (Classified c.pairs cards ↔ ¬ Misjudged cards.keys) ∧
      (SeekSound lua hand last ↔ ¬ KickersMissing c hand last.toPlayed) :=
  ⟨classified_iff cards c.pairs_perm, seekSound_iff⟩

/-- Three and four and then six to eight are taken for a line, and three fives alone are found
over three threes with a four. -/
theorem gapped_line_and_bare_triple :
    (∃ cards : Cards, ¬ Classified id cards) ∧
      ∃ (c : DiscardConf) (lua : LuaSort) (hand : Hand) (last : Last c), ¬ SeekSound lua hand last := by
  constructor
  · refine ⟨⟨[3, 4, 6, 7, 8], by decide, by decide⟩, ?_⟩
    intro exactly
    obtain ⟨n, _, _, _, perm⟩ := (exactly .singleLine 3).1 (by decide)
    have mem : ∀ v, v ∈ [(3 : Int), 4, 6, 7, 8] ↔ 3 ≤ v ∧ v < 3 + n := by
      intro v
      rw [← mem_run, ← perm.mem_iff]
      rfl
    have eight := (mem 8).1 (by decide)
    have five := (mem 5).2 (by omega)
    revert five
    decide
  · refine ⟨⟨3, none, id, fun _ => .refl _⟩, .insertion, ⟨{5, 25, 45, 7, 27}, by decide⟩,
      ⟨⟨.threeWithOne, 4, 3⟩, [3, 23, 43, 4], by decide, rfl⟩, ?_⟩
    rw [seekSound_iff, not_not]
    exact ⟨⟨5, by decide, by decide, .inl rfl⟩, by decide, by decide⟩

end FkServer.Pdk
