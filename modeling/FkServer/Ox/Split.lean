import FkServer.Ox.Logic
import Mathlib.Data.List.Permutation
import Mathlib.Algebra.GroupWithZero.Nat

/-!
`split_cards` of the niu-niu tables: the client groups his five cards and the server takes
the type of the groups. The table code of `ox` and `oxp` is the same here, over the two
versions of `gamelogic_1`.
-/
namespace FkServer.Ox

/-- What a table uses of its `gamelogic_1`. -/
structure Logic where
  cardsType : (CardsType → Bool) → List Int → Typed
  compare : Typed → Typed → Option Bool

def oxLogic (lua : LuaSort) : Logic := ⟨cardsTypeOx lua, compareOx lua⟩

def oxpLogic (lua : LuaSort) : Logic := ⟨cardsTypeOxp lua, compareOxp lua⟩

/-! ### What both versions promise -/

structure Logic.Sound (logic : Logic) : Prop where
  type_some : ∀ opt cards, (logic.cardsType opt cards).type.isSome
  type_perm : ∀ opt cards cards', cards.Perm cards' →
    (logic.cardsType opt cards).type = (logic.cardsType opt cards').type
  keeps : ∀ opt cards, (logic.cardsType opt cards).pair.flatten.Perm cards
  bull_le : ∀ opt cards best, (logic.cardsType opt cards).type = some best → best ≠ .oxNone →
    (oxType (oxSum cards)).number ≤ best.number
  compares : ∀ l r, l.type.isSome → r.type.isSome → l.pair.flatten.length = 5 →
    r.pair.flatten.length = 5 → (logic.compare l r).isSome

theorem sortedPairValues_isSome (lua : LuaSort) (i : Nat) {pair : List (List Int)}
    (five : pair.flatten.length = 5) (within : i < 5) :
    ∃ card, (sortedPairValues lua pair)[i]? = some card := by
  have len : i < (sortedPairValues lua pair).length := by
    rw [sortedPairValues, (lua.perm _ _).length_eq, five]
    exact within
  exact ⟨_, List.getElem?_eq_getElem len⟩

theorem compareTypes_isSome {l r : Option CardsType} {equal : Option Bool} (left : l.isSome)
    (right : r.isSome) (both : equal.isSome) : (compareTypes l r equal).isSome := by
  obtain ⟨l, rfl⟩ := Option.isSome_iff_exists.1 left
  obtain ⟨r, rfl⟩ := Option.isSome_iff_exists.1 right
  unfold compareTypes
  split
  · split
    · rfl
    · exact both
  · rename_i same _
    cases same
  · rename_i differ _
    exact absurd rfl (differ l r rfl)

theorem special_le {opt : CardsType → Bool} {types : List (CardsType × Bool)} {type : CardsType}
    (found : special opt types = some type) (high : ∀ entry, entry ∈ types → 21 ≤ entry.1.number)
    (twoValue : Int) : (oxType twoValue).number ≤ type.number := by
  obtain ⟨entry, mem, rfl⟩ := List.mem_map.1 (special_mem found)
  have := high entry mem
  have := (number_oxType twoValue).2
  omega

theorem typeOx_bull_le (opt : CardsType → Bool) (values : List Int) (same : Bool)
    (not_none : typeOx opt values same ≠ .oxNone) :
    (oxType (values.map cap).sum).number ≤ (typeOx opt values same).number := by
  unfold typeOx at not_none ⊢
  cases first : specialOxFirst opt values with
  | some type => exact special_le first (by simp [CardsType.number]) _
  | none =>
      rw [first] at not_none
      simp only [] at not_none ⊢
      split at not_none
      · rename_i bull
        rw [if_pos bull]
        cases last : specialOxLast opt values same with
        | some type => exact special_le last (by simp [CardsType.number]) _
        | none => exact Nat.le_refl _
      · exact absurd rfl not_none

theorem typeOxp_bull_le (opt : CardsType → Bool) (values : List Int) (same : Bool)
    (not_none : typeOxp opt values same ≠ .oxNone) :
    (oxType (values.map cap).sum).number ≤ (typeOxp opt values same).number := by
  unfold typeOxp at not_none ⊢
  cases first : specialOxp opt values same with
  | some type => exact special_le first (by simp [CardsType.number]) _
  | none =>
      rw [first] at not_none
      simp only [] at not_none ⊢
      split at not_none
      · rename_i bull
        rw [if_pos bull]
      · exact absurd rfl not_none

theorem oxLogic_sound (lua : LuaSort) : (oxLogic lua).Sound where
  type_some opt cards := by
    rw [oxLogic, (cardsTypeOx_spec lua opt cards).1]
    rfl
  type_perm opt cards cards' same := by
    rw [oxLogic, (cardsTypeOx_spec lua opt cards).1, (cardsTypeOx_spec lua opt cards').1,
      sortedValues_perm lua same, sameColor_perm ((sortedCards_perm lua cards).trans
        (same.trans (sortedCards_perm lua cards').symm))]
  keeps opt cards := (cardsTypeOx_spec lua opt cards).2
  bull_le opt cards best typed not_none := by
    rw [oxLogic, (cardsTypeOx_spec lua opt cards).1, Option.some_inj] at typed
    subst typed
    rw [← sum_sortedValues lua cards]
    exact typeOx_bull_le opt _ _ not_none
  compares l r left right five five' := by
    apply compareTypes_isSome left right
    obtain ⟨lc1, first⟩ := sortedPairValues_isSome lua 0 five (by decide)
    obtain ⟨rc1, first'⟩ := sortedPairValues_isSome lua 0 five' (by decide)
    rw [first, first']
    simp only []
    split <;> rfl

theorem oxpLogic_sound (lua : LuaSort) : (oxpLogic lua).Sound where
  type_some opt cards := by
    rw [oxpLogic, (cardsTypeOxp_spec lua opt cards).1]
    rfl
  type_perm opt cards cards' same := by
    rw [oxpLogic, (cardsTypeOxp_spec lua opt cards).1, (cardsTypeOxp_spec lua opt cards').1,
      sortedValues_perm lua same, sameColor_perm ((sortedCards_perm lua cards).trans
        (same.trans (sortedCards_perm lua cards').symm))]
  keeps opt cards := (cardsTypeOxp_spec lua opt cards).2
  bull_le opt cards best typed not_none := by
    rw [oxpLogic, (cardsTypeOxp_spec lua opt cards).1, Option.some_inj] at typed
    subst typed
    rw [← sum_sortedValues lua cards]
    exact typeOxp_bull_le opt _ _ not_none
  compares l r left right five five' := by
    apply compareTypes_isSome left right
    obtain ⟨lc1, first⟩ := sortedPairValues_isSome lua 0 five (by decide)
    obtain ⟨rc1, first'⟩ := sortedPairValues_isSome lua 0 five' (by decide)
    obtain ⟨lc5, fifth⟩ := sortedPairValues_isSome lua 4 five (by decide)
    obtain ⟨rc5, fifth'⟩ := sortedPairValues_isSome lua 4 five' (by decide)
    simp only [first, first', fifth, fifth']
    split
    · rfl
    · split <;> rfl

/-! ### Splitting -/

def allCards : List Int := [0, 20, 40, 60].flatMap fun color => (List.range' 1 13).map fun v : Nat => color + v

/-- Five dealt cards. -/
structure Hand where
  cards : List Int
  five : cards.length = 5
  distinct : cards.Nodup
  dealt : ∀ card, card ∈ cards → card ∈ allCards

/-- A gamer; until he splits, `cards_type` is the one taken at the deal. -/
structure Player (logic : Logic) (opt : CardsType → Bool) where
  hand : Hand
  cardsType : Typed
  cardsPair : Option (List (List Int))
  unsplit : cardsPair = none → cardsType = logic.cardsType opt hand.cards

inductive Status
  | callbanker
  | bet
  | split
  | over
deriving DecidableEq

/-- `pair_type`, the larger group first. No result stands for a Lua error. -/
def pairType (lua : LuaSort) (logic : Logic) (opt : CardsType → Bool) (pair : List (List Int)) :
    Option Typed :=
  match pair with
  | [] => none
  | first :: rest =>
      if rest = [] ∧ first.length = 5 then
        some (logic.cardsType opt first)
      else
        match lua.sort (fun l r => decide ((r.length : Int) < l.length)) pair with
        | larger :: other :: more =>
            if oxSum larger % 10 ≠ 0 then some ⟨none, larger :: other :: more⟩
            else some ⟨some (oxType (oxSum other)), larger :: other :: more⟩
        | [larger] => if oxSum larger % 10 ≠ 0 then some ⟨none, [larger]⟩ else none
        | [] => none

def checkCardsPair (cards : List Int) (pair : List (List Int)) : Bool :=
  pair.all fun cs => cs.all fun c => cards.contains c

/-- How `split_cards` ends: with an error reply, with a Lua error, or with the `cards_type`
the player settles with. -/
inductive Reply
  | refused
  | failed
  | accepted (cardsType : Typed)

/-- The message does not have one or two groups of five cards in all; a group may come
without cards. -/
def badCount (cardsPair : List (Option (List Int))) : Bool :=
  cardsPair.length < 1 ∨ 2 < cardsPair.length ∨
    (cardsPair.map fun group => (group.getD []).length).sum ≠ 5

def splitCards (lua : LuaSort) (logic : Logic) (opt : CardsType → Bool) (gaming : Bool)
    (status : Status) (player : Player logic opt) (cardsPair : List (Option (List Int))) : Reply :=
  if gaming = false then
    .refused
  else if status ≠ .split then
    .refused
  else if player.cardsPair.isSome then
    .refused
  else if badCount cardsPair then
    .accepted player.cardsType
  else
    let pair := cardsPair.filterMap id
    if ¬ checkCardsPair player.hand.cards pair then
      .refused
    else
      match pairType lua logic opt pair with
      | none => .failed
      | some cardsType => .accepted cardsType

/-! ### When a split is safe -/

section Safe

variable {lua : LuaSort} {logic : Logic} {opt : CardsType → Bool}

/-- An accepted split has a type, no higher than the best one of the hand, consists of the
dealt cards, and can be compared with every other hand. -/
def Safe (player : Player logic opt) : Reply → Prop
  | .refused => True
  | .failed => True
  | .accepted cardsType =>
      (∃ type best, cardsType.type = some type ∧
        (logic.cardsType opt player.hand.cards).type = some best ∧ type.number ≤ best.number) ∧
      cardsType.pair.flatten.Perm player.hand.cards ∧
      ∀ other : Typed, other.type.isSome → other.pair.flatten.length = 5 →
        (logic.compare cardsType other).isSome ∧ (logic.compare other cardsType).isSome

/-- The groups are the dealt cards: all in one, or a larger group that is a multiple of ten
from a hand that is not without a bull. -/
def Fair (player : Player logic opt) (pair : List (List Int)) : Prop :=
  pair.flatten.Perm player.hand.cards ∧
    (pair.length = 1 ∨
      (∃ larger, larger ∈ pair ∧ 3 ≤ larger.length ∧ oxSum larger % 10 = 0) ∧
        (logic.cardsType opt player.hand.cards).type ≠ some .oxNone)

theorem typed_safe (sound : logic.Sound) (player : Player logic opt) {cardsType : Typed}
    {type best : CardsType} (typed : cardsType.type = some type)
    (highest : (logic.cardsType opt player.hand.cards).type = some best)
    (le : type.number ≤ best.number) (whole : cardsType.pair.flatten.Perm player.hand.cards) :
    Safe player (.accepted cardsType) := by
  refine ⟨⟨type, best, typed, highest, le⟩, whole, ?_⟩
  intro other typed' five'
  have left : cardsType.type.isSome := by rw [typed]; rfl
  have five : cardsType.pair.flatten.length = 5 := by rw [whole.length_eq, player.hand.five]
  exact ⟨sound.compares _ _ left typed' five five', sound.compares _ _ typed' left five' five⟩

/-- One group of the dealt cards has the type of the hand. -/
theorem single_safe_iff (sound : logic.Sound) (player : Player logic opt) (group : List Int) :
    Safe player (.accepted (logic.cardsType opt group)) ↔ group.Perm player.hand.cards := by
  constructor
  · intro safe
    exact (sound.keeps opt group).symm.trans safe.2.1
  · intro same
    obtain ⟨best, typed⟩ := Option.isSome_iff_exists.1 (sound.type_some opt player.hand.cards)
    exact typed_safe sound player ((sound.type_perm opt _ _ same).trans typed) typed (Nat.le_refl _)
      ((sound.keeps opt group).trans same)

/-- Two groups are safe if the larger one is a multiple of ten and the hand has a bull. -/
theorem double_safe_iff (sound : logic.Sound) (player : Player logic opt) (larger other : List Int) :
    Safe player (.accepted (if oxSum larger % 10 ≠ 0 then ⟨none, [larger, other]⟩
        else ⟨some (oxType (oxSum other)), [larger, other]⟩)) ↔
      (larger ++ other).Perm player.hand.cards ∧ oxSum larger % 10 = 0 ∧
        (logic.cardsType opt player.hand.cards).type ≠ some .oxNone := by
  have flat : [larger, other].flatten = larger ++ other := by simp
  split
  · rename_i no_ten
    apply iff_of_false
    · intro safe
      obtain ⟨type, _, typed, _⟩ := safe.1
      cases typed
    · intro fair
      exact no_ten fair.2.1
  · rename_i ten
    rw [Decidable.not_not] at ten
    constructor
    · intro safe
      obtain ⟨⟨type, best, typed, highest, le⟩, whole, _⟩ := safe
      refine ⟨flat ▸ whole, ten, ?_⟩
      rw [highest]
      intro same
      cases same
      cases typed
      have most : (oxType (oxSum other)).number ≤ 1 := le
      have least := (number_oxType (oxSum other)).1
      omega
    · intro fair
      obtain ⟨whole, _, bull⟩ := fair
      obtain ⟨best, highest⟩ := Option.isSome_iff_exists.1 (sound.type_some opt player.hand.cards)
      have le := sound.bull_le opt _ best highest (fun same => bull (highest.trans (same ▸ rfl)))
      have rest : (oxSum larger + oxSum other) % 10 = oxSum other % 10 := by omega
      have same : oxType (oxSum player.hand.cards) = oxType (oxSum other) := by
        rw [← oxSum_perm whole, oxSum_append]
        unfold oxType
        rw [rest]
      exact typed_safe sound player rfl highest (same ▸ le) (flat.symm ▸ whole)

/-- With the right number of cards the message has one group of five or two groups. -/
theorem groups_of_count {cardsPair : List (Option (List Int))} (good : badCount cardsPair = false) :
    (∃ group, cardsPair.filterMap id = [group] ∧ group.length = 5) ∨
      ∃ a b, cardsPair.filterMap id = [a, b] ∧ a.length + b.length = 5 := by
  unfold badCount at good
  rw [decide_eq_false_iff_not, not_or, not_or, Decidable.not_not] at good
  obtain ⟨some_group, at_most, count⟩ := good
  match cardsPair, some_group, at_most, count with
  | [none], _, _, count => simp at count
  | [some group], _, _, count => exact .inl ⟨group, rfl, by simpa using count⟩
  | [none, none], _, _, count => simp at count
  | [some group, none], _, _, count => exact .inl ⟨group, rfl, by simpa using count⟩
  | [none, some group], _, _, count => exact .inl ⟨group, rfl, by simpa using count⟩
  | [some a, some b], _, _, count => exact .inr ⟨a, b, rfl, by simpa using count⟩
  | [], some_group, _, _ => exact absurd Nat.one_pos some_group
  | _ :: _ :: _ :: _, _, at_most, _ =>
      simp only [List.length_cons] at at_most
      omega

variable (lua logic opt) in
theorem pairType_single {group : List Int} (five : group.length = 5) :
    pairType lua logic opt [group] = some (logic.cardsType opt group) := by
  unfold pairType
  exact if_pos ⟨rfl, five⟩

variable (lua logic opt) in
/-- Of two groups the larger one comes first. -/
theorem pairType_double {a b : List Int} (five : a.length + b.length = 5) :
    ∃ larger other, (larger = a ∧ other = b ∨ larger = b ∧ other = a) ∧ 3 ≤ larger.length ∧
      pairType lua logic opt [a, b] = some (if oxSum larger % 10 ≠ 0 then ⟨none, [larger, other]⟩
        else ⟨some (oxType (oxSum other)), [larger, other]⟩) := by
  have perm := lua.perm (fun l r : List Int => decide ((r.length : Int) < l.length)) [a, b]
  have sorted := lua.sorted _ (LuaSort.strictOrder_key fun group : List Int => group.length) [a, b]
  unfold pairType
  simp only [List.cons_ne_nil, false_and, if_false]
  obtain ⟨larger, other, same⟩ := List.length_eq_two.1 perm.length_eq
  rw [same] at perm sorted ⊢
  have which : larger = a ∧ other = b ∨ larger = b ∧ other = a := by
    cases List.perm_pair.1 perm with
    | inl same => exact .inl (by simpa using same)
    | inr same => exact .inr (by simpa using same)
  refine ⟨larger, other, which, ?_, ?_⟩
  · have falls := of_decide_eq_false (List.rel_of_pairwise_cons sorted List.mem_cons_self)
    obtain ⟨rfl, rfl⟩ | ⟨rfl, rfl⟩ := which <;> omega
  · simp only []
    split <;> rfl

/-- A split is safe exactly if it is refused, does not group five cards at all, or groups
the dealt cards fairly. -/
theorem split_safe_iff (sound : logic.Sound) (gaming : Bool) (status : Status)
    (player : Player logic opt) (cardsPair : List (Option (List Int))) :
    Safe player (splitCards lua logic opt gaming status player cardsPair) ↔
      (gaming = false ∨ status ≠ .split ∨ player.cardsPair.isSome ∨ badCount cardsPair = true ∨
        checkCardsPair player.hand.cards (cardsPair.filterMap id) = false) ∨
      Fair player (cardsPair.filterMap id) := by
  unfold splitCards
  split
  · rename_i watching
    exact iff_of_true trivial (.inl (.inl watching))
  · rename_i plays
    split
    · rename_i idle
      exact iff_of_true trivial (.inl (.inr (.inl idle)))
    · rename_i splitting
      split
      · rename_i again
        exact iff_of_true trivial (.inl (.inr (.inr (.inl again))))
      · rename_i once
        split
        · rename_i bad
          refine iff_of_true ?_ (.inl (.inr (.inr (.inr (.inl bad)))))
          rw [player.unsplit (Option.not_isSome_iff_eq_none.1 once)]
          exact (single_safe_iff sound player _).2 (List.Perm.refl _)
        · rename_i good
          simp only []
          split
          · rename_i foreign
            exact iff_of_true trivial (.inl (.inr (.inr (.inr (.inr (by simpa using foreign))))))
          · rename_i own
            have passes : ¬ (gaming = false ∨ status ≠ .split ∨ player.cardsPair.isSome ∨
                badCount cardsPair = true ∨
                checkCardsPair player.hand.cards (cardsPair.filterMap id) = false) := by
              simp_all
            rw [or_iff_right passes]
            cases groups_of_count (Bool.eq_false_iff.2 good) with
            | inl single =>
                obtain ⟨group, same, five⟩ := single
                rw [same, pairType_single lua logic opt five]
                refine (single_safe_iff sound player group).trans ?_
                simp [Fair]
            | inr double =>
                obtain ⟨a, b, same, five⟩ := double
                obtain ⟨larger, other, which, three, typed⟩ :=
                  pairType_double lua logic opt five
                rw [same, typed]
                refine (double_safe_iff sound player larger other).trans ?_
                have flat : (larger ++ other).Perm [a, b].flatten := by
                  obtain ⟨rfl, rfl⟩ | ⟨rfl, rfl⟩ := which
                  · simp
                  · simpa using List.perm_append_comm
                have ten : (∃ group, group ∈ [a, b] ∧ 3 ≤ group.length ∧ oxSum group % 10 = 0) ↔
                    oxSum larger % 10 = 0 := by
                  obtain ⟨rfl, rfl⟩ | ⟨rfl, rfl⟩ := which
                  · have small : ¬ 3 ≤ other.length := by omega
                    simp [small, three]
                  · have small : ¬ 3 ≤ other.length := by omega
                    simp [small, three]
                unfold Fair
                rw [ten, flat.congr_left]
                simp

end Safe

/-- Splits in `ox` and in `oxp`. -/
theorem splits_safe_iff (lua : LuaSort) (opt : CardsType → Bool) (gaming : Bool) (status : Status)
    (cardsPair : List (Option (List Int))) :
    (∀ player : Player (oxLogic lua) opt,
      Safe player (splitCards lua (oxLogic lua) opt gaming status player cardsPair) ↔
        (gaming = false ∨ status ≠ .split ∨ player.cardsPair.isSome ∨ badCount cardsPair = true ∨
          checkCardsPair player.hand.cards (cardsPair.filterMap id) = false) ∨
        Fair player (cardsPair.filterMap id)) ∧
    ∀ player : Player (oxpLogic lua) opt,
      Safe player (splitCards lua (oxpLogic lua) opt gaming status player cardsPair) ↔
        (gaming = false ∨ status ≠ .split ∨ player.cardsPair.isSome ∨ badCount cardsPair = true ∨
          checkCardsPair player.hand.cards (cardsPair.filterMap id) = false) ∨
        Fair player (cardsPair.filterMap id) :=
  ⟨fun player => split_safe_iff (oxLogic_sound lua) gaming status player cardsPair,
    fun player => split_safe_iff (oxpLogic_sound lua) gaming status player cardsPair⟩

/-- One to four and a king, which have no bull. -/
def noBull : Hand where
  cards := [1, 2, 3, 4, 13]
  five := rfl
  distinct := by decide
  dealt := by decide

/-- One to four make ten, and the king alone then counts as two cards that make ten. -/
theorem four_and_one_wins :
    ¬ ∀ (lua : LuaSort) (opt : CardsType → Bool),
      (∀ (player : Player (oxLogic lua) opt) cardsPair,
        Safe player (splitCards lua (oxLogic lua) opt true .split player cardsPair)) ∧
      ∀ (player : Player (oxpLogic lua) opt) cardsPair,
        Safe player (splitCards lua (oxpLogic lua) opt true .split player cardsPair) := by
  intro claim
  have safe := (claim LuaSort.insertion fun _ => false).1
    ⟨noBull, _, none, fun _ => rfl⟩ [some [1, 2, 3, 4], some [13]]
  obtain ⟨⟨type, best, typed, highest, le⟩, _⟩ := safe
  cases typed
  cases highest
  revert le
  decide

end FkServer.Ox
