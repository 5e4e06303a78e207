import FkServer.Library.LuaSort
import Mathlib.Algebra.Order.Group.Abs
import Mathlib.Algebra.Order.Group.Int
import Mathlib.Algebra.BigOperators.Group.List.Basic
import Mathlib.Data.List.Dedup
import Mathlib.Tactic.FinCases
import Mathlib.Algebra.Ring.Int.Defs

/-!
`gamelogic_1` of the two niu-niu games `ox` and `oxp`: the type of five cards and the
comparison of two types. In a split the triple has to be a multiple of ten, and the other
two cards give the type.
-/
namespace FkServer.Ox

/-! ### Types -/

/-- `OX_CARD_TYPE`; `ox v` stands for `OX_1` to `OX_10`. -/
inductive CardsType
  | oxNone
  | ox (v : Nat)
  | shunzi
  | tonghua
  | yinhua
  | jinhua
  | hulu
  | bomb
  | small5
  | tonghuashun
deriving DecidableEq

def CardsType.number : CardsType → Nat
  | .oxNone => 1
  | .ox v => v + 1
  | .shunzi => 21
  | .tonghua => 22
  | .yinhua => 23
  | .jinhua => 24
  | .hulu => 25
  | .bomb => 26
  | .small5 => 27
  | .tonghuashun => 28

/-- The result of `cards_type` and `pair_type`. The type is nil where the source writes
`CARDS_TYPE.NONE`, which its table of types does not have. -/
structure Typed where
  type : Option CardsType
  pair : List (List Int)

def getValue (card : Int) : Int := card % 20

def getOxValue (card : Int) : Int := if 10 ≤ getValue card then 10 else getValue card

def getColor (card : Int) : Int := card / 20

def oxSum (cards : List Int) : Int := (cards.map getOxValue).sum

/-- `ox_type` -/
def oxType (twoValue : Int) : CardsType :=
  if twoValue % 10 = 0 then .ox 10 else .ox (twoValue % 10).toNat

/-! ### Comparison -/

section Compare

variable (lua : LuaSort)

def sortedPairValues (pair : List (List Int)) : List Int :=
  lua.sort (fun l r => if getValue r ≠ getValue l then getValue r < getValue l
    else getColor l < getColor r) pair.flatten

/-- Two different types; nil cannot be compared with a number. -/
def compareTypes (l r : Option CardsType) (equal : Option Bool) : Option Bool :=
  match l, r with
  | some l, some r => if l.number ≠ r.number then some (r.number < l.number) else equal
  | none, none => equal
  | _, _ => none

/-- `compare` of `ox`; no result stands for a Lua error. -/
def compareOx (l r : Typed) : Option Bool :=
  compareTypes l.type r.type <|
    match (sortedPairValues lua l.pair)[0]?, (sortedPairValues lua r.pair)[0]? with
    | some lc1, some rc1 =>
        if getValue lc1 ≠ getValue rc1 then some (getValue rc1 < getValue lc1)
        else some (getColor lc1 < getColor rc1)
    | _, _ => none

/-- Two straights. The colours of the aces are taken of their values, so they are equal. -/
def compareStraights (lc1 rc1 lc5 rc5 : Int) : Bool :=
  let lv := getValue lc1
  let rv := getValue rc1
  let lv5 := getValue lc5
  let rv5 := getValue rc5
  if lv = rv ∧ lv = 13 then
    if lv5 = 1 ∧ rv5 = 1 then getColor lv5 < getColor rv5
    else if lv5 = 1 then true
    else if rv5 = 1 then false
    else getColor lc1 < getColor rc1
  else
    rv < lv

/-- `compare` of `oxp`. -/
def compareOxp (l r : Typed) : Option Bool :=
  compareTypes l.type r.type <|
    let lcards := sortedPairValues lua l.pair
    let rcards := sortedPairValues lua r.pair
    match lcards[0]?, rcards[0]?, lcards[4]?, rcards[4]? with
    | some lc1, some rc1, some lc5, some rc5 =>
        if l.type = some .tonghuashun ∨ l.type = some .shunzi then
          some (compareStraights lc1 rc1 lc5 rc5)
        else if getValue lc1 ≠ getValue rc1 then some (getValue rc1 < getValue lc1)
        else some (getColor lc1 < getColor rc1)
    | _, _, _, _ => none

end Compare

/-! ### The type of five cards -/

/-- The ways to take three of five, in the order of the three loops. -/
def splits {α : Type} : List α → List (List α × List α)
  | [a, b, c, d, e] =>
      [([a, b, c], [d, e]), ([a, b, d], [c, e]), ([a, b, e], [c, d]), ([a, c, d], [b, e]),
        ([a, c, e], [b, d]), ([a, d, e], [b, c]), ([b, c, d], [a, e]), ([b, c, e], [a, d]),
        ([b, d, e], [a, c]), ([c, d, e], [a, b])]
  | _ => []

/-- `types`: the splits whose triple is a multiple of ten. -/
def bulls (list : List Int) : List Typed :=
  ((splits list).filter fun split => oxSum split.1 % 10 = 0).map fun split =>
    ⟨some (oxType (oxSum split.2)), [split.1, split.2]⟩

/-- Neighbouring values differ by one. -/
def isSeq : List Int → Bool
  | [] => false
  | [_] => true
  | a :: b :: rest => |a - b| = 1 && isSeq (b :: rest)

def hasCount (values : List Int) (n : Nat) : Bool := values.any fun v => values.count v = n

def isSmall5 (values : List Int) : Bool := values.all (fun v => v < 5) && values.sum ≤ 10

/-- All cards are of one colour. -/
def sameColor (list : List Int) : Bool := (list.map getColor).dedup.length = 1

/-- The types that are looked for, each if the rules of the table have it. -/
def special (opt : CardsType → Bool) (types : List (CardsType × Bool)) : Option CardsType :=
  (types.find? fun entry => opt entry.1 && entry.2).map Prod.fst

section CardsType

variable (lua : LuaSort) (opt : CardsType → Bool)

/-- The cards sorted by value, the greatest first. -/
def sortedCards (cards : List Int) : List Int :=
  lua.sort (fun l r => decide (getValue r < getValue l)) cards

def sortedValues (cards : List Int) : List Int := (sortedCards lua cards).map getValue

/-- The special types of `ox` that are looked for before the bulls. -/
def specialOxFirst (values : List Int) : Option CardsType :=
  special opt
    [(.small5, isSmall5 values), (.bomb, hasCount values 4), (.jinhua, values.all fun v => 10 < v),
      (.yinhua, values.all fun v => 10 ≤ v)]

/-- The special types of `ox` for cards with a bull. -/
def specialOxLast (values : List Int) (same : Bool) : Option CardsType :=
  special opt
    [(.hulu, hasCount values 3 && hasCount values 2), (.tonghuashun, same && isSeq values),
      (.tonghua, same), (.shunzi, isSeq values)]

/-- `cards_type` of `ox` -/
def cardsTypeOx (cards : List Int) : Typed :=
  match specialOxFirst opt (sortedValues lua cards) with
  | some type => ⟨some type, [sortedCards lua cards]⟩
  | none =>
      match (lua.sort (fun l r => (compareOx lua l r).getD false)
          (bulls (sortedCards lua cards))).head? with
      | none => ⟨some .oxNone, [sortedCards lua cards]⟩
      | some bull =>
          match specialOxLast opt (sortedValues lua cards) (sameColor (sortedCards lua cards)) with
          | some type => ⟨some type, [sortedCards lua cards]⟩
          | none => bull

/-- The straight from the ten to the ace counts too. -/
def isSeqOxp (values : List Int) : Bool := isSeq values || values = [13, 12, 11, 10, 1]

def specialOxp (values : List Int) (same : Bool) : Option CardsType :=
  special opt
    [(.tonghuashun, same && isSeqOxp values), (.small5, isSmall5 values),
      (.bomb, hasCount values 4), (.hulu, hasCount values 3 && hasCount values 2),
      (.jinhua, values.all fun v => 10 < v), (.yinhua, values.all fun v => 10 ≤ v),
      (.tonghua, same), (.shunzi, isSeqOxp values)]

/-- `cards_type` of `oxp` -/
def cardsTypeOxp (cards : List Int) : Typed :=
  match specialOxp opt (sortedValues lua cards) (sameColor (sortedCards lua cards)) with
  | some type => ⟨some type, [sortedCards lua cards]⟩
  | none =>
      match (lua.sort (fun l r => (compareOxp lua l r).getD false)
          (bulls (sortedCards lua cards))).head? with
      | none => ⟨some .oxNone, [sortedCards lua cards]⟩
      | some bull => bull

end CardsType

/-! ### What the type depends on -/

/-- What a value counts for a bull. -/
def cap (v : Int) : Int := if 10 ≤ v then 10 else v

theorem oxSum_eq (cards : List Int) : oxSum cards = ((cards.map getValue).map cap).sum := by
  rw [List.map_map]
  rfl

theorem oxSum_perm {cards cards' : List Int} (same : cards.Perm cards') :
    oxSum cards = oxSum cards' :=
  (same.map getOxValue).sum_eq

theorem oxSum_append (first second : List Int) :
    oxSum (first ++ second) = oxSum first + oxSum second := by
  rw [oxSum, List.map_append, List.sum_append]
  rfl

theorem splits_map {α β : Type} (f : α → β) (list : List α) :
    splits (list.map f) = (splits list).map fun split => (split.1.map f, split.2.map f) := by
  unfold splits
  split
  · rename_i a b c d e same
    match list, same with
    | [_, _, _, _, _], same =>
        cases same
        rfl
  · rename_i not_five
    split
    · rename_i a b c d e
      exact absurd rfl (not_five (f a) (f b) (f c) (f d) (f e))
    · rfl

theorem splits_perm {α : Type} [DecidableEq α] {list : List α} {split : List α × List α}
    (mem : split ∈ splits list) : (split.1 ++ split.2).Perm list := by
  unfold splits at mem
  split at mem
  · apply List.perm_iff_count.2
    intro x
    fin_cases mem <;> simp only [List.cons_append, List.nil_append, List.count_cons] <;> omega
  · cases mem

/-- Three of the five values are a multiple of ten. -/
def hasBull (values : List Int) : Bool :=
  (splits values).any fun split => (split.1.map cap).sum % 10 = 0

theorem bulls_eq_nil_iff (list : List Int) :
    bulls list = [] ↔ hasBull (list.map getValue) = false := by
  unfold bulls hasBull
  rw [List.map_eq_nil_iff, List.filter_eq_nil_iff, splits_map, List.any_map, List.any_eq_false]
  simp only [Function.comp_apply, ← oxSum_eq]

/-- Every bull of five cards has the type of their sum. -/
theorem bull_type {list : List Int} {bull : Typed} (mem : bull ∈ bulls list) :
    bull.type = some (oxType (oxSum list)) ∧ bull.pair.flatten.Perm list := by
  unfold bulls at mem
  obtain ⟨split, found, rfl⟩ := List.mem_map.1 mem
  obtain ⟨listed, ten⟩ := List.mem_filter.1 found
  have whole := splits_perm listed
  refine ⟨?_, by simpa using whole⟩
  rw [← oxSum_perm whole, oxSum_append]
  have rest : (oxSum split.1 + oxSum split.2) % 10 = oxSum split.2 % 10 := by
    have := of_decide_eq_true ten
    omega
  unfold oxType
  rw [rest]

theorem number_oxType (twoValue : Int) : 2 ≤ (oxType twoValue).number ∧ (oxType twoValue).number ≤ 11 := by
  unfold oxType
  split
  · exact ⟨by decide, by decide⟩
  · simp only [CardsType.number]
    omega

theorem special_mem {opt : CardsType → Bool} {types : List (CardsType × Bool)} {type : CardsType}
    (found : special opt types = some type) : type ∈ types.map Prod.fst := by
  unfold special at found
  obtain ⟨entry, first, rfl⟩ := Option.map_eq_some_iff.1 found
  exact List.mem_map_of_mem (List.mem_of_find?_eq_some first)

/-- The type as a function of the sorted values and of whether the colours agree. -/
def typeOx (opt : CardsType → Bool) (values : List Int) (same : Bool) : CardsType :=
  match specialOxFirst opt values with
  | some type => type
  | none =>
      if hasBull values then (specialOxLast opt values same).getD (oxType (values.map cap).sum)
      else .oxNone

def typeOxp (opt : CardsType → Bool) (values : List Int) (same : Bool) : CardsType :=
  match specialOxp opt values same with
  | some type => type
  | none => if hasBull values then oxType (values.map cap).sum else .oxNone

section Spec

variable (lua : LuaSort) (opt : CardsType → Bool)

theorem sortedCards_perm (cards : List Int) : (sortedCards lua cards).Perm cards :=
  lua.perm _ cards

theorem sortedValues_perm {cards cards' : List Int} (same : cards.Perm cards') :
    sortedValues lua cards = sortedValues lua cards' :=
  lua.map_key_sort getValue same

theorem sameColor_perm {cards cards' : List Int} (same : cards.Perm cards') :
    sameColor cards = sameColor cards' := by
  unfold sameColor
  rw [(same.map getColor).dedup.length_eq]

theorem sum_sortedValues (cards : List Int) :
    ((sortedValues lua cards).map cap).sum = oxSum cards := by
  rw [sortedValues, ← oxSum_eq, oxSum_perm (sortedCards_perm lua cards)]

theorem hasBull_of_mem {list : List Int} {bull : Typed} (mem : bull ∈ bulls list) :
    hasBull (list.map getValue) = true := by
  apply Bool.of_not_eq_false
  intro no_bull
  rw [(bulls_eq_nil_iff list).2 no_bull] at mem
  cases mem

variable {lua} {less : Typed → Typed → Bool} {cards : List Int}

theorem no_bull_of_head (head : (lua.sort less (bulls (sortedCards lua cards))).head? = none) :
    hasBull (sortedValues lua cards) = false :=
  (bulls_eq_nil_iff _).1 (lua.head_eq_none_iff.1 head)

/-- Whichever bull the sorting puts first. -/
theorem bull_of_head {bull : Typed}
    (head : (lua.sort less (bulls (sortedCards lua cards))).head? = some bull) :
    hasBull (sortedValues lua cards) = true ∧
      bull.type = some (oxType ((sortedValues lua cards).map cap).sum) ∧
      bull.pair.flatten.Perm cards := by
  have mem := lua.head_mem head
  obtain ⟨type, whole⟩ := bull_type mem
  have sorted := sortedCards_perm lua cards
  refine ⟨hasBull_of_mem mem, ?_, whole.trans sorted⟩
  rw [type, sum_sortedValues, oxSum_perm sorted]

variable (lua) (cards)

theorem cardsTypeOx_spec :
    (cardsTypeOx lua opt cards).type =
        some (typeOx opt (sortedValues lua cards) (sameColor (sortedCards lua cards))) ∧
      (cardsTypeOx lua opt cards).pair.flatten.Perm cards := by
  have whole : [sortedCards lua cards].flatten.Perm cards := by
    simpa using sortedCards_perm lua cards
  unfold cardsTypeOx typeOx
  cases specialOxFirst opt (sortedValues lua cards) with
  | some type => exact ⟨rfl, whole⟩
  | none =>
      simp only []
      cases head : (lua.sort (fun l r => (compareOx lua l r).getD false)
          (bulls (sortedCards lua cards))).head? with
      | none =>
          refine ⟨?_, whole⟩
          rw [if_neg (Bool.eq_false_iff.1 (no_bull_of_head head))]
      | some bull =>
          obtain ⟨has_bull, type, perm⟩ := bull_of_head head
          rw [if_pos has_bull]
          cases specialOxLast opt (sortedValues lua cards) (sameColor (sortedCards lua cards)) with
          | some type => exact ⟨rfl, whole⟩
          | none => exact ⟨type, perm⟩

theorem cardsTypeOxp_spec :
    (cardsTypeOxp lua opt cards).type =
        some (typeOxp opt (sortedValues lua cards) (sameColor (sortedCards lua cards))) ∧
      (cardsTypeOxp lua opt cards).pair.flatten.Perm cards := by
  have whole : [sortedCards lua cards].flatten.Perm cards := by
    simpa using sortedCards_perm lua cards
  unfold cardsTypeOxp typeOxp
  cases specialOxp opt (sortedValues lua cards) (sameColor (sortedCards lua cards)) with
  | some type => exact ⟨rfl, whole⟩
  | none =>
      simp only []
      cases head : (lua.sort (fun l r => (compareOxp lua l r).getD false)
          (bulls (sortedCards lua cards))).head? with
      | none =>
          refine ⟨?_, whole⟩
          rw [if_neg (Bool.eq_false_iff.1 (no_bull_of_head head))]
      | some bull =>
          obtain ⟨has_bull, type, perm⟩ := bull_of_head head
          rw [if_pos has_bull]
          exact ⟨type, perm⟩

end Spec

end FkServer.Ox
