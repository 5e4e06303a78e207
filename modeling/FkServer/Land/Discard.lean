import FkServer.Climbing.Cards
import FkServer.Library.Rotation
import FkServer.Land.Table

/-!
The discards of `land_table`: the type of a list of cards, the comparison with the last
discard, and `do_action_discard`. The hands are sets, every card being there once.
-/
namespace FkServer.Land

open Climbing

/-- `DDZ_CARD_TYPE` -/
inductive CardType
  | single
  | double
  | three
  | threeWithOne
  | threeWithTwo
  | fourWithDouble
  | singleLine
  | doubleLine
  | plane
  | planeWithOne
  | planeWithTwo
  | bomb
  | missle
deriving DecidableEq

def CardType.number : CardType → Nat
  | .single => 1
  | .double => 2
  | .three => 3
  | .threeWithOne => 4
  | .threeWithTwo => 5
  | .fourWithDouble => 7
  | .singleLine => 9
  | .doubleLine => 10
  | .plane => 11
  | .planeWithOne => 12
  | .planeWithTwo => 13
  | .bomb => 14
  | .missle => 15

/-- The start `values[i + 1]` of a plane whose `count` cards are `size` for each of its
triples, the first `i` triples being carried along. -/
def planeStart (values : List Int) (count size : Nat) : Option Int :=
  ((List.range (count / size)).find? fun i : Nat =>
    (count : Int) = ((values.length : Int) - i) * size).map fun i => values.getD i 0

def planeType (values : List Int) (count : Nat) : Option (CardType × Int) :=
  if values.length < 2 then none
  else if count = values.length * 3 then some (.plane, values.headD 0)
  else
    match planeStart values count 4 with
    | some start => some (.planeWithOne, start)
    | none => (planeStart values count 5).map fun start => (.planeWithTwo, start)

/-- Single cards in a row, looked for last. -/
def singleLine (keys : List Int) : Option (CardType × Int) :=
  let values := maxContinuityCards fun i => keys.count i = 1
  if 5 ≤ countCounts keys 1 ∧ 5 ≤ values.length ∧ values.length = countCounts keys 1 then
    some (.singleLine, values.headD 0)
  else
    none

/-- `cards_util.get_cards_type` -/
def getCardsType (pairs : List Int → List Int) (cards : List Int) : Option (CardType × Int) :=
  let keys := cards.map value
  let has := countCounts keys
  let first := countValue pairs keys
  match cards with
  | [card] => some (.single, value card)
  | _ =>
      if cards = [96, 97] ∨ cards = [97, 96] then
        some (.missle, 96)
      else if 0 < has 4 then
        if has 1 = 2 ∧ cards.length = 6 ∨ has 2 = 2 ∧ cards.length = 8 then
          some (.fourWithDouble, first 4)
        else if has 1 = 0 ∧ has 2 = 0 ∧ has 3 = 0 then
          some (.bomb, first 4)
        else
          none
      else if 0 < has 3 then
        if has 3 = 1 then
          if (has 2 = 1 ∨ has 1 = 2) ∧ cards.length = 5 then some (.threeWithTwo, first 3)
          else if has 1 = 1 ∧ cards.length = 4 then some (.threeWithOne, first 3)
          else if has 1 = 0 ∧ has 2 = 0 ∧ cards.length = 3 then some (.three, first 3)
          else none
        else
          planeType (maxContinuityCards fun i => keys.count i = 3) cards.length
      else
        let values := maxContinuityCards fun i => keys.count i = 2
        if has 2 = 1 ∧ cards.length = 2 then
          some (.double, first 2)
        else if 0 < has 2 ∧ 3 ≤ values.length ∧ values.length = has 2 ∧
            cards.length = values.length * 2 then
          some (.doubleLine, values.headD 0)
        else
          singleLine keys

/-- `cards_util.compare_cards` -/
def compareCards (l : Played CardType) (r : Option (Played CardType)) : Option Int :=
  Climbing.compareCards CardType.number CardType.bomb.number CardType.missle.number l r

/-- The rules of a table. `pairs` is the order in which Lua meets the values of a table. -/
structure DiscardConf where
  startCount : Nat
  siDaiEr : Bool
  sanZhang : Bool
  sanDaiEr : Bool
  pairs : List Int → List Int
  pairs_perm : ∀ values, (pairs values).Perm values

/-- The table in the discard phase, every chair from 1 to `start_count` being taken. -/
structure Discards where
  status : Status
  curDiscardChair : Nat
  handCards : Nat → Finset Int
  lastDiscard : Option (LastDiscard CardType)
  multi : Nat
  bomb : Nat
  discardCount : Nat → Nat
  statisticsBomb : Nat → Nat
  statisticsWin : Nat → Nat
  win : Nat → Bool
  playerBomb : Nat → Nat

def isBomb (kind : CardType) : Bool := kind = .bomb ∨ kind = .missle

/-- The types the rules of the table leave out. -/
def typeRefused (c : DiscardConf) (kind : CardType) : Bool :=
  kind = .fourWithDouble ∧ c.siDaiEr = false ∨ kind = .three ∧ c.sanZhang = false ∨
    kind = .threeWithTwo ∧ c.sanDaiEr = false

def raise (counts : Nat → Nat) (chair : Nat) (on : Bool) : Nat → Nat :=
  if on then Function.update counts chair (counts chair + 1) else counts

/-- The state changes of an accepted discard, up to the hand being looked at. -/
def discarded (s : Discards) (chair : Nat) (cards : List Int) (kind : CardType) (v : Int) :
    Discards :=
  { s with
    lastDiscard := some ⟨⟨kind, cards.length, v⟩, cards, chair⟩
    discardCount := raise s.discardCount chair true
    bomb := if isBomb kind then s.bomb + 1 else s.bomb
    statisticsBomb := raise s.statisticsBomb chair (isBomb kind)
    handCards := Function.update s.handCards chair (s.handCards chair \ cards.toFinset) }

def doActionDiscard (c : DiscardConf) (s : Discards) (chair : Nat) (cards : List Int) :
    Reply Discards :=
  if s.status ≠ .play then
    .refused s
  else if chair ≠ s.curDiscardChair then
    .refused s
  else if ¬ cards.all fun card => card ∈ s.handCards chair then
    .refused s
  else
    match getCardsType c.pairs cards with
    | none => .refused s
    | some (kind, v) =>
        if typeRefused c kind then
          .refused s
        else if notGreater (compareCards ⟨kind, cards.length, v⟩
            (s.lastDiscard.map LastDiscard.toPlayed)) then
          .refused s
        else
          let t := discarded s chair cards kind v
          if (t.handCards chair).card = 0 then
            .over { t with
              win := Function.update t.win chair true
              statisticsWin := raise t.statisticsWin chair true
              playerBomb := raise t.playerBomb chair (isBomb kind) }
          else
            .next { t with curDiscardChair := Rotation.forward c.startCount t.curDiscardChair }

def hands (s : Discards) (chair : Nat) : Multiset Int := (s.handCards chair).val

/-- One of the checks of `do_action_discard` refuses the list. -/
def Refuses (c : DiscardConf) (s : Discards) (chair : Nat) (cards : List Int) : Prop :=
  s.status ≠ .play ∨ chair ≠ s.curDiscardChair ∨ (∃ card, card ∈ cards ∧ card ∉ s.handCards chair) ∨
    ∀ kind v, getCardsType c.pairs cards = some (kind, v) →
      typeRefused c kind = true ∨ notGreater (compareCards ⟨kind, cards.length, v⟩
        (s.lastDiscard.map LastDiscard.toPlayed)) = true

/-- The cards are kept unless a list that repeats a card passes all checks. -/
theorem discard_conserves_iff (c : DiscardConf) (s : Discards) (chair : Nat) (cards : List Int) :
    Conserves hands s chair cards (doActionDiscard c s chair cards) ↔
      cards.Nodup ∨ Refuses c s chair cards := by
  unfold doActionDiscard
  refine conserves_check_iff Iff.rfl fun _ => ?_
  refine conserves_check_iff Iff.rfl fun _ => ?_
  refine conserves_check_iff (by simp) fun none_missing => ?_
  have held : ∀ card, card ∈ cards → card ∈ s.handCards chair := by
    simpa using none_missing
  cases typed : getCardsType c.pairs cards with
  | none => exact iff_of_true rfl (.inr (by simp))
  | some found =>
      obtain ⟨kind, v⟩ := found
      rw [forall_found_iff]
      refine conserves_check_iff Iff.rfl fun _ => ?_
      refine conserves_last_check_iff fun _ => ?_
      rw [← set_hands_take_iff s.handCards chair cards held]
      dsimp only
      split <;> rfl

end FkServer.Land
