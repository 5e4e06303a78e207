import FkServer.Climbing.Cards
import FkServer.Library.Rotation
import Mathlib.Data.Finset.Max

/-!
The discards of `pdk_table`, with the rules on the last single card of the next player
and on the first discard. The hands are sets, every card being there once.
-/
namespace FkServer.Pdk

open Climbing

/-- The types of `PDK_CARD_TYPE` that `pdk` uses. -/
inductive CardType
  | single
  | double
  | three
  | threeWithOne
  | threeWithTwo
  | fourWithDouble
  | fourWithThree
  | singleLine
  | doubleLine
  | plane
  | planeWithOne
  | planeWithTwo
  | planeWithMix
  | bomb
  | missle
deriving DecidableEq

def CardType.number : CardType → Nat
  | .single => 1
  | .double => 3
  | .three => 5
  | .threeWithOne => 7
  | .threeWithTwo => 8
  | .fourWithDouble => 10
  | .fourWithThree => 11
  | .singleLine => 14
  | .doubleLine => 15
  | .plane => 16
  | .planeWithOne => 17
  | .planeWithTwo => 18
  | .planeWithMix => 19
  | .bomb => 24
  | .missle => 26

/-- `CARD_TYPE.FOUR_WITH_TWO`: the enumeration has no such name. -/
def CardType.fourWithTwo : Option CardType := none

/-- `CARD_TYPE.FOUR_WITH_ONE`: the enumeration has no such name. -/
def CardType.fourWithOne : Option CardType := none

/-- The first run of at least two values; a single value before a gap is dropped. -/
def planeValues (has : Int → Bool) : List Int → List Int → List Int
  | values, [] => values
  | values, i :: rest =>
      if has i then planeValues has (values ++ [i]) rest
      else if values.length = 1 then planeValues has [] rest
      else if 1 < values.length then values
      else planeValues has values rest

def planeType (values : List Int) (count : Nat) : Option (CardType × Int) :=
  if values.length < 2 then none
  else if count = values.length * 3 then some (.plane, values.headD 0)
  else if count = values.length * 4 then some (.planeWithOne, values.headD 0)
  else if count = values.length * 5 then some (.planeWithTwo, values.headD 0)
  else if values.length * 3 < count ∧ count < values.length * 5 then
    some (.planeWithMix, values.headD 0)
  else none

/-- Four of a kind, if there is just one. -/
def fourType (has : Nat → Nat) (first : Nat → Int) (count : Nat) : Option (CardType × Int) :=
  if has 4 ≠ 1 then none
  else if (has 1 = 2 ∨ has 2 = 1) ∧ count = 6 then some (.fourWithDouble, first 4)
  else if (has 3 = 1 ∨ has 2 = 1 ∧ has 1 = 1 ∨ has 1 = 3) ∧ count = 7 then
    some (.fourWithThree, first 4)
  else if has 1 = 0 ∧ has 2 = 0 ∧ has 3 = 0 then some (.bomb, first 4)
  else if has 1 = 1 ∧ count = 5 then some (.threeWithTwo, first 4)
  else none

/-- Three of a kind, if there is just one. -/
def threeType (has : Nat → Nat) (first : Nat → Int) (count : Nat) : Option (CardType × Int) :=
  if has 3 ≠ 1 then none
  else if (has 2 = 1 ∨ has 1 = 2) ∧ count = 5 then some (.threeWithTwo, first 3)
  else if has 1 = 1 ∧ count = 4 then some (.threeWithOne, first 3)
  else if has 1 = 0 ∧ has 2 = 0 ∧ count = 3 then some (.three, first 3)
  else none

def doubleType (keys : List Int) (first : Nat → Int) (count : Nat) : Option (CardType × Int) :=
  let values := maxContinuityCards fun i => keys.count i = 2
  if countCounts keys 2 = 1 ∧ count = 2 then some (.double, first 2)
  else if 0 < countCounts keys 2 ∧ 2 ≤ values.length ∧ values.length = countCounts keys 2 ∧
      count = values.length * 2 then
    some (.doubleLine, values.headD 0)
  else none

def singleLine (keys : List Int) : Option (CardType × Int) :=
  let values := maxContinuityCards fun i => keys.count i = 1
  if 5 ≤ countCounts keys 1 ∧ 5 ≤ values.length ∧ values.length = countCounts keys 1 then
    some (.singleLine, values.headD 0)
  else
    none

/-- `cards_util.get_cards_type` -/
def cardsType (pairs : List Int → List Int) (cards : List Int) : Option (CardType × Int) :=
  let keys := cards.map value
  let has := countCounts keys
  let first := countValue pairs keys
  match cards with
  | [card] => some (.single, value card)
  | _ =>
      (fourType has first cards.length).or <|
      (threeType has first cards.length).or <|
      if 1 < has 3 + has 4 then
        planeType (planeValues (fun i => keys.count i = 3 ∨ keys.count i = 4) [] (valuesFrom 3))
          cards.length
      else
        (doubleType keys first cards.length).or (singleLine keys)

/-- `cards_util.compare_cards` -/
def compareCards (l : Played CardType) (r : Option (Played CardType)) : Option Int :=
  Climbing.compareCards CardType.number CardType.bomb.number CardType.missle.number l r

/-- `self.rule.play` -/
structure Play where
  aaaIsBomb : Bool
  baoDanDiscardMax : Bool
  siDaiEr : Bool
  siDaiSan : Bool
  sanDaiYi : Bool
  planeWithMix : Option Bool
  firstDiscardWith3 : Bool

/-- `pairs` is the order in which Lua meets the values of a table. -/
structure DiscardConf where
  startCount : Nat
  play : Option Play
  pairs : List Int → List Int
  pairs_perm : ∀ values, (pairs values).Perm values

inductive Status
  | free
  | play
deriving DecidableEq

/-- The table in the discard phase, every chair from 1 to `start_count` being taken. -/
structure Discards where
  status : Status
  curDiscardChair : Nat
  handCards : Nat → Finset Int
  lastDiscard : Option (LastDiscard CardType)
  firstDiscard : Bool
  discardTimes : Nat → Nat
  statisticsWin : Nat → Nat
  win : Nat → Bool
  bomb : Nat → Nat

def getCardsType (c : DiscardConf) (cards : List Int) : Option (CardType × Int) :=
  (cardsType c.pairs cards).map fun typed =>
    if c.play.any Play.aaaIsBomb ∧ typed = (.three, 14) then (.missle, 14) else typed

def nextChair (c : DiscardConf) (s : Discards) : Nat :=
  Rotation.forward c.startCount s.curDiscardChair

/-- The greatest value of a hand. -/
def handMaxValue (hand : Finset Int) : WithBot Int := (hand.image value).max

/-- With one card left to the next player, a single card must be the highest one. -/
def checkDiscardNextPlayerLastSingle (c : DiscardConf) (s : Discards) (kind : CardType)
    (v : Int) : Bool :=
  c.play.any fun play =>
    (play.baoDanDiscardMax ∨ c.startCount = 2) ∧ (s.handCards (nextChair c s)).card = 1 ∧
      kind = .single ∧ handMaxValue (s.handCards s.curDiscardChair) ≠ v

/-- The types the rules leave out. -/
def checkDiscardCardsType (c : DiscardConf) (s : Discards) (kind : CardType)
    (cards : List Int) : Bool :=
  c.play.any fun play =>
    let notLast := (s.handCards s.curDiscardChair).card ≠ cards.length
    (some kind = CardType.fourWithTwo ∨ some kind = CardType.fourWithOne) ∧
        play.siDaiEr = false ∨
      kind = .fourWithThree ∧ play.siDaiSan = false ∨
      kind = .threeWithOne ∧ (play.sanDaiYi = false ∨ notLast) ∨
      kind = .planeWithMix ∧ (play.planeWithMix = some false ∨ notLast ∨ s.lastDiscard.isSome)

/-- The first discard of a game has to show the three of spades. -/
def checkFirstDiscardsWith3 (c : DiscardConf) (s : Discards) (cards : List Int) : Bool :=
  c.play.any fun play => s.firstDiscard && play.firstDiscardWith3 && cards.all fun card => card ≠ 3

def raise (counts : Nat → Nat) (chair : Nat) (on : Bool) : Nat → Nat :=
  if on then Function.update counts chair (counts chair + 1) else counts

/-- The state changes of an accepted discard, up to the hand being looked at. -/
def discarded (s : Discards) (chair : Nat) (cards : List Int) (kind : CardType) (v : Int) :
    Discards :=
  { s with
    firstDiscard := false
    lastDiscard := some ⟨⟨kind, cards.length, v⟩, cards, chair⟩
    discardTimes := raise s.discardTimes chair true
    handCards := Function.update s.handCards chair (s.handCards chair \ cards.toFinset) }

def doActionDiscard (c : DiscardConf) (s : Discards) (chair : Nat) (cards : List Int) :
    Reply Discards :=
  if s.status ≠ .play then
    .refused s
  else if chair ≠ s.curDiscardChair then
    .refused s
  else if ¬ cards.all fun card => card ∈ s.handCards chair then
    .refused s
  else
    match getCardsType c cards with
    | none => .refused s
    | some (kind, v) =>
        if checkDiscardCardsType c s kind cards || checkDiscardNextPlayerLastSingle c s kind v ||
            checkFirstDiscardsWith3 c s cards then
          .refused s
        else if notGreater (compareCards ⟨kind, cards.length, v⟩
            (s.lastDiscard.map LastDiscard.toPlayed)) then
          .refused s
        else
          let t := discarded s chair cards kind v
          if (t.handCards chair).card = 0 then
            .over { t with
              win := Function.update t.win chair true
              statisticsWin := raise t.statisticsWin chair true
              bomb := raise t.bomb chair (kind = .bomb ∨ kind = .missle) }
          else
            .next { t with curDiscardChair := nextChair c t }

def hands (s : Discards) (chair : Nat) : Multiset Int := (s.handCards chair).val

/-- One of the checks of `do_action_discard` refuses the list. -/
def Refuses (c : DiscardConf) (s : Discards) (chair : Nat) (cards : List Int) : Prop :=
  s.status ≠ .play ∨ chair ≠ s.curDiscardChair ∨ (∃ card, card ∈ cards ∧ card ∉ s.handCards chair) ∨
    ∀ kind v, getCardsType c cards = some (kind, v) →
      (checkDiscardCardsType c s kind cards || checkDiscardNextPlayerLastSingle c s kind v ||
        checkFirstDiscardsWith3 c s cards) = true ∨
      notGreater (compareCards ⟨kind, cards.length, v⟩
        (s.lastDiscard.map LastDiscard.toPlayed)) = true

/-- What an accepted discard has passed, and the hands it leaves. -/
structure Accepted (c : DiscardConf) (s : Discards) (chair : Nat) (cards : List Int)
    (kind : CardType) (v : Int) (t : Discards) : Prop where
  on_turn : chair = s.curDiscardChair
  held : ∀ card, card ∈ cards → card ∈ s.handCards chair
  typed : getCardsType c cards = some (kind, v)
  allowed : checkDiscardCardsType c s kind cards = false
  hands : t.handCards = Function.update s.handCards chair (s.handCards chair \ cards.toFinset)

theorem refuses_or_accepted (c : DiscardConf) (s : Discards) (chair : Nat) (cards : List Int) :
    (Refuses c s chair cards ∧ doActionDiscard c s chair cards = .refused s) ∨
      ¬ Refuses c s chair cards ∧ ∃ kind v t, Accepted c s chair cards kind v t ∧
        (doActionDiscard c s chair cards = .over t ∨ doActionDiscard c s chair cards = .next t) := by
  unfold doActionDiscard
  split
  · rename_i idle
    exact .inl ⟨.inl idle, rfl⟩
  · rename_i play
    split
    · rename_i other
      exact .inl ⟨.inr (.inl other), rfl⟩
    · rename_i on_turn
      split
      · rename_i missing
        exact .inl ⟨.inr (.inr (.inl (by simpa using missing))), rfl⟩
      · rename_i all_held
        have held : ∀ card, card ∈ cards → card ∈ s.handCards chair := by
          simpa using all_held
        cases typed : getCardsType c cards with
        | none =>
            refine .inl ⟨.inr (.inr (.inr ?_)), rfl⟩
            intro kind v same
            cases typed.symm.trans same
        | some found =>
            obtain ⟨kind, v⟩ := found
            simp only []
            split
            · rename_i refused
              refine .inl ⟨.inr (.inr (.inr ?_)), rfl⟩
              intro kind v same
              cases typed.symm.trans same
              exact .inl refused
            · rename_i allowed
              split
              · rename_i low
                refine .inl ⟨.inr (.inr (.inr ?_)), rfl⟩
                intro kind v same
                cases typed.symm.trans same
                exact .inr low
              · rename_i greater
                have passes : ¬ Refuses c s chair cards := by
                  intro refuses
                  rcases refuses with idle | other | ⟨card, mem, missing⟩ | refused
                  · exact play idle
                  · exact on_turn other
                  · exact missing (held card mem)
                  · exact (refused kind v typed).elim allowed greater
                have by_rules : checkDiscardCardsType c s kind cards = false := by
                  cases barred : checkDiscardCardsType c s kind cards with
                  | false => rfl
                  | true => simp [barred] at allowed
                refine .inr ⟨passes, kind, v, ?_⟩
                split
                · exact ⟨_, ⟨not_not.1 on_turn, held, typed, by_rules, rfl⟩, .inl rfl⟩
                · exact ⟨_, ⟨not_not.1 on_turn, held, typed, by_rules, rfl⟩, .inr rfl⟩

/-- The cards are kept unless a list that repeats a card passes all checks. -/
theorem discard_conserves_iff (c : DiscardConf) (s : Discards) (chair : Nat) (cards : List Int) :
    Conserves hands s chair cards (doActionDiscard c s chair cards) ↔
      cards.Nodup ∨ Refuses c s chair cards := by
  rcases refuses_or_accepted c s chair cards with
    ⟨refuses, refused⟩ | ⟨passes, kind, v, t, accepted, answer⟩
  · rw [refused]
    exact iff_of_true rfl (.inr refuses)
  · have kept : (fun other => (t.handCards other).val) =
        fun other => (Function.update s.handCards chair
          (s.handCards chair \ cards.toFinset) other).val := by
      rw [accepted.hands]
    rw [or_iff_left passes, ← set_hands_take_iff s.handCards chair cards accepted.held, ← kept]
    rcases answer with finished | goes_on
    · rw [finished]
      rfl
    · rw [goes_on]
      rfl

end FkServer.Pdk
