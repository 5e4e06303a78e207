import FkServer.Climbing.Cards
import FkServer.Library.Rotation
import Mathlib.Data.Finset.Max

/-!
The discards of the `pdk_sc` table. A hand is a table of counts, because the cards of the
laizi value are all the same card; the client says what they stand for.
-/
namespace FkServer.PdkSc

open Climbing

/-- The types of `PDK_CARD_TYPE` that `get_cards_type` gives. -/
inductive CardType
  | single
  | laiziSingle
  | double
  | laiziDouble
  | three
  | laiziThree
  | four
  | laiziFour
  | singleLine
  | doubleLine
  | softTripleBomb
  | tripleBomb
  | laiziTripleBomb
  | softBomb
  | bomb
  | laiziBomb
deriving DecidableEq

def CardType.number : CardType → Nat
  | .single => 1
  | .laiziSingle => 2
  | .double => 3
  | .laiziDouble => 4
  | .three => 5
  | .laiziThree => 6
  | .four => 12
  | .laiziFour => 13
  | .singleLine => 14
  | .doubleLine => 15
  | .softTripleBomb => 20
  | .tripleBomb => 21
  | .laiziTripleBomb => 22
  | .softBomb => 23
  | .bomb => 24
  | .laiziBomb => 25

/-- `self.rule.play` -/
structure Play where
  bombTypeOption : Option Nat
  ziMeiDui : Bool
  baoDanDiscardMax : Bool
  firstDiscardWith5 : Bool

/-- `pairs` is the order in which Lua meets the values of a table, `laizi` the card that
stands for every card of the laizi value. -/
structure DiscardConf where
  startCount : Nat
  play : Option Play
  laizi : Option Int
  pairs : List Int → List Int
  pairs_perm : ∀ values, (pairs values).Perm values
  laizi_card : ∀ card, laizi = some card → 85 ≤ card ∧ card ≤ 94

def DiscardConf.hasBomb (c : DiscardConf) : Bool :=
  ((c.play.bind Play.bombTypeOption).getD 0) < 2

def DiscardConf.isTripleBomb (c : DiscardConf) : Bool :=
  c.play.bind Play.bombTypeOption = some 0

/-- The least number of pairs in a row. -/
def DiscardConf.minDoubles (c : DiscardConf) : Nat :=
  if c.play.any Play.ziMeiDui then 2 else 3

/-! ### The type of a list -/

/-- Every laizi is replaced by the last of the replacements that are left. -/
def replaceLaizi (laizi : Int) : List Int → List Int → List Int
  | [], _ => []
  | card :: cards, replace =>
      if card = laizi then
        match replace.getLast? with
        | none => card :: replaceLaizi laizi cards replace
        | some other => other :: replaceLaizi laizi cards replace.dropLast
      else
        card :: replaceLaizi laizi cards replace

/-- What the values are grouped by: a laizi that was not replaced stays itself. -/
def groupKey (laizi : Option Int) (card : Int) : Int := if laizi = some card then card else value card

/-- `is_single_line`: at most `remain` laizi fill the gaps after the first value. -/
def isSingleLine (count : Int → Nat) (remain : Nat) : List Int → Nat → List Int → List Int
  | values, _, [] => values
  | values, used, i :: rest =>
      if count i = 1 then
        isSingleLine count remain (values ++ [i]) used rest
      else if used < remain ∧ values ≠ [] then
        isSingleLine count remain (values ++ [i]) (used + 1) rest
      else if 3 ≤ values.length then
        values
      else
        isSingleLine count remain [] 0 rest

def isDoubleLine (least : Nat) (count : Int → Nat) (remain : Nat) :
    List Int → Nat → List Int → List Int
  | values, _, [] => values
  | values, used, i :: rest =>
      if count i = 2 then
        isDoubleLine least count remain (values ++ [i]) used rest
      else if count i = 1 ∧ used + 1 ≤ remain ∧ values ≠ [] then
        isDoubleLine least count remain (values ++ [i]) (used + 1) rest
      else if count i = 0 ∧ used + 2 ≤ remain ∧ values ≠ [] then
        isDoubleLine least count remain (values ++ [i]) (used + 2) rest
      else if least ≤ values.length then
        values
      else
        isDoubleLine least count remain [] 0 rest

/-- Which bomb `count` equal cards are, some of them laizi. -/
def bombOf (laiziCount count : Nat) (soft hard all : CardType) : CardType :=
  if laiziCount = count then all else if 0 < laiziCount ∧ laiziCount < count then soft else hard

/-- Two cards. -/
def doubleType (has : Nat → Nat) (first : Nat → Int) (laizis count : Nat) :
    Option (CardType × Int) :=
  if count ≠ 2 then none
  else if 0 < has 2 then some (if laizis = count then .laiziDouble else .double, first 2)
  else if 0 < has 1 ∧ laizis = 1 then some (.double, first 1)
  else none

def threeType (c : DiscardConf) (has : Nat → Nat) (first : Nat → Int) (laiziCount laizis count : Nat) :
    Option (CardType × Int) :=
  if count ≠ 3 then none
  else if has 3 = 1 then
    some (if c.isTripleBomb then
        bombOf laiziCount count .softTripleBomb .tripleBomb .laiziTripleBomb
      else if laiziCount = count then .laiziThree else .three, first 3)
  else if has 2 = 1 ∧ laizis = 1 then
    some (if c.isTripleBomb then .softTripleBomb else .three, first 2)
  else if has 1 = 1 ∧ laizis = 2 then
    some (if c.isTripleBomb then .softTripleBomb else .three, first 1)
  else none

def fourType (c : DiscardConf) (has : Nat → Nat) (first : Nat → Int) (laiziCount laizis count : Nat) :
    Option (CardType × Int) :=
  if count ≠ 4 then none
  else if has 4 = 1 then
    some (if c.hasBomb then bombOf laiziCount count .softBomb .bomb .laiziBomb
      else if laiziCount = count then .laiziFour else .four, first 4)
  else if has 3 = 1 ∧ laizis = 1 then some (if c.hasBomb then .softBomb else .four, first 3)
  else if has 2 = 1 ∧ laizis = 2 then some (if c.hasBomb then .softBomb else .four, first 2)
  else if has 1 = 1 ∧ laizis = 3 then some (if c.hasBomb then .softBomb else .four, first 1)
  else none

/-- Pairs or single cards in a row. The value of the empty list of cards is nil. -/
def lineType (c : DiscardConf) (keys : List Int) (remain count : Nat) :
    Option (CardType × Option Int) :=
  let doubles := isDoubleLine c.minDoubles keys.count remain [] 0 (valuesFrom 5)
  let singles := isSingleLine keys.count remain [] 0 (valuesFrom 5)
  if doubles.length * 2 = count ∧ c.minDoubles ≤ doubles.length then
    some (.doubleLine, doubles.head?)
  else if singles.length = count then
    some (.singleLine, singles.head?)
  else
    none

/-- `cards_util.get_cards_type` -/
def getCardsType (c : DiscardConf) (cards : List Int) (laiziReplace : Option (List Int)) :
    Option (CardType × Option Int) :=
  let cards := match laiziReplace, c.laizi with
    | some replace, some laizi => replaceLaizi laizi cards replace
    | _, _ => cards
  let laiziCount := cards.countP fun card => color card = 4
  let remain := cards.countP fun card => some card = c.laizi
  let keys := cards.map (groupKey c.laizi)
  let has := countCounts keys
  let first := countValue c.pairs keys
  match cards with
  | [card] => some (if laiziCount = 1 then .laiziSingle else .single, some (value card))
  | _ =>
      (((doubleType has first remain cards.length).or
        (threeType c has first laiziCount remain cards.length)).or
        (fourType c has first laiziCount remain cards.length)).elim
          (lineType c keys remain cards.length) fun typed => some (typed.1, some typed.2)

/-! ### Comparison -/

/-- What `compare_cards` looks at; the value of an empty list is nil. -/
structure Played where
  kind : CardType
  count : Nat
  value : Option Int

/-- The result of `compare_cards`: a comparison of nil is a Lua error. -/
inductive Compare
  | error
  | result (cmp : Option Int)

def compareCards (l : Played) (r : Option Played) : Compare :=
  match r with
  | none => .result (some 1)
  | some r =>
      if l.kind ≠ r.kind then
        if CardType.softTripleBomb.number ≤ l.kind.number ∧
            r.kind.number < CardType.softTripleBomb.number then
          .result (some 1)
        else if l.kind.number < CardType.softTripleBomb.number ∧
            CardType.softTripleBomb.number ≤ r.kind.number then
          .result (some (-1))
        else if CardType.softTripleBomb.number ≤ l.kind.number ∧
            CardType.softTripleBomb.number ≤ r.kind.number then
          .result (some (if r.kind.number < l.kind.number then 1 else -1))
        else if l.count ≠ r.count then
          .result none
        else
          .result (some (compareValues l.kind.number r.kind.number))
      else if l.count ≠ r.count then
        .result none
      else
        match l.value, r.value with
        | some left, some right => .result (some (compareValues left right))
        | _, _ => .error

/-! ### The table -/

inductive Status
  | free
  | play
deriving DecidableEq

structure LastDiscard extends Played where
  cards : List Int
  chair : Nat
  laiziReplace : Option (List Int)

/-- The table in the discard phase, every chair from 1 to `start_count` being taken. -/
structure Discards where
  status : Status
  curDiscardChair : Nat
  handCards : Nat → Multiset Int
  lastDiscard : Option LastDiscard
  firstDiscard : Bool
  discardTimes : Nat → Nat
  statisticsWin : Nat → Nat
  win : Nat → Bool
  bomb : Nat → Nat
  tripleBomb : Nat → Nat

def nextChair (c : DiscardConf) (s : Discards) : Nat :=
  Rotation.forward c.startCount s.curDiscardChair

/-- The first discard of a game has to show the five of spades. -/
def checkFirstDiscardsWith5 (c : DiscardConf) (s : Discards) (cards : List Int) : Bool :=
  c.play.all fun play => !(s.firstDiscard && play.firstDiscardWith5) || cards.contains 5

/-- The greatest value of a hand. -/
def handMaxValue (hand : Multiset Int) : WithBot Int := (hand.toFinset.image value).max

/-- With one kind of card left to the next player, a single card that opens a trick must
be the highest one. -/
def checkDiscardNextPlayerLastSingle (c : DiscardConf) (s : Discards) (kind : CardType)
    (v : Option Int) : Bool :=
  c.play.any fun play =>
    play.baoDanDiscardMax ∧ s.lastDiscard.isNone ∧
      (s.handCards (nextChair c s)).toFinset.card = 1 ∧ kind = .single ∧
      ∀ value_, v = some value_ → handMaxValue (s.handCards s.curDiscardChair) ≠ value_

def raise (counts : Nat → Nat) (chair : Nat) (on : Bool) : Nat → Nat :=
  if on then Function.update counts chair (counts chair + 1) else counts

/-- The removal loop: a card that is not there any more stops it with a Lua error. -/
def takeCards : Multiset Int → List Int → Multiset Int × Bool
  | hand, [] => (hand, true)
  | hand, card :: cards =>
      if card ∈ hand then takeCards (hand.erase card) cards else (hand, false)

/-- The state changes of an accepted discard before the removal loop. -/
def discarded (s : Discards) (chair : Nat) (cards : List Int) (laiziReplace : Option (List Int))
    (kind : CardType) (v : Option Int) : Discards :=
  { s with
    lastDiscard := some ⟨⟨kind, cards.length, v⟩, cards, chair, laiziReplace⟩
    firstDiscard := false
    discardTimes := raise s.discardTimes chair true }

def doActionDiscard (c : DiscardConf) (s : Discards) (chair : Nat) (cards : List Int)
    (laiziReplace : Option (List Int)) : Reply Discards :=
  if s.status ≠ .play then
    .refused s
  else if chair ≠ s.curDiscardChair then
    .refused s
  else if ¬ cards.all fun card => card ∈ s.handCards chair then
    .refused s
  else
    match getCardsType c cards laiziReplace with
    | none => .refused s
    | some (kind, v) =>
        match compareCards ⟨kind, cards.length, v⟩ (s.lastDiscard.map LastDiscard.toPlayed) with
        | .error => .failed s
        | .result cmp =>
            if notGreater cmp then
              .refused s
            else if !checkFirstDiscardsWith5 c s cards ||
                checkDiscardNextPlayerLastSingle c s kind v then
              .refused s
            else
              let taken := takeCards (s.handCards chair) cards
              let t := { discarded s chair cards laiziReplace kind v with
                handCards := Function.update s.handCards chair taken.1 }
              if taken.2 = false then
                .failed t
              else if taken.1.card = 0 then
                .over { t with
                  win := Function.update t.win chair true
                  statisticsWin := raise t.statisticsWin chair true
                  bomb := raise t.bomb chair (CardType.softBomb.number ≤ kind.number)
                  tripleBomb := raise t.tripleBomb chair
                    (kind.number < CardType.softBomb.number ∧
                      CardType.softTripleBomb.number ≤ kind.number) }
              else
                .next { t with curDiscardChair := nextChair c t }

/-! ### The cards are kept -/

def hands (s : Discards) (chair : Nat) : Multiset Int := s.handCards chair

/-- One of the checks of `do_action_discard` refuses the list, or its comparison stops. -/
def Refuses (c : DiscardConf) (s : Discards) (chair : Nat) (cards : List Int)
    (laiziReplace : Option (List Int)) : Prop :=
  s.status ≠ .play ∨ chair ≠ s.curDiscardChair ∨ (∃ card, card ∈ cards ∧ card ∉ s.handCards chair) ∨
    ∀ kind v, getCardsType c cards laiziReplace = some (kind, v) → ∀ cmp,
      compareCards ⟨kind, cards.length, v⟩ (s.lastDiscard.map LastDiscard.toPlayed) = .result cmp →
        notGreater cmp = true ∨ (!checkFirstDiscardsWith5 c s cards ||
          checkDiscardNextPlayerLastSingle c s kind v) = true

theorem takeCards_of_le {hand : Multiset Int} {cards : List Int} (le : (cards : Multiset Int) ≤ hand) :
    takeCards hand cards = (hand - cards, true) := by
  induction cards generalizing hand with
  | nil =>
      rw [takeCards, Multiset.coe_nil, Multiset.sub_zero]
  | cons card cards ih =>
      rw [← Multiset.cons_coe] at le ⊢
      have held : card ∈ hand := Multiset.mem_of_le le (Multiset.mem_cons_self _ _)
      have rest : (cards : Multiset Int) ≤ hand.erase card := by
        rw [← Multiset.cons_erase held] at le
        exact (Multiset.cons_le_cons_iff card).1 le
      rw [takeCards, if_pos held, ih rest, Multiset.sub_cons]

theorem takeCards_stops {hand : Multiset Int} {cards : List Int}
    (more : ¬ (cards : Multiset Int) ≤ hand) : (takeCards hand cards).2 = false := by
  induction cards generalizing hand with
  | nil => exact absurd (Multiset.zero_le hand) more
  | cons card cards ih =>
      unfold takeCards
      split
      · rename_i held
        apply ih
        intro le
        apply more
        rw [← Multiset.cons_coe, ← Multiset.cons_erase held]
        exact Multiset.cons_le_cons card le
      · rfl

theorem takeCards_card_le (hand : Multiset Int) (cards : List Int) :
    (takeCards hand cards).1.card ≤ hand.card := by
  induction cards generalizing hand with
  | nil => exact Nat.le_refl _
  | cons card cards ih =>
      unfold takeCards
      split
      · exact Nat.le_trans (ih _) (Multiset.card_le_card (Multiset.erase_le _ _))
      · exact Nat.le_refl _

theorem coe_le_iff_count {cards : List Int} {hand : Multiset Int} :
    (cards : Multiset Int) ≤ hand ↔ ∀ card, cards.count card ≤ hand.count card := by
  rw [Multiset.le_iff_count]
  simp only [Multiset.coe_count]

/-- A loop that stops has already taken the first card. -/
theorem takeCards_ne {hand : Multiset Int} {cards : List Int}
    (held : ∀ card, card ∈ cards → card ∈ hand) (more : ¬ (cards : Multiset Int) ≤ hand) :
    (takeCards hand cards).1 ≠ hand := by
  cases cards with
  | nil => exact absurd (Multiset.zero_le hand) more
  | cons card cards =>
      have first := held card List.mem_cons_self
      rw [takeCards, if_pos first]
      intro same
      have le := takeCards_card_le (hand.erase card) cards
      rw [same] at le
      exact absurd (Multiset.card_erase_lt_of_mem first) (Nat.not_lt.2 le)

/-- The cards are kept unless a list with more copies of a card than the player has passes
all checks. -/
theorem discard_conserves_iff (c : DiscardConf) (s : Discards) (chair : Nat) (cards : List Int)
    (laiziReplace : Option (List Int)) :
    Conserves hands s chair cards (doActionDiscard c s chair cards laiziReplace) ↔
      (∀ card, cards.count card ≤ (s.handCards chair).count card) ∨
        Refuses c s chair cards laiziReplace := by
  unfold doActionDiscard
  refine conserves_check_iff Iff.rfl fun _ => ?_
  refine conserves_check_iff Iff.rfl fun _ => ?_
  refine conserves_check_iff (by simp) fun none_missing => ?_
  have held : ∀ card, card ∈ cards → card ∈ s.handCards chair := by
    simpa using none_missing
  cases typed : getCardsType c cards laiziReplace with
  | none => exact iff_of_true rfl (.inr (by simp))
  | some found =>
      obtain ⟨kind, v⟩ := found
      rw [forall_found_iff]
      dsimp only
      cases compared : compareCards ⟨kind, cards.length, v⟩
          (s.lastDiscard.map LastDiscard.toPlayed) with
      | error => exact iff_of_true rfl (.inr (by simp))
      | result cmp =>
          have told : ∀ asked : Option Int → Prop,
              (∀ cmp', Compare.result cmp = .result cmp' → asked cmp') ↔ asked cmp := by
            simp
          rw [told]
          refine conserves_check_iff Iff.rfl fun _ => ?_
          refine conserves_last_check_iff fun _ => ?_
          rw [← coe_le_iff_count]
          by_cases le : (cards : Multiset Int) ≤ s.handCards chair
          · refine iff_of_true ?_ le
            rw [takeCards_of_le le, if_neg Bool.noConfusion]
            split <;> exact ⟨le, rfl⟩
          · refine iff_of_false ?_ le
            rw [if_pos (takeCards_stops le)]
            intro same
            apply takeCards_ne held le
            have hand := congrArg (fun t => t.handCards chair) same
            simpa using hand

end FkServer.PdkSc
