import FkServer.Common.CardDealer
import FkServer.Library.Rotation
import Mathlib.Data.Finset.Card
import Mathlib.Data.List.MinMax
import Mathlib.Logic.Function.Basic

/-!
`land_table` up to the first discard: the deal and the bidding for the landlord, in
points or by calling. The players sit on the chairs from 1 on. A handler that
answers with an error changes nothing.
-/
namespace FkServer.Land

/-- What a round is started with. `pairs` is the order in which Lua meets the entries
of `landlord_competitions`. -/
structure Conf where
  startCount : Nat
  callLandlord : Bool
  sanDaMustCall : Bool
  competeFirst : Nat
  pairs : List (Nat × Int) → List (Nat × Int)
  players : startCount = 2 ∨ startCount = 3
  first_in : 1 ≤ competeFirst ∧ competeFirst ≤ startCount
  pairs_perm : ∀ entries, (pairs entries).Perm entries

/-- `all_cards[self.start_count]`, the same for two and for three players. -/
def allCards : List Nat :=
  ([0, 20, 40, 60].flatMap fun color => List.range' (color + 3) 13) ++ [96, 97]

inductive Status
  | competeLandlord
  | play
deriving DecidableEq

/-- `hand_cards` are sets, because every card is there once. `landlordCompete` is the
list of accepted actions in `game_log`. -/
structure State where
  status : Status
  handCards : Nat → Finset Nat
  landlordCards : List Nat
  curCompeter : Option Nat
  lastLandlordCometition : Option Int
  landlordCompetitions : Nat → Option Int
  beginCompetitionNormal : Option Nat
  landlordSwap : Option Nat
  baseScore : Int
  multi : Nat
  landlord : Option Nat
  landlordCompete : List (Nat × Int)

def Conf.chairs (c : Conf) : List Nat := List.range' 1 c.startCount

/-! ### The deal -/

def dealHands : List Nat → CardDealer → (Nat → Finset Nat) → (Nat → Finset Nat) × CardDealer
  | [], dealer, hands => (hands, dealer)
  | chair :: chairs, dealer, hands =>
      let dealt := dealer.dealCards 17
      dealHands chairs dealt.2 (Function.update hands chair dealt.1.toFinset)

/-- `do_game_start` with the random numbers of the shuffle. -/
def doGameStart (c : Conf) (rnd : Nat → Nat) : State :=
  let dealer := (CardDealer.new allCards).shuffle rnd
  let dealt := dealHands c.chairs dealer fun _ => ∅
  { status := .competeLandlord
    handCards := dealt.1
    landlordCards := (dealt.2.dealCards 3).1
    curCompeter := some c.competeFirst
    lastLandlordCometition := none
    landlordCompetitions := fun _ => none
    beginCompetitionNormal := none
    landlordSwap := none
    baseScore := 1
    multi := 0
    landlord := none
    landlordCompete := [] }

/-! ### Bidding -/

/-- The jokers and twos of a hand. -/
def daSum (s : State) (chair : Nat) : Nat :=
  ((s.handCards chair).filter fun c => c = 96 ∨ c = 97 ∨ c % 20 = 15).card

/-- Whether a player has to call with such a hand. -/
def mustCall (c : Conf) (s : State) (chair : Nat) : Bool :=
  c.sanDaMustCall && decide (3 ≤ daSum s chair)

/-- Who the loop of `next_landlord_competer` stops at. -/
def competes (c : Conf) (s : State) (chair : Nat) : Bool :=
  c.chairs.contains chair &&
    (s.beginCompetitionNormal.isNone || s.landlordCompetitions chair ≠ some (-4))

def nextLandlordCompeter (c : Conf) (s : State) (cur : Nat) : Option State :=
  (Rotation.seek (Rotation.forward c.startCount) (competes c s) c.startCount cur).map fun chair =>
    { s with curCompeter := some chair }

def onCompeteLandlordOver (s : State) (landlord : Option Nat) : State :=
  { s with
    status := .play
    curCompeter := none
    lastLandlordCometition := none
    landlordCompetitions := fun _ => none
    landlordSwap := none
    landlord := landlord
    handCards := match landlord with
      | none => s.handCards
      | some chair => Function.update s.handCards chair
          (s.handCards chair ∪ s.landlordCards.toFinset) }

/-- The action is written down. -/
def record (s : State) (chair : Nat) (action : Int) : State :=
  { s with
    landlordCompete := s.landlordCompete ++ [(chair, action)]
    landlordCompetitions := Function.update s.landlordCompetitions chair (some action)
    lastLandlordCometition := some action }

def allCompeted (c : Conf) (s : State) : Bool :=
  c.chairs.all fun chair => (s.landlordCompetitions chair).isSome

/-- The first greatest entry of `landlord_competitions`. -/
def maxCompetition (c : Conf) (s : State) : Option (Nat × Int) :=
  letI : Preorder Int := Int.instLinearOrder.toPartialOrder.toPreorder
  (c.pairs (c.chairs.filterMap fun chair =>
    (s.landlordCompetitions chair).map fun action => (chair, action))).argmax Prod.snd

/-- What an action of the bidder on turn leads to. -/
inductive Outcome
  /-- An error reply. -/
  | refused
  /-- The search for the next bidder never ends. -/
  | endless
  | next (s : State)

def refusesScore (c : Conf) (s : State) (chair : Nat) (action : Int) : Bool :=
  s.lastLandlordCometition.any fun last =>
    (last < 0 ∧ last ≠ -4 ∨ action < 0 ∧ action ≠ -4) ∨
      (action ≤ last ∧ action ≠ -4) ∨
      (mustCall c s chair = true ∧ action ≠ 3)

def goOn (c : Conf) (s : State) (chair : Nat) : Outcome :=
  match nextLandlordCompeter c s chair with
  | none => .endless
  | some s => .next s

/-- An accepted action in points mode, before anybody else is put on turn. -/
def scored (s : State) (chair : Nat) (action : Int) : State :=
  { record s chair action with baseScore := if 0 < action then action else s.baseScore }

def doCompeteLandlordScore (c : Conf) (s : State) (chair : Nat) (action : Int)
    (rnd : Nat → Nat) : Outcome :=
  if refusesScore c s chair action then
    .refused
  else if (scored s chair action).baseScore = 3 then
    .next (onCompeteLandlordOver (scored s chair action) s.curCompeter)
  else if allCompeted c (scored s chair action) then
    if (maxCompetition c (scored s chair action)).map Prod.snd = some (-4) then
      .next (doGameStart c rnd)
    else
      .next (onCompeteLandlordOver (scored s chair action)
        ((maxCompetition c (scored s chair action)).map Prod.fst))
  else
    goOn c (scored s chair action) chair

def refusesNormal (c : Conf) (s : State) (chair : Nat) (action : Int) : Bool :=
  s.lastLandlordCometition.any fun last =>
    (0 < last ∨ 0 < action) ∨
      (last = -2 ∧ action ≠ -1 ∧ action ≠ -3) ∨
      (mustCall c s chair = true ∧ action ≠ -2 ∧ s.beginCompetitionNormal = none)

/-- How many players have called or robbed last. -/
def allCall (c : Conf) (s : State) : Nat :=
  c.chairs.countP fun chair =>
    s.landlordCompetitions chair = some (-2) ∨ s.landlordCompetitions chair = some (-1)

/-- An accepted action in calling mode, before anybody else is put on turn. -/
def called (s : State) (chair : Nat) (action : Int) : State :=
  { record s chair action with
    multi := if action = -1 then s.multi + 1 else s.multi
    landlordSwap := if action = -1 ∨ action = -2 then some chair else s.landlordSwap
    beginCompetitionNormal := if action = -2 then some chair else s.beginCompetitionNormal }

def doCompeteLandlordNormal (c : Conf) (s : State) (chair : Nat) (action : Int)
    (rnd : Nat → Nat) : Outcome :=
  if refusesNormal c s chair action then
    .refused
  else if allCompeted c (called s chair action) then
    if c.chairs.all fun i => (called s chair action).landlordCompetitions i = some (-4) then
      .next (doGameStart c rnd)
    else if (called s chair action).beginCompetitionNormal = some chair ∨
        allCall c (called s chair action) = 1 then
      .next (onCompeteLandlordOver (called s chair action) (called s chair action).landlordSwap)
    else
      goOn c (called s chair action) chair
  else
    goOn c (called s chair action) chair

/-- A client's action; `none` is a message without one. -/
def doCompeteLandlord (c : Conf) (s : State) (chair : Nat) (action : Option Int)
    (rnd : Nat → Nat) : Outcome :=
  if s.curCompeter ≠ some chair then
    .refused
  else
    match action with
    | none => .refused
    | some action =>
        if action < -4 ∨ 3 < action then
          .refused
        else if c.callLandlord then
          doCompeteLandlordNormal c s chair action rnd
        else
          doCompeteLandlordScore c s chair action rnd

/-! ### The automatic action -/

/-- `auto_call_action` -/
def autoCallAction (callLandlord : Bool) (last : Int) : Option Int :=
  if callLandlord then
    if last = -4 then some (-4) else if last = -3 ∨ last = -2 ∨ last = -1 then some (-3) else none
  else
    if last = -4 then some (-4) else if last = 1 ∨ last = 2 then some 3
    else if last = 3 then some (-4) else none

/-- `auto_must_call_action` -/
def autoMustCallAction (callLandlord : Bool) (last : Int) : Option Int :=
  if callLandlord then
    if last = -4 then some (-2) else if last = -3 ∨ last = -2 ∨ last = -1 then some (-3) else none
  else
    if last = -4 ∨ last = -3 ∨ last = -2 ∨ last = -1 then some 3 else none

/-- What the timer of a bidder does for him. -/
def autoAction (c : Conf) (s : State) (chair : Nat) : Option Int :=
  let last := s.lastLandlordCometition.getD (-4)
  if mustCall c s chair then autoMustCallAction c.callLandlord last
  else autoCallAction c.callLandlord last

/-! ### Runs -/

structure Request where
  chair : Nat
  action : Option Int
  rnd : Nat → Nat

def step (c : Conf) (s : State) (r : Request) : Outcome :=
  doCompeteLandlord c s r.chair r.action r.rnd

/-- A refused request changes nothing and is no step. -/
def Steps (c : Conf) (s : State) (r : Request) (s' : State) : Prop := step c s r = .next s'

def Started (c : Conf) (s : State) : Prop := ∃ rnd, s = doGameStart c rnd

end FkServer.Land
