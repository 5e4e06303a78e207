import FkServer.Library.Rotation
import FkServer.Zhajinhua.Showdown

/-!
A round of `zhajinhua_table`: the antes, the turns with their actions and timers, the comparisons
and the balance. Requests, timers and those who sit down to watch come in any order; each is handled
under the lock of the table. What is only sent to clients or logged is left out.
-/
namespace FkServer.Zhajinhua

/-- `ACTION` -/
inductive Action
  | addScore
  | lookCards
  | drop
  | allIn
  | compare
  | follow
deriving DecidableEq

/-- `waiting_actions[chair]` -/
abbrev Actions := Action → Bool

/-- The rule of a table and a round that is dealt. `gamers` is the order of `pairs`. -/
structure Round where
  chairCount : Nat
  gamers : List Nat
  hand : Nat → Hand
  /-- What `ding_zhuang` returns. -/
  banker : Nat
  play : Option Play
  baseScore : Int
  baseMenScore : Option Int
  chipScore : List Int
  /-- `get_men_turn_count` -/
  menTurnCount : Nat
  /-- `get_max_round` -/
  maxRound : Nat
  canAddScoreInMenTurns : Bool
  doubleCompare : Bool
  bonusBaoZi : Bool
  bonusShunjin : Bool
  /-- `is_check_money_limit` -/
  moneyLimit : Bool
  /-- Whether `get_trustee_conf` has a type. -/
  trustee : Bool
  trusteeDrop : Bool
  trusteeFollow : Bool
  oldMoney : Nat → Int
  /-- `score_money`, by the rate of the union. -/
  scoreMoney : Int → Int
  /-- The whole part of `money_score`. -/
  moneyScore : Int → Int
  chairs : gamers.Nodup
  seated : ∀ i ∈ gamers, i ∈ Rotation.places chairCount
  two : 2 ≤ gamers.length
  banks : banker ∈ Rotation.places chairCount
  disjoint : ∀ i ∈ gamers, ∀ j ∈ gamers, i ≠ j → ∀ card ∈ (hand i).cards, card ∉ (hand j).cards

/-- The `PLAYER_STATUS` of a gamer. -/
inductive PlayerStatus
  | wait
  | drop
  | lose
deriving DecidableEq

structure Player where
  betScore : Int
  betScores : List Int
  remainScore : Int
  remainMoney : Int
  allIn : Bool
  death : Bool
  isLookCards : Bool
  gameStatus : PlayerStatus

namespace Player

/-- `not p.death and not p.all_in` -/
def live (p : Player) : Bool := !p.death && !p.allIn

/-- What `fake_cost_money` and `player_bet` do to a player. -/
def pay (p : Player) (c : Round) (score : Int) : Player :=
  { p with
    remainMoney := p.remainMoney - c.scoreMoney score
    remainScore := p.remainScore - score
    betScore := p.betScore + score
    betScores := p.betScores ++ [score] }

def betAll (p : Player) : Player := { p with allIn := true }

def look (p : Player) : Player := { p with isLookCards := true }

def out (p : Player) (status : PlayerStatus) : Player :=
  { p with death := true, gameStatus := status }

end Player

/-- What `wait_compare_animate` calls when its time is over. -/
inductive AfterCompare
  | nextTurn
  | gameBalance
deriving DecidableEq

/-- The scores of `game_balance`. -/
structure Balance where
  winner : Nat
  scores : Nat → Int

/-- A table with a round. -/
structure State where
  /-- Whether `game_status` is `PLAY`; it is `FREE` otherwise. -/
  playing : Bool
  curChair : Nat
  betRound : Nat
  roundTurnCount : Nat
  allScore : Int
  lastScore : Int
  deskScores : List Int
  /-- The one entry of `waiting_actions`, if it has any. -/
  waitingActions : Option (Nat × Actions)
  /-- The player and the actions of the function of `clock_timer`. -/
  clockTimer : Option (Nat × Actions)
  compareWaitingTimer : Option AfterCompare
  player : Nat → Player
  /-- Those who sit at the table without playing. -/
  watchers : List Nat
  balance : Option Balance

/-- What becomes of a request: it is done, it is answered with an error, or a Lua error ends it
halfway. -/
inductive Reply
  | done
  | refused
  | raised
deriving DecidableEq

namespace State

def alter (s : State) (i : Nat) (f : Player → Player) : State :=
  { s with player := Function.update s.player i (f (s.player i)) }

/-- `fake_cost_money` and `player_bet` -/
def pay (s : State) (c : Round) (i : Nat) (score : Int) : State :=
  { s.alter i fun p => p.pay c score with
    deskScores := s.deskScores ++ [score]
    allScore := s.allScore + score }

/-- `clear_action`, `cancel_clock_timer` and `cancel_action_timer` -/
def clear (s : State) : State := { s with waitingActions := none, clockTimer := none }

/-- `cur_chair` and `last_score` of a turn, doubled for a player who has looked. -/
def turnScore (s : State) (i : Nat) : Int :=
  if (s.player i).isLookCards then s.lastScore * 2 else s.lastScore

/-- `check_player_action` -/
def checkPlayerAction (s : State) (i : Nat) (action : Action) : Bool :=
  s.playing && s.curChair = i && s.waitingActions.any fun w => w.1 = i && w.2 action

end State

namespace Round

variable (c : Round) (lua : LuaSort)

def maxScore : Int := (c.chipScore.max?.getD 1) * c.baseScore

/-- `check_player_money_leak` -/
def checkPlayerMoneyLeak (p : Player) (score : Int) : Bool :=
  c.moneyLimit && decide (p.remainScore ≤ score)

/-- `guard_score` -/
def guardScore (p : Player) (score : Int) : Int :=
  if c.moneyLimit then min (max score 0) (max p.remainScore 0) else score

def getPlayerActions (s : State) (i : Nat) : Actions
  | .addScore => !c.checkPlayerMoneyLeak (s.player i) (s.turnScore i) &&
      decide (s.lastScore < c.maxScore) &&
      (c.canAddScoreInMenTurns || decide (c.menTurnCount < s.betRound))
  | .lookCards => !(s.player i).isLookCards && decide (c.menTurnCount < s.betRound)
  | .drop => decide (c.menTurnCount < s.betRound)
  | .allIn => c.checkPlayerMoneyLeak (s.player i) (s.turnScore i) && !(s.player i).allIn
  | .compare => decide (max 1 c.menTurnCount < s.betRound) &&
      !c.checkPlayerMoneyLeak (s.player i) (s.turnScore i)
  | .follow => !c.checkPlayerMoneyLeak (s.player i) (s.turnScore i)

def startPlayerTurn (s : State) (i : Nat) : State :=
  let actions := c.getPlayerActions s i
  { s with
    waitingActions := some (i, actions)
    clockTimer := if c.trustee then some (i, actions) else s.clockTimer }

/-- The gamers who are neither out nor all in. -/
def liveGamers (s : State) : List Nat := c.gamers.filter fun i => (s.player i).live

/-- The loop of `first_turn` and `next_turn`, from a chair to the next one that is live; it gives
up when it is back. -/
def liveAfter (s : State) (chair : Nat) : Option Nat :=
  (Rotation.seek (Rotation.forward c.chairCount) (fun at_chair =>
    at_chair = chair || c.gamers.contains at_chair && (s.player at_chair).live) c.chairCount
    chair).filter (· ≠ chair)

/-! ### The balance -/

/-- The gamers as the showdowns see them. -/
def gamer (s : State) (i : Nat) : Gamer :=
  ⟨i, c.hand i, (s.player i).allIn, (s.player i).death⟩

def table (s : State) : Table where
  gamers := c.gamers.map (c.gamer s)
  play := c.play
  chairs := by
    rw [List.map_map]
    exact (List.map_id _).symm ▸ c.chairs
  disjoint := by
    refine List.pairwise_map.2 (c.chairs.imp_of_mem fun {i j} mem mem' differ => ?_)
    exact c.disjoint i mem j mem' differ

/-- `balance_bonus` of one option. -/
def bonus (option : Bool) (kind : CardsKind) (winner i : Nat) : Int :=
  if option && (c.hand winner).type.type = kind then
    if i = winner then 5 * (c.gamers.countP (· ≠ winner) : Int) else -5
  else 0

def balanceBonus (winner i : Nat) : Int :=
  c.bonus c.bonusShunjin .shunJin winner i + c.bonus c.bonusBaoZi .baoZi winner i

/-- The scores of `game_balance`. -/
def scores (s : State) (winner i : Nat) : Int :=
  (if i = winner then s.allScore - (s.player winner).betScore else -(s.player i).betScore) +
    c.balanceBonus winner i

/-- The scores are noted, and those above zero are handed out. -/
def settle (s : State) (winner : Nat) : State :=
  { s with
    player := fun i =>
      if c.gamers.contains i && 0 < c.scores s winner i then
        { s.player i with remainScore := (s.player i).remainScore + c.scores s winner i }
      else s.player i
    balance := some ⟨winner, c.scores s winner⟩ }

/-- `game_balance`; without a winner it takes the first gamer who is not out. -/
def gameBalance (s : State) (winner : Option Nat) : State × Reply :=
  let s := { s with clockTimer := none, compareWaitingTimer := none, playing := false }
  match winner.or (c.gamers.find? fun i => !(s.player i).death) with
  | none => (s, .raised)
  | some winner => (c.settle s winner, .done)

/-! ### Turns -/

/-- `next_round`, and whether the turn goes on. -/
def nextRound (s : State) : (State × Reply) × Bool :=
  let showdown := fun s : State =>
    (c.gameBalance s (((c.table s).compareEachOther lua).map Gamer.chair), false)
  if s.betRound ≤ c.maxRound then
    if (c.liveGamers s).length ≤ s.roundTurnCount then
      let s := { s with roundTurnCount := 0, betRound := s.betRound + 1 }
      if c.maxRound < s.betRound then showdown s else ((s, .done), true)
    else ((s, .done), true)
  else showdown s

def nextTurn (s : State) : State × Reply :=
  match c.liveAfter s s.curChair with
  | none => (s, .done)
  | some chair =>
      let next := c.nextRound lua { s with
        curChair := chair, roundTurnCount := s.roundTurnCount + 1 }
      if next.2 then (c.startPlayerTurn next.1.1 chair, .done) else next.1

def isEnd (s : State) : Bool := (c.liveGamers s).length = 1

/-- A player leaves the betting, and the round ends or the turn goes on. -/
def dropOut (s : State) (i : Nat) (status : PlayerStatus) : State × Reply :=
  let s := s.alter i fun p => p.out status
  if c.isEnd s then c.gameBalance s none else c.nextTurn lua s

/-- The lines with which `follow`, `all_in` and `add_score` end for a player who is all in. -/
def allInShowdown (s : State) (i : Nat) : State × Reply :=
  let s := s.alter i Player.betAll
  if (c.table s).compareWithAll (c.gamer s i) then c.gameBalance s (some i)
  else c.dropOut lua s i (s.player i).gameStatus

/-! ### Requests -/

/-- Whether a request is that of a gamer whose action is waited for. -/
def accepts (s : State) (i : Nat) (action : Action) : Bool :=
  c.gamers.contains i && s.checkPlayerAction i action

def follow (s : State) (i : Nat) : State × Reply :=
  if !c.accepts s i .follow then (s, .refused)
  else
    let score := s.turnScore i
    let isAllIn := c.checkPlayerMoneyLeak (s.player i) score
    let score := if isAllIn then c.guardScore (s.player i) score else score
    let s := s.clear.pay c i score
    if isAllIn then c.allInShowdown lua s i else c.nextTurn lua s

def allIn (s : State) (i : Nat) : State × Reply :=
  if !c.accepts s i .allIn then (s, .refused)
  else c.allInShowdown lua (s.clear.pay c i (c.guardScore (s.player i) s.lastScore)) i

def addScore (s : State) (i : Nat) (score : Int) : State × Reply :=
  if !c.accepts s i .addScore then (s, .refused)
  else if score < 0 || (s.player i).allIn || (s.player i).death || c.maxScore < score then
    (s, .refused)
  else
    let scoreAdd := if (s.player i).isLookCards then score * 2 else score
    if c.checkPlayerMoneyLeak (s.player i) scoreAdd then
      let scoreAdd := c.guardScore (s.player i) scoreAdd
      c.allInShowdown lua ({ s.clear with lastScore := score }.pay c i scoreAdd) i
    -- the actions and the timer are gone by now
    else if score < s.lastScore then (s.clear, .refused)
    else c.nextTurn lua ({ s.clear with lastScore := score }.pay c i scoreAdd)

def giveUp (s : State) (i : Nat) : State × Reply :=
  if !c.accepts s i .drop then (s, .refused)
  else if (s.player i).death then (s, .refused)
  else c.dropOut lua s.clear i .drop

def lookCard (s : State) (i : Nat) : State × Reply :=
  if !c.accepts s i .lookCards then (s, .refused)
  else (c.startPlayerTurn (s.clear.alter i Player.look) i, .done)

/-- What a comparison costs. -/
def compareScore (s : State) (i : Nat) : Int :=
  if c.doubleCompare then s.turnScore i * 2 else s.turnScore i

def compare (s : State) (i compareWith : Nat) : State × Reply :=
  if !c.accepts s i .compare then (s, .refused)
  else if !c.gamers.contains compareWith && !s.watchers.contains compareWith then (s, .refused)
  else if !(s.player i).live ||
      c.gamers.contains compareWith && !(s.player compareWith).live then (s, .refused)
  else
    let s := s.clear.pay c i (c.compareScore s i)
    -- one who watches has no `cards_type`
    if !c.gamers.contains compareWith then (s, .raised)
    else
      let isWin := comparePlayer c.play (c.hand i).type (c.hand compareWith).type false false
      let s := s.alter (if isWin then compareWith else i) fun p => p.out .lose
      ({ s with
        compareWaitingTimer := some (if c.isEnd s then .gameBalance else .nextTurn) }, .done)

/-- The function of `clock_timer`. -/
def autoAction (s : State) (i : Nat) (actions : Actions) : State × Reply :=
  if actions .drop && c.trusteeDrop || !actions .follow then c.giveUp lua s i
  else if actions .follow && c.trusteeFollow || !actions .drop then c.follow lua s i
  else (s, .done)

/-- What can happen at a table. -/
inductive Request
  | follow (chair : Nat)
  | allIn (chair : Nat)
  | addScore (chair : Nat) (score : Int)
  | giveUp (chair : Nat)
  | lookCard (chair : Nat)
  | compare (chair compareWith : Nat)
  | clock
  | animated
  | sitDown (chair : Nat)
  | standUp (chair : Nat)
deriving DecidableEq

def step (s : State) : Request → State × Reply
  | .follow i => c.follow lua s i
  | .allIn i => c.allIn lua s i
  | .addScore i score => c.addScore lua s i score
  | .giveUp i => c.giveUp lua s i
  | .lookCard i => c.lookCard s i
  | .compare i compareWith => c.compare s i compareWith
  | .clock =>
      match s.clockTimer with
      | none => (s, .done)
      | some (i, actions) => c.autoAction lua { s with clockTimer := none } i actions
  | .animated =>
      match s.compareWaitingTimer with
      | none => (s, .done)
      | some .nextTurn => c.nextTurn lua { s with compareWaitingTimer := none }
      | some .gameBalance => c.gameBalance { s with compareWaitingTimer := none } none
  | .sitDown i =>
      if c.gamers.contains i || s.watchers.contains i then (s, .refused)
      else ({ s with watchers := i :: s.watchers }, .done)
  | .standUp i =>
      if !s.watchers.contains i then (s, .refused)
      else ({ s with watchers := s.watchers.filter (· ≠ i) }, .done)

/-! ### The start -/

/-- The gamers as `on_started` sets them up. -/
def fresh (watchers : List Nat) : State where
  playing := true
  curChair := 1
  betRound := 1
  roundTurnCount := 0
  allScore := 0
  lastScore := c.baseScore
  deskScores := []
  waitingActions := none
  clockTimer := none
  compareWaitingTimer := none
  player i := ⟨0, [], c.moneyScore (c.oldMoney i), c.oldMoney i, false, false, false, .wait⟩
  watchers := watchers.filter fun i => !c.gamers.contains i
  balance := none

/-- `bet_base_score` -/
def betBaseScore (s : State) : State :=
  c.gamers.foldl (fun s i =>
    s.pay c i (c.guardScore (s.player i) (c.baseMenScore.getD c.baseScore))) s

/-- `first_turn` -/
def firstTurn (s : State) : State :=
  match c.liveAfter s c.banker with
  | none => s
  | some chair => c.startPlayerTurn { s with curChair := chair } chair

/-- `on_started` -/
def onStarted (watchers : List Nat) : State := c.firstTurn (c.betBaseScore (c.fresh watchers))

/-- The states of a round after some requests. -/
def run (watchers : List Nat) (requests : List Request) : State :=
  requests.foldl (fun s r => (c.step lua s r).1) (c.onStarted watchers)

end Round
end FkServer.Zhajinhua
