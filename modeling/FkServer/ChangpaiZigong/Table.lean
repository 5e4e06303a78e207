import FkServer.ChangpaiZigong.Rule
import FkServer.Library.EarlyExit

/-!
The table of `changpai_table`: what it keeps of the players, the actions it offers
(`changpai_util` and `get_actions`), and the parts its handlers share. Every seat from
1 to `start_count` is taken. A handler ends in the table it leaves; it stops early at a
Lua error and where `do_balance` ends the round.
-/
namespace FkServer.ChangpaiZigong

inductive FsmState
  | xiPai
  | waitMoPai
  | waitChuPai
  | waitActionAfterTianHu
  | waitActionAfterFirstFirstTouPai
  | waitActionAfterJinPai
  | waitActionAfterChuPai
  | waitActionAfterFanPai
  | waitQiangGangHu
  | waitBaoTing
  | gameOver
deriving DecidableEq

/-- What the clock timer does when it fires. -/
inductive Clock
  | faPai
  | fanPai
deriving DecidableEq

structure Player where
  pai : Pai
  moPai : Option Nat
  fanPai : Option Nat
  chuPai : Option Nat
  chuPaiCount : Nat
  gzh : Option Int
  gsp : List Nat
  gsc : List Nat
  baoting : Option Bool
  baoPai : Bool
  baoCard : Option Nat

/-- The actions offered to a player, each with the keys of its table; `chi` pairs the
card of the hand with the card to eat. No entry for an action is an empty list. -/
structure Actions where
  peng : List Nat
  tou : List Nat
  baGang : List Nat
  hu : List Nat
  tianHu : List Nat
  qiangGangHu : List Nat
  chi : List (Nat × Nat)

namespace Actions

def none : Actions := ⟨[], [], [], [], [], [], []⟩

def keys (a : Actions) : Action → List Nat
  | .peng => a.peng
  | .tou => a.tou
  | .baGang => a.baGang
  | .hu => a.hu
  | .tianHu => a.tianHu
  | .qiangGangHu => a.qiangGangHu
  | .chi => a.chi.map (·.1)
  | _ => []

/-- The actions a player may choose besides `PASS`. -/
def offered (a : Actions) : List Action :=
  [.peng, .tou, .baGang, .hu, .tianHu, .qiangGangHu, .chi].filter fun act => a.keys act ≠ []

def isEmpty (a : Actions) : Bool := a.offered.isEmpty

end Actions

/-- The message `CS_Changpai_Do_Action`. -/
structure Msg where
  action : Action
  valueTile : Option Int
  otherTile : Option Int
  sessionId : Option Nat
  isSure : Bool

/-- The place in a table a number of a message names; what is no positive number stands
for place 0, which is no card either. -/
def place (tile : Option Int) : Option Nat := tile.map Int.toNat

/-- `action.done` -/
structure Done where
  action : Action
  tile : Option Nat
  otherTile : Option Nat

/-- An entry of `waiting_actions`. -/
structure Offer where
  chair : Nat
  actions : Actions
  sessionId : Nat
  done : Option Done

/-- `qiang_gang_actions`: the card added to a section and the players who may rob it. -/
structure QiangGang where
  tile : Nat
  offers : List Offer

/-- `untaken` lists the flipped cards that nobody has taken, the last one first; the
source keeps only the last one, in `fan_pai`. The undealt wall is listed in the order
in which `deal_one` takes the cards. -/
structure Table where
  fsm : FsmState
  zhuang : Nat
  zhuangPai : Option Nat
  cur : Nat
  player : Nat → Player
  wall : List Nat
  qiePai : List Nat
  untaken : List Nat
  waitingActions : Option (List Offer)
  qiangGangActions : Option QiangGang
  sessionId : Nat
  clock : Option Clock

/-- A table whose handler may stop early. -/
abbrev Run := Except Table Table

/-- What the rounds of a table share. `huFan` is `hu_fan`, the fans a win would count, of
which the table only compares two; `firstHeld` is the order in which `pairs` walks a hand. -/
structure Conf where
  startCount : Nat
  two : 2 ≤ startCount
  four : startCount ≤ 4
  huFan : Pai → Bool → Nat → Option Nat → Int
  firstHeld : Counts → Option Nat
  firstHeld_some : ∀ counts t, firstHeld counts = some t → 0 < counts t
  firstHeld_none : ∀ counts, firstHeld counts = none → ∀ t, Card t → counts t ≤ 0

def chairs (c : Conf) : List Nat := List.range' 1 c.startCount

/-- The seat after `chair`, as the handlers compute `nest_user`. -/
def nestUser (c : Conf) (chair : Nat) : Nat :=
  if c.startCount < chair + 1 then (chair + 1) % c.startCount else chair + 1

namespace Table

def setPlayer (t : Table) (chair : Nat) (f : Player → Player) : Table :=
  { t with player := alter t.player chair f }

@[simp] theorem setPlayer_player (t : Table) (i j : Nat) (f : Player → Player) :
    (t.setPlayer i f).player j = if j = i then f (t.player j) else t.player j := rfl

@[simp] theorem setPlayer_cur (t : Table) (i : Nat) (f : Player → Player) :
    (t.setPlayer i f).cur = t.cur := rfl

def setPai (t : Table) (chair : Nat) (f : Pai → Pai) : Table :=
  t.setPlayer chair fun p => { p with pai := f p.pai }

@[simp] theorem setPai_player (t : Table) (i j : Nat) (f : Pai → Pai) :
    (t.setPai i f).player j =
      if j = i then { t.player j with pai := f (t.player j).pai } else t.player j := rfl

@[simp] theorem setPai_cur (t : Table) (i : Nat) (f : Pai → Pai) :
    (t.setPai i f).cur = t.cur := rfl

/-- `chu_pai_player` -/
def chuPaiPlayer (t : Table) : Player := t.player t.cur

/-- `do_balance`: the round is over. -/
def doBalance (t : Table) : Run := .error { t with fsm := .gameOver, clock := none }

def nextPlayerIndex (c : Conf) (t : Table) : Table :=
  { t with cur := t.cur % c.startCount + 1 }

/-- The table waits for the actions of these players. -/
def waitFor (t : Table) (l : List (Nat × Actions)) : Table :=
  { t with
    waitingActions := some (l.zipIdx.map fun e => ⟨e.1.1, e.1.2, t.sessionId + e.2 + 1, none⟩)
    sessionId := t.sessionId + l.length }

end Table

/-- The tile of a section that a fourth card can be added to. -/
def Section.three : Section → Option Nat
  | peng t | tou t => some t
  | _ => none

namespace Util

/-- `mj_util.get_actions` -/
def getActions (pai : Pai) (moPai inPai : Option Nat) (canEat isZhuang canBa : Bool) : Actions :=
  let counts := pai.shouPai
  let threes := pai.mingPai.filterMap Section.three
  let hu := Rule.isHu pai inPai isZhuang
  let onMo : Actions :=
    match moPai with
    | none => .none
    | some mo =>
        { Actions.none with
          baGang := threes.filter fun t => t = mo ∨ 0 < counts t
          tou := (List.range' 1 50).filter fun t => counts t = 4 ∨ counts t = 3
          hu := if hu then [mo] else [] }
  match inPai with
  | none => onMo
  | some tile =>
      { onMo with
        peng := if 2 ≤ counts tile then [tile] else []
        chi :=
          if canEat ∧ 1 < (counts2Tiles counts).length then
            ((List.range' 1 50).filter fun t =>
              0 < counts t ∧ tileValue t + tileValue tile = 14).map fun t => (t, tile)
          else []
        hu := onMo.hu ++ if hu then [tile] else []
        baGang := onMo.baGang ++ if canBa then threes.filter fun t => t = tile else [] }

/-- `mj_util.get_actions_first_turn`; a win without a card to name is a Lua error. -/
def getActionsFirstTurn (pai : Pai) (moPai : Option Nat) (isZhuang : Bool) : Option Actions :=
  let counts := pai.shouPai
  let threes := pai.mingPai.filterMap Section.three
  let actions : Actions :=
    { Actions.none with
      tou := (List.range' 1 50).filter fun t => 3 ≤ counts t
      baGang := threes.filter fun t => 0 < counts t }
  if Rule.isHu pai none isZhuang then
    moPai.map fun mo => { actions with hu := [mo] }
  else
    some actions

end Util

/-- `is_bao_pai` -/
def isBaoPai (p : Player) (inPai : Option Nat) : Bool :=
  inPai.any fun tile =>
    p.pai.mingPai.any (fun s => s.three = some tile ∨ (s = .chi tile tile ∧ tileIsChongfan tile)) ||
      2 ≤ p.pai.mingPai.countP fun
        | .chi t o => (t = tile ∨ o = tile) ∧ tileIsChongfan tile
        | _ => false

/-- After `othertile` is spent on eating `tile`, a card is left that may be discarded. -/
def chiLeaves (pai : Pai) (unusable : List Nat) (othertile tile : Nat) : Bool :=
  (List.range' 1 50).any fun key =>
    key ∉ unusable ∧ key ≠ tile ∧ 0 < decr pai.shouPai othertile 1 key

/-- What a player who has announced a win needs to take it. -/
def baotingAllows (pai : Pai) (inPai : Option Nat) (isZhuang : Bool) : Bool :=
  let tuonum := Rule.tuos pai inPai - (pai.mingPai.map fun
    | .tou tile => if Rule.isHong tile then (0 : Int) else 3
    | .baGang tile => if Rule.isHong tile then 0 else 4
    | _ => 0).sum
  ¬(Rule.tuos pai inPai < (if isZhuang then 16 else 14) ∧ 4 < tuonum)

/-- The card just flipped may be eaten although it was passed before, when the next
player makes it dear. -/
def chiAgain (c : Conf) (t : Table) (chair tile : Nat) : Bool :=
  t.cur = chair ∧ t.chuPaiPlayer.fanPai = some tile ∧
    isBaoPai (t.player (nestUser c t.cur)) t.chuPaiPlayer.fanPai

/-- `get_actions` -/
def getActions (c : Conf) (t : Table) (chair : Nat) (moPai inPai : Option Nat)
    (canEat canBa : Bool) : Actions :=
  let p := t.player chair
  let isZhuang : Bool := t.zhuang = chair
  let a := Util.getActions p.pai moPai inPai canEat isZhuang canBa
  let a := if Rule.isHu p.pai inPai isZhuang then a else { a with hu := [] }
  let a := { a with chi := a.chi.filter fun e =>
    p.pai.unUsecard.all fun unusable => chiLeaves p.pai unusable e.1 e.2 }
  let passed := p.gzh.any fun fans => c.huFan p.pai isZhuang p.chuPaiCount inPai ≤ fans
  let a := if (inPai.isSome ∨ moPai.isSome) ∧ passed then { a with hu := [] } else a
  let a := if inPai.any (· ∈ p.gsp) then { a with peng := a.peng.filter (· ∉ p.gsp) } else a
  let a :=
    if inPai.any fun tile => tile ∈ p.gsc ∧ ¬ chiAgain c t chair tile then
      { a with chi := a.chi.filter fun e => e.2 ∉ p.gsc }
    else a
  let a := if inPai.any fun tile => tileValue tile = 7 then { a with hu := [] } else a
  let a :=
    if p.baoting = some true then
      { a with
        peng := []
        chi := []
        tou := []
        hu := if baotingAllows p.pai inPai isZhuang then a.hu else [] }
    else a
  let a :=
    if t.wall.length < 5 then
      { a with baGang := [], hu := [], peng := [], chi := [], tou := [] }
    else a
  if isZhuang ∧ p.chuPaiCount = 0 then { a with tianHu := a.hu, hu := [] } else a

/-- `get_actions_first_turn` -/
def getActionsFirstTurn (t : Table) (chair : Nat) : Option Actions :=
  let p := t.player chair
  let isZhuang : Bool := t.zhuang = chair
  (Util.getActionsFirstTurn p.pai (if isZhuang then p.moPai else none) isZhuang).map fun a =>
    if isZhuang ∧ p.chuPaiCount = 0 then { a with tianHu := a.hu, hu := [] } else a

end FkServer.ChangpaiZigong
