import FkServer.Common.MaajanTileDealer
import FkServer.MaajanXuezhan.HuTypes
import Mathlib.Algebra.GroupWithZero.Nat

/-!
The state of `maajan_table` during a round, and the functions by which it looks at
a hand: what a winning hand is worth, which tiles are waited for, which actions are
offered. Chairs are numbers; `self.players` is a function that only the seated
chairs of the configuration use.
-/
namespace FkServer.MaajanXuezhan

/-- The keys of `play_opt_conf`. -/
inductive PlayOption
  | siRenLiangFang
  | sanRenLiangFang
  | erRenSanFang
  | erRenLiangFang
  | erRenYiFang
deriving DecidableEq

/-- `rule.play`, as far as the round reads it. -/
structure RulePlay where
  siDui : Bool
  guoZhuangHu : Bool
  guoShouPeng : Bool
  dghDianPao : Bool
  ziMoJiaDi : Bool
  ziMoJiaFan : Bool
  tianDiHu : Bool
  huAtLeast2 : Bool
  daDuiZiFan2 : Bool
  jiaXin5 : Bool
  kaErTiao : Bool
  yaoJiu : Bool
  menQing : Bool
  kaWuTiao : Bool
  yiTiaoLong : Bool
  chaDaJiao : Bool
  chaXiaoJiao : Bool
  qingYiSeFan : Option Nat
  tileCount : Nat
  tileMen : Option Nat

/-- What `huan.count_option` and `huan.type_option` come to. -/
structure HuanConf where
  count : Nat
  type : Nat

/-- The tiles of the suits `mens`, each four times. -/
def suitTiles (mens : List Nat) : List Nat :=
  (List.replicate 4 (mens.flatMap fun men => List.range' (men * 10 + 1) 9)).flatten

/-- `all_tiles` -/
def allTiles (playerCount : Nat) : List Nat :=
  if playerCount = 2 then suitTiles [1, 2] else suitTiles [0, 1, 2]

/-- `get_all_tiles` of `get_play_conf` -/
def getAllTiles (playOpt : PlayOption) (opt : Option Nat) : List Nat :=
  match playOpt with
  | .siRenLiangFang | .sanRenLiangFang | .erRenLiangFang => suitTiles [1, 2]
  | .erRenSanFang => suitTiles [0, 1, 2]
  | .erRenYiFang =>
      match opt with
      | some 0 => suitTiles [0]
      | some 1 => suitTiles [1]
      | some 2 => suitTiles [2]
      | _ => allTiles 2

/-- `get_game_tile_count` of `get_play_conf` -/
def getGameTileCount (playOpt : PlayOption) (opt : Nat) : Nat :=
  match playOpt with
  | .siRenLiangFang | .erRenYiFang => opt
  | .sanRenLiangFang | .erRenSanFang | .erRenLiangFang => 13

/-- An entry of `waiting_actions` or `qiang_gang_actions`. -/
structure Waiting where
  chairId : Nat
  actions : List (Action × Nat)
  sessionId : Nat
  done : Option (Action × Nat)

/-- What a round is started with and does not change. `seats` are the keys of
`self.players` and `pairs` the entries of a new table of waiting actions, each in
the order in which Lua's `pairs` meets them. -/
structure Conf where
  chairCount : Nat
  seats : List Nat
  zhuang : Nat
  playOption : Option PlayOption
  play : RulePlay
  huan : Option HuanConf
  maxFan : Option Nat
  pairs : List Waiting → List Waiting
  chairs_le : chairCount ≤ 4
  seats_nodup : seats.Nodup
  seats_in : ∀ chair ∈ seats, 1 ≤ chair ∧ chair ≤ chairCount
  two_seats : 2 ≤ seats.length
  zhuang_in : zhuang ∈ seats
  pairs_perm : ∀ waiting, (pairs waiting).Perm waiting
  enough : seats.length * (playOption.elim 13 fun o => getGameTileCount o play.tileCount) <
    (playOption.elim (allTiles seats.length) fun o => getAllTiles o play.tileMen).length

namespace Conf

/-- `self.tiles` -/
def tiles (c : Conf) : List Nat :=
  c.playOption.elim (allTiles c.seats.length) fun o => getAllTiles o c.play.tileMen

/-- `self.game_tile_count` -/
def gameTileCount (c : Conf) : Nat :=
  c.playOption.elim 13 fun o => getGameTileCount o c.play.tileCount

/-- `self.start_count`: the round is started with all who are seated. -/
def startCount (c : Conf) : Nat := c.seats.length

/-! The seats 1 and 2 are fit for a table. -/

theorem chairs_le_two : 2 ≤ 4 := by decide

theorem seats_nodup_two : [1, 2].Nodup := by decide

theorem seats_in_two : ∀ chair ∈ [1, 2], 1 ≤ chair ∧ chair ≤ 2 := by decide

theorem two_seats_two : 2 ≤ [1, 2].length := by decide

theorem zhuang_in_two : 1 ∈ [1, 2] := by decide

end Conf

/-- `p.hu`; `zi_mo` is nil when a self-drawn win counts as the discarder's fault. -/
structure Hu where
  time : Nat
  tile : Nat
  types : Types
  ziMo : Option Bool
  whoee : Option Nat
  qiangGang : Bool

structure Player where
  pai : Pai
  hu : Option Hu
  lastAction : Option (Action × Nat)
  moPai : Option Nat
  chuPai : Option Nat
  moPaiCount : Nat
  chuPaiCount : Nat
  que : Option Nat
  firstMultiPao : Bool
  gzh : Nat → Option Nat
  gsp : Nat → Bool
  lastPenghu : Option Nat

/-- `cur_state_FSM` where the table waits, with the actions it waits for. After the
settlement it is nil in the source; `over` holds what the settlement came to. -/
inductive FSM
  | huanPai
  | dingQue
  | waitChuPai
  | waitActionAfterMoPai (waiting : Waiting)
  | waitActionAfterChuPai (waiting : List Waiting)
  | waitQiangGangHu (tile : Nat) (waiting : List Waiting)
  | over (scores : Nat → Int) (zhuang : Nat)

/-- The table. `clock` is the next value of `timer.nanotime`; `taken` keeps the tiles
which the source drops when a win takes them, and nothing reads it. -/
structure State where
  player : Nat → Player
  fsm : FSM
  chuPaiPlayerIndex : Nat
  dealer : MaajanTileDealer
  moPaiCount : Nat
  sessionId : Nat
  clock : Nat
  taken : List Nat

namespace State

def chuPaiPlayer (s : State) : Player := s.player s.chuPaiPlayerIndex

/-- Only the player on `chair` changes. -/
def update (s : State) (chair : Nat) (f : Player → Player) : State :=
  { s with player := alter s.player chair f }

@[simp] theorem update_self (s : State) (chair : Nat) (f : Player → Player) :
    (s.update chair f).player chair = f (s.player chair) :=
  alter_self _ _ _

theorem update_of_ne {s : State} {chair i : Nat} {f : Player → Player} (h : i ≠ chair) :
    (s.update chair f).player i = s.player i :=
  alter_of_ne h

end State

/-- `table.sum(self.players,function(p) return p.hu and 1 or 0 end)` -/
def huCount (c : Conf) (s : State) : Nat :=
  c.seats.countP fun chair => (s.player chair).hu.isSome

/-! ### What a hand is worth -/

/-- `types_fan`: the `fan` of one kind under the rules of the table. -/
def typesFan (c : Conf) (t : HuType) : Nat :=
  let erRenYiFang := c.playOption = some .erRenYiFang
  let daDuiZiFan := if c.play.daDuiZiFan2 then 2 else (huTypeInfo .daDuiZi).fan
  let qingYiSeFan :=
    if erRenYiFang then c.play.qingYiSeFan.getD 0 else (huTypeInfo .qingYiSe).fan
  match t with
  | .qingYiSe => qingYiSeFan
  | .qingDaDui => qingYiSeFan + daDuiZiFan
  | .daDuiZi => daDuiZiFan
  | .qingQiDui =>
      if erRenYiFang then qingYiSeFan + (huTypeInfo .qiDui).fan else (huTypeInfo .qingQiDui).fan
  | .qingLongBei =>
      if erRenYiFang then qingYiSeFan + (huTypeInfo .longQiDui).fan
      else (huTypeInfo .qingLongBei).fan
  | .qingSiDui => qingYiSeFan + (huTypeInfo .siDui).fan
  | .qingLongSiDui => qingYiSeFan + (huTypeInfo .longSiDui).fan
  | t => (huTypeInfo t).fan

/-- The second sum of `calc_types`. -/
def calcFan (c : Conf) (ts : Types) : Nat :=
  (ts.map fun tc => tc.2 * typesFan c tc.1).sum

/-- The first sum of `calc_types`. -/
def calcScore (ts : Types) : Nat :=
  (ts.map fun tc => (huTypeInfo tc.1).score * tc.2).sum

/-- `s2hu_type` -/
def sectionHuType : SectionType → Option HuType
  | .mingGang => some .mingGang
  | .anGang => some .anGang
  | .baGang => some .baGang
  | _ => none

def gangTypes (pai : Pai) : Types :=
  [HuType.mingGang, .anGang, .baGang].filterMap fun t =>
    let n := pai.mingPai.countP fun s => sectionHuType s.type = some t
    if n = 0 then none else some (t, n)

/-- `ts[t] = n` -/
def Types.set (ts : Types) (t : HuType) (n : Nat) : Types :=
  (t, n) :: ts.filter fun tc => tc.1 ≠ t

/-- The kinds `rule_hu_types` leaves out. -/
def leftOut (play : RulePlay) : HuType → Bool
  | .kaWuXing => !play.jiaXin5
  | .kaErTiao => !play.kaErTiao
  | .quanYaoJiu => !play.yaoJiu
  | .menQing | .duanYao => !play.menQing
  | .siDui | .qingSiDui | .longSiDui | .qingLongSiDui => !play.siDui
  | .kaWuTiao => !play.kaWuTiao
  | .yiTiaoLong => !play.yiTiaoLong
  | _ => false

def ruleHuTypes (c : Conf) (pai : Pai) (inPai moPai : Option Nat) : List Types :=
  (Rule.hu pai inPai moPai).map fun ones =>
    ones.foldl (fun ts tc =>
      if leftOut c.play tc.1 then
        ts
      else if tc.1 = .qingDaDui ∧ c.playOption = some .erRenYiFang then
        (ts.set .qingYiSe 1).set .daDuiZi 1
      else if tc.1 = .jiangDui ∧ c.play.yaoJiu = false then
        ts.set .daDuiZi tc.2
      else
        ts.set tc.1 tc.2) []

/-- The comparison by which `rule_hu` sorts. -/
def worthMore (c : Conf) (l r : Types) : Bool :=
  let cur := fun ts => calcScore ts + 2 ^ calcFan c ts
  if cur l = cur r then calcFan c r < calcFan c l else cur r < cur l

/-- `rule_hu`: the first of the sorted kinds. -/
def ruleHu (c : Conf) (pai : Pai) (inPai moPai : Option Nat) : Types :=
  match ruleHuTypes c pai inPai moPai with
  | [] => []
  | ts :: rest => rest.foldl (fun best ts => if worthMore c ts best then ts else best) ts

/-- `ext_hu`, for the player on `chair`. -/
def extHu (c : Conf) (s : State) (chair : Nat) (moPai : Option Nat) (qiangGang : Bool) : Types :=
  let p := s.player chair
  let discarderGang := s.chuPaiPlayer.lastAction.any fun act => isActionGang act.1
  let gangHua := s.chuPaiPlayerIndex = chair ∧ discarderGang = true
  let dgh := c.play.dghDianPao = true ∧ (p.lastAction.any fun act => act.1 = .mingGang) = true
  (if c.play.tianDiHu ∧ chair = c.zhuang ∧ moPai.isSome ∧ s.moPaiCount = 1 then
    [(.tianHu, 1)]
  else []) ++
  (if c.play.tianDiHu ∧ chair ≠ c.zhuang ∧ p.moPaiCount ≤ 1 ∧ p.chuPaiCount = 0 ∧
      p.pai.mingPai.length = 0 then
    [(.diHu, 1)]
  else []) ++
  (if s.dealer.remainCount = 0 then [(.haiDiLaoYue, 1)] else []) ++
  (if gangHua ∧ ¬ dgh then [(.gangShangHua, 1)] else []) ++
  (if moPai.isSome ∧ ¬ (gangHua ∧ dgh) ∧ c.play.ziMoJiaFan then [(.ziMo, 1)] else []) ++
  (if gangHua ∧ dgh ∨ s.chuPaiPlayerIndex ≠ chair ∧ discarderGang = true then
    [(.gangShangPao, 1)]
  else []) ++
  (if qiangGang then [(.qiangGangHu, 1)] else [])

/-- `maajan_table:hu` -/
def hu (c : Conf) (s : State) (chair : Nat) (inPai moPai : Option Nat) (qiangGang : Bool) : Types :=
  (ruleHu c (s.player chair).pai inPai moPai).merge (extHu c s chair moPai qiangGang)

/-- The first value of `hu_fan`. -/
def huFan (c : Conf) (s : State) (chair : Nat) (inPai moPai : Option Nat) (qiangGang : Bool) : Nat :=
  calcFan c ((hu c s chair inPai moPai qiangGang).merge (gangTypes (s.player chair).pai))

/-! ### Ready tiles and offered actions -/

/-- No tile of the suit given up is left in the hand. -/
def isQue (p : Player) : Bool :=
  p.que.all fun men => Rule.menCount p.pai.shouPai men = 0

def ting (c : Conf) (p : Player) : List Nat :=
  if isQue p then
    (Rule.tingTiles p.pai c.play.siDui).filter fun tile => p.que.all fun men => tileMen tile ≠ men
  else
    []

def canHu (c : Conf) (s : State) (chair : Nat) (inPai : Nat) (qiangGang : Bool) : Bool :=
  let isHu := Rule.isHu (s.player chair).pai (some inPai) c.play.siDui
  match c.playOption with
  | none | some .siRenLiangFang | some .erRenYiFang => isHu
  | _ =>
      if c.play.huAtLeast2 then 0 < huFan c s chair (some inPai) none qiangGang else isHu

/-- `mj_util.get_actions` -/
def paiActions (pai : Pai) (moPai inPai : Option Nat) (siDui : Bool) : List (Action × Nat) :=
  let peng := fun tile => pai.mingPai.any fun s => s.tile = tile ∧ s.type = .peng
  (match moPai with
  | none => []
  | some drawn =>
      (if peng drawn then [(Action.baGang, drawn)] else []) ++
      (((List.range' 1 50).filter fun t => 0 < pai.shouPai t ∧ peng t = true).map
        fun t => (.baGang, t)) ++
      ((List.range' 1 50).filter fun t => pai.shouPai t = 4).map fun t => (.anGang, t)) ++
  (match inPai with
  | none => []
  | some tile =>
      (if pai.shouPai tile = 3 then [(Action.mingGang, tile)] else []) ++
      (if 2 ≤ pai.shouPai tile then [(.peng, tile)] else []) ++
      (if Rule.isHu pai (some tile) siDui then [(.hu, tile)] else [])) ++
  (match moPai with
  | none => []
  | some drawn => if Rule.isHu pai none siDui then [(Action.ziMo, drawn)] else [])

/-- `mj_util.get_actions_first_turn` -/
def paiActionsFirstTurn (pai : Pai) (moPai : Option Nat) (siDui : Bool) : List (Action × Nat) :=
  (((List.range' 1 50).filter fun t => pai.shouPai t = 4).map fun t => (Action.anGang, t)) ++
  (if Rule.isHu pai none siDui then moPai.toList.map fun drawn => (Action.ziMo, drawn) else [])

/-- Whether the suit given up and the tiles left of it allow an action. -/
def queAllows (p : Player) (act : Action × Nat) : Bool :=
  (p.que.all fun men => tileMen act.2 ≠ men) &&
    (isQue p || decide (act.1 ≠ .hu ∧ act.1 ≠ .ziMo))

def getActionsFirstTurn (c : Conf) (s : State) (chair : Nat) (moPai : Option Nat) :
    List (Action × Nat) :=
  let p := s.player chair
  (paiActionsFirstTurn p.pai moPai c.play.siDui).filter (queAllows p)

/-- A win that the player passed up, at no more than `fan`, is blocked. -/
def gzhBlocks (c : Conf) (s : State) (chair : Nat) (moPai inPai : Option Nat)
    (qiangGang : Bool) : Bool :=
  inPai.any fun tile => ((s.player chair).gzh tile).any fun fan =>
    huFan c s chair inPai moPai qiangGang ≤ fan

def getActions (c : Conf) (s : State) (chair : Nat) (moPai inPai : Option Nat)
    (qiangGang : Bool) : List (Action × Nat) :=
  let p := s.player chair
  (paiActions p.pai moPai inPai c.play.siDui).filter fun act =>
    queAllows p act &&
    (match act.1 with
    | .hu =>
        !gzhBlocks c s chair moPai inPai qiangGang &&
          inPai.all fun tile => canHu c s chair tile qiangGang
    | .peng => !(inPai.any fun tile => p.gsp tile && p.gsp act.2)
    | .anGang | .mingGang | .baGang => s.dealer.remainCount ≠ 0
    | _ => true)

end FkServer.MaajanXuezhan
