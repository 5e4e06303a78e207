import FkServer.Common.MaajanTileDealer
import FkServer.MaajanNanchong.Rule
import FkServer.MaajanXuezhan.Table

/-!
The state of `maajan_table` of `maajan_nanchong` during a round, and the functions by
which it looks at a hand: what a winning hand is worth, which tiles are waited for,
which actions are offered. Chairs are numbers; `self.players` is a function that only
the seated chairs of the configuration use. Nobody gives a suit up in this game, so
`que` is nil and its tests are left out.
-/
namespace FkServer.MaajanNanchong

open MaajanXuezhan (Action PlayOption Section SectionType Waiting isActionGang suitTiles paiActions
  paiActionsFirstTurn sectionHuType)

/-- `rule.play`, as far as the round reads it. -/
structure RulePlay where
  siDui : Bool
  guoZhuangHu : Bool
  guoShouPeng : Bool
  dghDianPao : Bool
  ziMoJiaFan : Bool
  tianHu : Bool
  diHu : Bool
  huAtLeast2 : Bool
  daDuiZiFan2 : Bool
  kaXinWu : Bool
  queYiMen : Bool
  kaErTiao : Bool
  yaoJiu : Bool
  menQing : Bool
  yiTiaoLong : Bool
  qiangGang : Bool
  baoJiao : Bool
  baiPai : Bool
  boZiMo : Bool
  qingYiSeFan : Option Nat
  tileCount : Nat
  tileMen : Option Nat

/-- `get_all_tiles` of `get_play_conf`; every other list holds the three suits. -/
def getAllTiles (playOpt : PlayOption) (opt : Option Nat) : List Nat :=
  match playOpt, opt with
  | .erRenYiFang, some 0 => suitTiles [0]
  | .erRenYiFang, some 1 => suitTiles [1]
  | .erRenYiFang, some 2 => suitTiles [2]
  | _, _ => suitTiles [0, 1, 2]

/-- `get_game_tile_count` of `get_play_conf` -/
def getGameTileCount (playOpt : PlayOption) (opt : Nat) : Nat :=
  match playOpt with
  | .siRenLiangFang | .erRenYiFang => opt
  | .sanRenLiangFang | .erRenSanFang | .erRenLiangFang => 13

/-- What a round is started with and does not change. `seats` are the keys of
`self.players` and `pairs` the entries of a new table of waiting actions, each in
the order in which Lua's `pairs` meets them. `tile_count` is that of a hand one tile short
of two, three or four melds and a pair. -/
structure Conf where
  chairCount : Nat
  seats : List Nat
  zhuang : Nat
  playOption : Option PlayOption
  play : RulePlay
  pairs : List Waiting → List Waiting
  chairs_le : chairCount ≤ 4
  seats_nodup : seats.Nodup
  seats_in : ∀ chair ∈ seats, 1 ≤ chair ∧ chair ≤ chairCount
  two_seats : 2 ≤ seats.length
  zhuang_in : zhuang ∈ seats
  pairs_perm : ∀ waiting, (pairs waiting).Perm waiting
  hand_size : (playOption.elim 13 fun o => getGameTileCount o play.tileCount) ∈ [7, 10, 13]
  enough : seats.length * (playOption.elim 13 fun o => getGameTileCount o play.tileCount) <
    (playOption.elim (suitTiles [0, 1, 2]) fun o => getAllTiles o play.tileMen).length

namespace Conf

/-- `self.tiles` -/
def tiles (c : Conf) : List Nat :=
  c.playOption.elim (suitTiles [0, 1, 2]) fun o => getAllTiles o c.play.tileMen

/-- `self.game_tile_count` -/
def gameTileCount (c : Conf) : Nat :=
  c.playOption.elim 13 fun o => getGameTileCount o c.play.tileCount

theorem gameTileCount_size (c : Conf) : c.gameTileCount % 3 = 1 ∧ c.gameTileCount ≤ 13 := by
  have sizes : ∀ n ∈ [7, 10, 13], n % 3 = 1 ∧ n ≤ 13 := by decide
  exact sizes _ c.hand_size

end Conf

/-- `pai`, with the cards laid out and the tiles they wait for. -/
structure Pai extends MaajanXuezhan.Pai where
  baiPai : List Nat
  baiTing : List Nat

/-- `baotingInfo`: the ready tiles with what they are worth, for the dealer under the
discard that leaves them. -/
inductive BaotingInfo
  | tiles (info : List (Nat × Nat))
  | discards (info : List (Nat × List (Nat × Nat)))

/-- A player. `baoting` is nil until the player has answered; `baipai` is true or nil. -/
structure Player where
  pai : Pai
  lastAction : Option (Action × Nat)
  moPai : Option Nat
  chuPai : Option Nat
  moPaiCount : Nat
  chuPaiCount : Nat
  baoting : Option Bool
  baotingInfo : Option BaotingInfo
  baipai : Bool
  canDiscards : Option (List Nat)
  gzh : Nat → Option Nat
  gsp : Nat → Bool
  lastPenghu : Option Nat

/-- `cur_state_FSM` where the table waits, with the actions it waits for. The first win
is settled at once and ends the round; after the settlement the state is nil. -/
inductive FSM
  | waitBaoTing
  | waitBaiPai
  | waitChuPai
  | waitActionAfterMoPai (waiting : Waiting)
  | waitActionAfterChuPai (waiting : List Waiting)
  | waitQiangGangHu (tile : Nat) (waiting : List Waiting)
  | over

/-- The table. While the round runs nobody has won, so that `p.hu` is nil. -/
structure State where
  player : Nat → Player
  fsm : FSM
  chuPaiPlayerIndex : Nat
  dealer : MaajanTileDealer
  moPaiCount : Nat
  sessionId : Nat

namespace State

def chuPaiPlayer (s : State) : Player := s.player s.chuPaiPlayerIndex

/-- Only the player on `chair` changes. -/
def update (s : State) (chair : Nat) (f : Player → Player) : State :=
  { s with player := alter s.player chair f }

@[simp] theorem update_self (s : State) (chair : Nat) (f : Player → Player) :
    (s.update chair f).player chair = f (s.player chair) :=
  alter_self _ _ _

theorem update_of_ne {s : State} {chair i : Nat} {f : Player → Player} (h : i ≠ chair) :
    (s.update chair f).player i = s.player i :=
  alter_of_ne h

end State

/-! ### What a hand is worth -/

/-- `types_fan`: the `fan` of one kind under the rules of the table. -/
def typesFan (c : Conf) (t : HuType) : Nat :=
  let erRenYiFang := c.playOption = some .erRenYiFang
  let daDuiZiFan := if c.play.daDuiZiFan2 then 2 else (huTypeInfo .daDuiZi).fan
  let qingYiSeFan :=
    if erRenYiFang then c.play.qingYiSeFan.getD 0 else (huTypeInfo .qingYiSe).fan
  match t with
  | .qingYiSe => qingYiSeFan
  | .qingDaDui => qingYiSeFan + daDuiZiFan
  | .daDuiZi => daDuiZiFan
  | .qingQiDui =>
      if erRenYiFang then qingYiSeFan + (huTypeInfo .qiDui).fan else (huTypeInfo .qingQiDui).fan
  | .qingLongBei =>
      if erRenYiFang then qingYiSeFan + (huTypeInfo .longQiDui).fan
      else (huTypeInfo .qingLongBei).fan
  | .qingSiDui => qingYiSeFan + (huTypeInfo .siDui).fan
  | .qingLongSiDui => qingYiSeFan + (huTypeInfo .longSiDui).fan
  | t => (huTypeInfo t).fan

/-- The second sum of `calc_types`. -/
def calcFan (c : Conf) (ts : Types) : Nat :=
  (ts.map fun tc => tc.2 * typesFan c tc.1).sum

/-- The first sum of `calc_types`. -/
def calcScore (ts : Types) : Nat :=
  (ts.map fun tc => (huTypeInfo tc.1).score * tc.2).sum

/-- `gang_types` -/
def gangTypes (pai : MaajanXuezhan.Pai) : Types :=
  [(SectionType.mingGang, HuType.mingGang), (.anGang, .anGang), (.baGang, .baGang)].filterMap
    fun st =>
      let n := pai.mingPai.countP fun s => s.type = st.1
      if n = 0 then none else some (st.2, n)

/-- The kinds `rule_hu_types` leaves out. -/
def leftOut (play : RulePlay) : HuType → Bool
  | .kaWuXing => !play.kaXinWu
  | .queYiMen => !play.queYiMen
  | .kaErTiao => !play.kaErTiao
  | .quanYaoJiu => !play.yaoJiu
  | .qiangGangHu => !play.qiangGang
  | .menQing => !play.menQing
  | .siDui | .qingSiDui | .longSiDui | .qingLongSiDui => !play.siDui
  | .yiTiaoLong => !play.yiTiaoLong
  | _ => false

def ruleHuTypes (c : Conf) (pai : MaajanXuezhan.Pai) (inPai moPai : Option Nat) : List Types :=
  (Rule.hu pai inPai moPai).map fun ones =>
    ones.foldl (fun ts tc =>
      if leftOut c.play tc.1 then
        ts
      else if tc.1 = .qingDaDui ∧ c.playOption = some .erRenYiFang then
        (ts.set .qingYiSe 1).set .daDuiZi 1
      else if tc.1 = .jiangDui ∧ c.play.yaoJiu = false then
        ts.set .daDuiZi tc.2
      else
        ts.set tc.1 tc.2) []

/-- The comparison by which `rule_hu` sorts. -/
def worthMore (c : Conf) (l r : Types) : Bool :=
  let cur := fun ts => calcScore ts + 2 ^ calcFan c ts
  if cur l = cur r then calcFan c r < calcFan c l else cur r < cur l

/-- `rule_hu`: the first of the sorted kinds. -/
def ruleHu (c : Conf) (pai : MaajanXuezhan.Pai) (inPai moPai : Option Nat) : Types :=
  match ruleHuTypes c pai inPai moPai with
  | [] => []
  | ts :: rest => rest.foldl (fun best ts => if worthMore c ts best then ts else best) ts

/-- `ext_hu`, for the player on `chair`. `current` tells whether `p` is the very player
on turn: a copy of that player is not. -/
def extHu (c : Conf) (s : State) (p : Player) (chair : Nat) (current : Bool) (moPai : Option Nat)
    (qiangGang : Bool) : Types :=
  let discarderGang := s.chuPaiPlayer.lastAction.any fun act => isActionGang act.1
  let gangHua := current && discarderGang
  let dgh := c.play.dghDianPao && p.lastAction.any fun act => act.1 = .mingGang
  (if c.play.tianHu ∧ chair = c.zhuang ∧ moPai.isSome ∧ s.moPaiCount = 1 then
    [(.tianHu, 1)]
  else []) ++
  (if c.play.diHu ∧ chair ≠ c.zhuang ∧ p.moPaiCount ≤ 1 ∧ p.chuPaiCount = 0 ∧
      p.pai.mingPai.length = 0 then
    [(.diHu, 1)]
  else []) ++
  (if s.dealer.remainCount = 0 then
    [(if moPai.isSome then .haiDiLaoYue else .haiDiPao, 1)]
  else []) ++
  (if gangHua then [(if dgh then .gangShangPao else .gangShangHua, 1)] else []) ++
  (if moPai.isSome ∧ (gangHua && dgh) = false ∧ c.play.ziMoJiaFan then [(.ziMo, 1)] else []) ++
  (if !current && discarderGang then [(.gangShangPao, 1)] else []) ++
  (if qiangGang ∧ c.play.qiangGang then [(.qiangGangHu, 1)] else [])

/-- The first value of `hu_fan`, for `p` as `ext_hu` sees it. -/
def huFanOf (c : Conf) (s : State) (p : Player) (chair : Nat) (current : Bool)
    (inPai moPai : Option Nat) (qiangGang : Bool) : Nat :=
  calcFan c (((ruleHu c p.pai.toPai inPai moPai).merge
    (extHu c s p chair current moPai qiangGang)).merge (gangTypes p.pai.toPai))

/-- The first value of `hu_fan`, for the player on `chair`. -/
def huFan (c : Conf) (s : State) (chair : Nat) (inPai moPai : Option Nat) (qiangGang : Bool) :
    Nat :=
  huFanOf c s (s.player chair) chair (s.chuPaiPlayerIndex = chair) inPai moPai qiangGang

/-! ### Ready tiles -/

/-- `maajan_table:ting` -/
def ting (c : Conf) (p : Player) : List Nat := MaajanXuezhan.Rule.tingTiles p.pai.toPai c.play.siDui

/-- `maajan_table:ting_full`: the discards that leave ready tiles, with these. -/
def tingFull (c : Conf) (p : Player) : List (Nat × List Nat) :=
  (List.range' 1 50).filterMap fun discard =>
    (MaajanXuezhan.Rule.tingFull p.pai.toPai c.play.siDui discard).map fun tiles => (discard, tiles)

/-- `table.decr(player.pai.shou_pai,tile,n)` -/
def Player.decr (p : Player) (tile : Nat) (n : Int) : Player :=
  { p with pai := { p.pai with shouPai := FkServer.decr p.pai.shouPai tile n } }

/-- `table.incr(player.pai.shou_pai,tile)` -/
def Player.incr (p : Player) (tile : Nat) : Player :=
  { p with pai := { p.pai with shouPai := FkServer.incr p.pai.shouPai tile 1 } }

/-- A meld as `adjust_shou_pai` lays it; what only the settlement reads is left out. -/
def meld (type : SectionType) (tile : Nat) (whoee : Option Nat) : Section :=
  ⟨type, tile, whoee, none, none, 0⟩

def Player.lay (p : Player) (sec : Section) : Player :=
  { p with pai := { p.pai with mingPai := p.pai.mingPai ++ [sec] } }

/-- The ready tiles of `p` with what each is worth. -/
def tingFans (c : Conf) (s : State) (p : Player) (chair : Nat) (current : Bool) :
    List (Nat × Nat) :=
  (ting c p).map fun tile => (tile, huFanOf c s p chair current (some tile) none false)

/-- `get_baoting_maxfan` -/
def getBaotingMaxfan : Option BaotingInfo → Nat
  | none => 0
  | some (.tiles info) => (info.map Prod.snd).foldl max 0
  | some (.discards info) => (info.flatMap fun d => d.2.map Prod.snd).foldl max 0

/-- `is_baoting_can_gang`: whether a copy of the player with the gang laid is ready and
worth no less than what was announced. -/
def isBaotingCanGang (c : Conf) (s : State) (chair : Nat) (type : Action) (tile : Nat) : Bool :=
  let p := s.player chair
  let check := fun (p' : Player) =>
    let fans := tingFans c s p' chair false
    !fans.isEmpty && decide (getBaotingMaxfan p.baotingInfo ≤ getBaotingMaxfan (some (.tiles fans)))
  match type with
  | .anGang => check ((p.decr tile 4).lay (meld .anGang tile none))
  | .mingGang => check ((p.decr tile 3).lay (meld .mingGang tile (some s.chuPaiPlayerIndex)))
  | _ => true

/-! ### Offered actions -/

/-- The actions that offer a win. -/
def isWin (act : Action × Nat) : Bool := act.1 = .hu ∨ act.1 = .ziMo

/-- The gangs that a player may make on the own turn or of a discard. -/
def isGang (act : Action × Nat) : Bool := act.1 = .anGang ∨ act.1 = .mingGang ∨ act.1 = .baGang

def getActionsFirstTurn (c : Conf) (s : State) (chair : Nat) (moPai : Option Nat) :
    List (Action × Nat) :=
  let p := s.player chair
  let actions := paiActionsFirstTurn p.pai.toPai moPai c.play.siDui
  if p.baoting = some true then
    if actions.any isWin then
      actions.filter fun act => !isGang act
    else if actions.all fun act =>
        act.1 ≠ .anGang ∨ isBaotingCanGang c s chair .anGang act.2 = true then
      actions
    else
      actions.filter fun act => act.1 ≠ .anGang
  else
    actions

def canHu (c : Conf) (s : State) (chair : Nat) (inPai : Nat) (qiangGang : Bool) : Bool :=
  let isHu := MaajanXuezhan.Rule.isHu (s.player chair).pai.toPai (some inPai) c.play.siDui
  match c.playOption with
  | none | some .siRenLiangFang | some .erRenYiFang => isHu
  | _ =>
      if c.play.huAtLeast2 then 0 < huFan c s chair (some inPai) none qiangGang else isHu

/-- A win that the player passed up, at no more than `fan`, is blocked. -/
def gzhBlocks (c : Conf) (s : State) (chair : Nat) (moPai inPai : Option Nat)
    (qiangGang : Bool) : Bool :=
  inPai.any fun tile => ((s.player chair).gzh tile).any fun fan =>
    huFan c s chair inPai moPai qiangGang ≤ fan

/-- The filters of `get_actions` that hold for everybody. -/
def generalActions (c : Conf) (s : State) (chair : Nat) (moPai inPai : Option Nat)
    (qiangGang : Bool) : List (Action × Nat) :=
  let p := s.player chair
  (paiActions p.pai.toPai moPai inPai c.play.siDui).filter fun act =>
    match act.1 with
    | .hu =>
        !gzhBlocks c s chair moPai inPai qiangGang &&
          (inPai.all fun tile => canHu c s chair tile qiangGang) &&
          !(c.play.boZiMo && p.baoting = some true)
    | .peng => !(inPai.any fun tile => p.gsp tile && p.gsp act.2)
    | .anGang | .mingGang | .baGang => s.dealer.remainCount ≠ 0
    | _ => true

/-- What is left of the actions of a player who has declared a ready hand. -/
def baotingActions (c : Conf) (s : State) (chair : Nat) (moPai inPai : Option Nat)
    (actions : List (Action × Nat)) : List (Action × Nat) :=
  actions.filter fun act =>
    match act.1 with
    | .peng => false
    | .anGang =>
        !actions.any isWin && isBaotingCanGang c s chair .anGang act.2 &&
          moPai.all fun drawn => drawn = act.2
    | .mingGang =>
        !actions.any isWin && (inPai.isNone || isBaotingCanGang c s chair .mingGang act.2)
    | .baGang => !actions.any isWin
    | _ => true

/-- What is left of the actions of a player who has laid cards out. -/
def baipaiActions (p : Player) (moPai inPai : Option Nat) (actions : List (Action × Nat)) :
    List (Action × Nat) :=
  actions.filter fun act =>
    match act.1 with
    | .peng => false
    | .ziMo => moPai.all fun drawn => drawn ∈ p.pai.baiTing
    | .hu => inPai.all fun tile => tile ∈ p.pai.baiTing
    | _ => true

def getActions (c : Conf) (s : State) (chair : Nat) (moPai inPai : Option Nat)
    (qiangGang : Bool) : List (Action × Nat) :=
  let p := s.player chair
  let actions := generalActions c s chair moPai inPai qiangGang
  let actions :=
    if p.baoting = some true then baotingActions c s chair moPai inPai actions else actions
  if c.play.baiPai && p.baipai then baipaiActions p moPai inPai actions else actions

end FkServer.MaajanNanchong
