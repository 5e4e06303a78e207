import FkServer.Library.Rotation
import FkServer.Library.Runs
import FkServer.MaajanNanchong.Table
import FkServer.MaajanXuezhan.Handlers

/-!
The handlers of `maajan_table` of `maajan_nanchong` from the deal to the settlement.
The random numbers of a request are `rnd`; trustee timers send the same requests as
clients do. The book-keeping of waiting actions and the order of the answers are those
of `maajan_xuezhan` to the letter and are taken from there.
-/
namespace FkServer.MaajanNanchong

open Rotation (seek forward)
open MaajanXuezhan (Action Section Waiting checkTile isActionGang collect checkActionBeforeDo setDone
  sortAnswers claimsSettled)

/-! ### Small updates -/

def doneLastAction (s : State) (chair : Nat) (action : Option (Action × Nat)) : State :=
  { s with player := fun i =>
      { s.player i with lastAction := if i = chair then action else none } }

def cleanGzh (s : State) (chair : Nat) : State :=
  s.update chair fun p => { p with gzh := fun _ => none }

def cleanGsp (s : State) (chair : Nat) : State :=
  s.update chair fun p => { p with gsp := fun _ => false }

def setGzhOnPass (c : Conf) (s : State) (chair tile : Nat) : State :=
  let fans := tingFans c s (s.player chair) chair (s.chuPaiPlayerIndex = chair)
  match fans.lookup tile with
  | none => s
  | some blockFan => s.update chair fun p =>
      { p with gzh := fun t =>
          match fans.lookup t with
          | some fan => if fan ≤ blockFan then some fan else p.gzh t
          | none => p.gzh t }

def setGspOnPass (s : State) (chair tile : Nat) : State :=
  s.update chair fun p => { p with gsp := fun t => t = tile || p.gsp t }

/-- `do_balance`; the players keep what they hold. -/
def doBalance (s : State) : State := { s with fsm := .over }

/-- The chair that `next_player_index` finds; the search of the source ends at `from_`
itself at the latest. -/
def nextChair (c : Conf) (from_ : Nat) : Nat :=
  (seek (forward c.chairCount) c.seats.contains c.chairCount from_).getD from_

def nextPlayerIndex (c : Conf) (s : State) : State :=
  { doneLastAction s s.chuPaiPlayerIndex none with
    chuPaiPlayerIndex := nextChair c s.chuPaiPlayerIndex }

def jumpToPlayerIndex (s : State) (chair : Nat) : State :=
  { s with chuPaiPlayerIndex := chair }

/-- `chu_pai` -/
def chuPai (s : State) : State := { s with fsm := .waitChuPai }

/-- `baipai`: the player may lay cards out when a discard leaves ready tiles. -/
def baipai (c : Conf) (s : State) (chair : Nat) : State :=
  if (tingFull c (s.player chair)).isEmpty then chuPai s else { s with fsm := .waitBaiPai }

/-- The turn goes on with the lay-out where the rules know it, else with the discard. -/
def baipaiOrChuPai (c : Conf) (s : State) : State :=
  if c.play.baiPai && !s.chuPaiPlayer.baipai then baipai c s s.chuPaiPlayerIndex else chuPai s

/-- `on_mo_pai` -/
def onMoPai (s : State) (chair tile : Nat) : State :=
  { s with player := fun i =>
      if i = chair then
        { s.player i with moPai := some tile, moPaiCount := (s.player i).moPaiCount + 1 }
      else
        { s.player i with moPai := none } }

/-- `action_after_mo_pai` with the one player who may act. -/
def actionAfterMoPai (s : State) (actions : List (Action × Nat)) : State :=
  { s with
    sessionId := s.sessionId + 1
    fsm := .waitActionAfterMoPai ⟨s.chuPaiPlayerIndex, actions, s.sessionId + 1, none⟩ }

/-- What the player on turn is asked first. -/
def startTurn (c : Conf) (s : State) (actions : List (Action × Nat)) : State :=
  if actions.isEmpty then baipaiOrChuPai c s else actionAfterMoPai s actions

/-- The tile `tile` comes into the hand on turn. -/
def draw (s : State) (tile : Nat) (dealer : MaajanTileDealer) : State :=
  let s := { s with dealer := dealer, moPaiCount := s.moPaiCount + 1 }
  let s := onMoPai (s.update s.chuPaiPlayerIndex fun p => p.incr tile) s.chuPaiPlayerIndex tile
  s.update s.chuPaiPlayerIndex fun p =>
    { p with canDiscards := if p.baipai then some [tile] else p.canDiscards }

def moPai (c : Conf) (s : State) (rnd : Nat) : State :=
  let s := cleanGsp (cleanGzh s s.chuPaiPlayerIndex) s.chuPaiPlayerIndex
  match s.dealer.dealOne rnd with
  | none => doBalance s
  | some (tile, dealer) =>
      let s := draw s tile dealer
      startTurn c s (getActions c s s.chuPaiPlayerIndex (some tile) none false)

/-- The tile makes a gang of the triplet that lies there. -/
def Player.joinPeng (p : Player) (tile : Nat) (whoee : Option Nat) : Player :=
  { p.decr tile 1 with pai := { (p.decr tile 1).pai with
      mingPai := p.pai.mingPai.eraseP (Section.isPeng tile) ++ [meld .baGang tile whoee] } }

/-- `adjust_shou_pai` -/
def adjustShouPai (s : State) (chair : Nat) (action : Action) (tile : Nat) : State :=
  match action with
  | .anGang => s.update chair fun p => (p.decr tile 4).lay (meld .anGang tile none)
  | .mingGang => s.update chair fun p =>
      (p.decr tile 3).lay (meld .mingGang tile (some s.chuPaiPlayerIndex))
  | .peng => s.update chair fun p => (p.decr tile 2).lay (meld .peng tile (some s.chuPaiPlayerIndex))
  | .baGang =>
      match (s.player chair).pai.mingPai.find? (Section.isPeng tile) with
      | none => s
      | some sec => s.update chair fun p => p.joinPeng tile sec.whoee
  | _ => s

/-- `table.pop_back(chu_pai_player.pai.desk_tiles)` -/
def popDesk (s : State) : State :=
  s.update s.chuPaiPlayerIndex fun p =>
    { p with pai := { p.pai with deskTiles := p.pai.deskTiles.dropLast } }

/-! ### Declaring a ready hand and laying cards out -/

/-- A tile the player holds stands for the one drawn last. -/
def choiceFirstTurnMoPai (s : State) (rnd : Nat) : Option Nat :=
  let tiles := (List.range' 1 50).filter fun t => 0 < s.chuPaiPlayer.pai.shouPai t
  tiles[rnd % tiles.length]?

def actionAfterDingQue (c : Conf) (s : State) (rnd : Nat) : State :=
  let tile := choiceFirstTurnMoPai s rnd
  let s := s.update s.chuPaiPlayerIndex fun p => { p with moPai := tile }
  startTurn c s (getActionsFirstTurn c s s.chuPaiPlayerIndex tile)

def actionAfterBaoting (c : Conf) (s : State) : State :=
  startTurn c s (getActionsFirstTurn c s s.chuPaiPlayerIndex s.chuPaiPlayer.moPai)

/-- The answer to the ready tips is kept, with the tips when the hand is declared. -/
def Player.declare (p : Player) (baoting : Int) : Player :=
  { p with
    baoting := some (baoting = 1)
    baotingInfo := if baoting = 1 then p.baotingInfo else none }

def onBaoting (c : Conf) (s : State) (chair : Nat) (baoting : Int) : State :=
  match s.fsm with
  | .waitBaoTing =>
      if (s.player chair).baoting.isSome then
        s
      else
        let s := s.update chair fun p => p.declare baoting
        if c.seats.all fun i => (s.player i).baoting.isSome then
          actionAfterBaoting c (jumpToPlayerIndex s c.zhuang)
        else
          s
  | _ => s

/-- What `send_baoting_tips` announces: the dealer has a tile to discard first. -/
def baotingTips (c : Conf) (s : State) (chair : Nat) : Option BaotingInfo :=
  let p := s.player chair
  let current : Bool := s.chuPaiPlayerIndex = chair
  if chair = c.zhuang then
    let tings := tingFull c p
    if tings.isEmpty then none
    else some (.discards (tings.map fun d =>
      (d.1, d.2.map fun t => (t, huFanOf c s (p.decr d.1 1) chair current (some t) none false))))
  else
    let fans := tingFans c s p chair current
    if fans.isEmpty then none else some (.tiles fans)

def Player.tell (p : Player) (info : BaotingInfo) : Player := { p with baotingInfo := some info }

/-- `send_baoting_tips`: who cannot declare a ready hand is answered for. -/
def sendBaotingTips (c : Conf) (s : State) (chair : Nat) : State :=
  if c.play.baoJiao then
    let s := if chair = c.zhuang then onBaoting c s chair 0 else s
    match baotingTips c s chair with
    | some info => s.update chair fun p => p.tell info
    | none => onBaoting c s chair 0
  else
    s

def baoting (c : Conf) (s : State) : State :=
  c.seats.foldl (sendBaotingTips c) { s with fsm := .waitBaoTing }

def canBaiPai (p : Player) (cards : Option (List Nat)) : Bool :=
  cards.any fun cards =>
    (cards.all fun v => 0 < p.pai.shouPai v) &&
      !(Rule.cardsCanBai p.pai.toPai cards).1.isEmpty &&
      !(Rule.cardsCanBai p.pai.toPai cards).2.isEmpty

/-- The player with `cards` laid out. -/
def Player.layOut (p : Player) (cards : List Nat) : Player :=
  let r := Rule.cardsCanBai p.pai.toPai cards
  { p with
    baipai := true
    canDiscards := some r.1
    pai := { p.pai with baiPai := cards, baiTing := r.2 } }

def onBaipai (s : State) (chair : Nat) (baipai : Int) (cards : Option (List Nat)) : State :=
  if (s.player chair).baipai then
    s
  else if baipai = 1 ∧ canBaiPai (s.player chair) cards = false then
    s
  else
    let s := if baipai = 1 then s.update chair fun p => p.layOut (cards.getD []) else s
    chuPai (jumpToPlayerIndex s chair)

/-! ### Discards and claims -/

/-- What the discarder's own discard blocks for him. -/
def getSelfActionsAndSetPass (c : Conf) (s : State) (chair tile : Nat) : State :=
  if c.play.guoZhuangHu ∨ c.play.guoShouPeng then
    let actions := getActions c s chair none (some tile) false
    let offered := fun action => actions.any fun act => act.1 = action
    let s₁ :=
      if c.play.guoZhuangHu ∧ offered .hu then
        let s := setGzhOnPass c s chair tile
        match (s.player chair).lastPenghu with
        | none => s
        | some fan => s.update chair fun p =>
            { p with gzh := fun t => if t = tile then some fan else p.gzh t }
      else s
    if c.play.guoShouPeng ∧ offered .peng then setGspOnPass s₁ chair tile else s₁
  else
    s

/-- `on_chu_pai` -/
def onChuPai (s : State) (tile : Nat) : State :=
  { s with player := fun i =>
      if i = s.chuPaiPlayerIndex then
        { s.player i with chuPai := some tile, chuPaiCount := (s.player i).chuPaiCount + 1 }
      else
        { s.player i with chuPai := none } }

/-- The tile leaves the hand of the player on turn for the desk. -/
def discard (s : State) (tile : Nat) : State :=
  let s := onChuPai (s.update s.chuPaiPlayerIndex fun p => p.decr tile 1) tile
  s.update s.chuPaiPlayerIndex fun p =>
    { p with
      canDiscards := none
      pai := { p.pai with deskTiles := p.pai.deskTiles ++ [tile] } }

/-- What the discard `tile` offers to the others. -/
def claimOffers (c : Conf) (s : State) (tile : Nat) (i : Nat) : List (Action × Nat) :=
  if i = s.chuPaiPlayerIndex then [] else getActions c s i none (some tile) false

/-- The discarder is done with the discard. -/
def selfPassed (c : Conf) (s : State) (tile : Nat) : State :=
  (getSelfActionsAndSetPass c s s.chuPaiPlayerIndex tile).update s.chuPaiPlayerIndex fun p =>
    { p with lastPenghu := none }

def onActionChuPai (c : Conf) (s : State) (chair tile rnd : Nat) : State :=
  if s.chuPaiPlayerIndex ≠ chair ∨ checkTile tile = false ∨
      (s.player chair).pai.shouPai tile = 0 then
    s
  else
    let s := discard s tile
    let r := collect (claimOffers c s tile) c.seats s.sessionId
    let s := selfPassed c s tile
    if r.1.isEmpty then
      moPai c (nextPlayerIndex c s) rnd
    else
      { s with sessionId := r.2, fsm := .waitActionAfterChuPai (c.pairs r.1) }

/-- `check_all_pass` for one answer; `offered` is how the win was offered, `withPeng`
whether a pass on a triplet counts too. -/
def checkPass (c : Conf) (offered : Action) (withPeng : Bool) (tile : Nat) (s : State) (w : Waiting) :
    State :=
  if w.answered .pass then
    let s := if c.play.guoZhuangHu ∧ w.offers offered then setGzhOnPass c s w.chairId tile else s
    if withPeng ∧ c.play.guoShouPeng ∧ w.offers .peng then setGspOnPass s w.chairId tile else s
  else
    s

/-- `check_all_pass` after a discard. -/
def checkAllPass (c : Conf) (answers : List Waiting) (s : State) : State :=
  match s.chuPaiPlayer.chuPai with
  | none => s
  | some tile => answers.foldl (checkPass c .hu true tile) s

def lastActionIsCanPenghu (c : Conf) (s : State) (chair tile : Nat) (answers : List Waiting) :
    State :=
  let s := s.update chair fun p => { p with lastPenghu := none }
  if c.play.guoZhuangHu ∧ totalCount (s.player chair).pai.shouPai = 4 ∧
      (answers.any fun w => w.offers .hu) ∧ (answers.any fun w => w.offers .peng) then
    s.update chair fun p => { p with lastPenghu := some (huFan c s chair (some tile) none false) }
  else
    s

def doPeng (c : Conf) (s : State) (chair tile : Nat) (answers : List Waiting) : State :=
  let s := lastActionIsCanPenghu c (cleanGzh s chair) chair tile answers
  let s := checkAllPass c answers (adjustShouPai (popDesk s) chair .peng tile)
  doneLastAction (baipaiOrChuPai c (jumpToPlayerIndex s chair)) chair (some (.peng, tile))

def doMingGang (c : Conf) (s : State) (chair tile : Nat) (answers : List Waiting) (rnd : Nat) :
    State :=
  let s := checkAllPass c answers (adjustShouPai (popDesk (cleanGzh s chair)) chair .mingGang tile)
  doneLastAction (moPai c (jumpToPlayerIndex s chair) rnd) chair (some (.mingGang, tile))

/-- The answers are in, and the first of the sorted ones decides. -/
def resolveClaims (c : Conf) (s : State) (waiting : List Waiting) (rnd : Nat) : State :=
  let answers := sortAnswers (waiting.filter fun w => w.done.isSome)
  match answers with
  | [] => s
  | top :: _ =>
      match top.done with
      | none => s
      | some (action, tile) =>
          match action with
          | .peng => doPeng c s top.chairId tile answers
          | .mingGang => doMingGang c s top.chairId tile answers rnd
          | .hu => doBalance s
          | .pass => moPai c (nextPlayerIndex c (checkAllPass c answers s)) rnd
          | action => doneLastAction s top.chairId (some (action, tile))

/-- The waiting actions with one more answer, if it is one that was asked for. -/
def answer (waiting : List Waiting) (chair : Nat) (action : Action) (tile session : Nat) :
    List Waiting :=
  match checkActionBeforeDo waiting chair action tile session with
  | none => waiting
  | some _ => setDone waiting chair (action, tile)

def onActionAfterChuPai (c : Conf) (s : State) (waiting : List Waiting) (chair : Nat)
    (action : Action) (tile session rnd : Nat) : State :=
  let waiting := answer waiting chair action tile session
  if claimsSettled waiting then
    resolveClaims c s waiting rnd
  else
    { s with fsm := .waitActionAfterChuPai waiting }

/-! ### Own turn and robbed gangs -/

/-- What the added tile of a gang offers to the others. -/
def robOffers (c : Conf) (s : State) (chair tile i : Nat) : List (Action × Nat) :=
  if i = chair then
    []
  else
    ((getActions c s i none (some tile) true).filter fun act => act.1 = .hu).map
      fun act => (Action.qiangGangHu, act.2)

def onBaGang (c : Conf) (s : State) (chair tile rnd : Nat) : State :=
  let r := collect (robOffers c s chair tile) c.seats s.sessionId
  if r.1.isEmpty then
    let s := cleanGzh (adjustShouPai s chair .baGang tile) chair
    doneLastAction (moPai c (jumpToPlayerIndex s chair) rnd) chair (some (.baGang, tile))
  else
    { s with sessionId := r.2, fsm := .waitQiangGangHu tile (c.pairs r.1) }

def onAnGang (c : Conf) (s : State) (chair tile rnd : Nat) : State :=
  let s := adjustShouPai (cleanGzh s chair) chair .anGang tile
  doneLastAction (moPai c (jumpToPlayerIndex s chair) rnd) chair (some (.anGang, tile))

def onActionAfterMoPai (c : Conf) (s : State) (waiting : Waiting) (chair : Nat)
    (action : Action) (tile session rnd : Nat) : State :=
  match checkActionBeforeDo [waiting] chair action tile session with
  | none => s
  | some _ =>
      if chair ≠ s.chuPaiPlayerIndex then
        s
      else
        match action with
        | .baGang => onBaGang c s chair tile rnd
        | .anGang => onAnGang c s chair tile rnd
        | .ziMo => doBalance s
        | _ => baipaiOrChuPai c s

def resolveQiangGang (c : Conf) (s : State) (tile : Nat) (waiting : List Waiting) (rnd : Nat) :
    State :=
  let chair := s.chuPaiPlayerIndex
  if waiting.all fun w => w.answered .pass then
    let s := waiting.foldl (checkPass c .qiangGangHu false tile) s
    let s := cleanGzh (adjustShouPai s chair .baGang tile) chair
    moPai c (doneLastAction s chair (some (.baGang, tile))) rnd
  else
    doBalance s

def onActionQiangGangHu (c : Conf) (s : State) (robbed : Nat) (waiting : List Waiting)
    (chair : Nat) (action : Action) (tile session rnd : Nat) : State :=
  match checkActionBeforeDo waiting chair action tile session with
  | none => s
  | some _ =>
      let waiting := setDone waiting chair (action, tile)
      if waiting.all fun w => w.done.isSome then
        resolveQiangGang c s robbed waiting rnd
      else
        { s with fsm := .waitQiangGangHu robbed waiting }

/-- `reconnect`, as far as it changes the round: the tips are sent again, and the lay-out
is offered again, to the player who comes back. -/
def reconnect (c : Conf) (s : State) (chair : Nat) : State :=
  match s.fsm with
  | .waitBaoTing => c.seats.foldl (sendBaotingTips c) s
  | .waitBaiPai => baipai c s chair
  | _ => s

/-! ### The table as a state machine -/

/-- What a player may send. -/
inductive Msg
  | baoTing (baoting : Int)
  | baiPai (baipai : Int) (cards : Option (List Nat))
  | chuPai (tile : Nat)
  | doAction (action : Action) (tile session : Nat)
  | reconnect

structure Request where
  chair : Nat
  msg : Msg
  rnd : Nat

/-- The handler that the state of the table calls for a request. -/
def step (c : Conf) (s : State) (r : Request) : State :=
  if r.chair ∉ c.seats then
    s
  else
    match s.fsm, r.msg with
    | _, .reconnect => reconnect c s r.chair
    | .waitBaoTing, .baoTing baoting => onBaoting c s r.chair baoting
    | .waitBaiPai, .baiPai baipai cards => onBaipai s r.chair baipai cards
    | .waitChuPai, .chuPai tile => onActionChuPai c s r.chair tile r.rnd
    | .waitActionAfterMoPai waiting, .doAction action tile session =>
        if action ∈ [.anGang, .baGang, .pass, .ziMo] then
          onActionAfterMoPai c s waiting r.chair action tile session r.rnd
        else s
    | .waitActionAfterChuPai waiting, .doAction action tile session =>
        if action ∈ [.peng, .mingGang, .hu, .pass] then
          onActionAfterChuPai c s waiting r.chair action tile session r.rnd
        else s
    | .waitQiangGangHu robbed waiting, .doAction action tile session =>
        if action ∈ [.hu, .pass, .qiangGangHu] then
          onActionQiangGangHu c s robbed waiting r.chair action tile session r.rnd
        else s
    | _, _ => s

/-! ### The start of a round -/

def newPlayer : Player :=
  { pai := ⟨⟨fun _ => 0, [], [], none⟩, [], []⟩, lastAction := none, moPai := none, chuPai := none,
    moPaiCount := 0, chuPaiCount := 0, baoting := none, baotingInfo := none, baipai := false,
    canDiscards := none, gzh := fun _ => none, gsp := fun _ => false, lastPenghu := none }

/-- `deal_tiles` into the hand on `chair`; the number for a deal is the one that
stands at the number of tiles left. -/
def dealTiles (rnd : Nat → Nat) (chair : Nat) : Nat → State → Option State
  | 0, s => some s
  | n + 1, s =>
      match s.dealer.dealOne (rnd s.dealer.remainCount) with
      | none => none
      | some (tile, dealer) =>
          dealTiles rnd chair n ({ s with dealer := dealer }.update chair fun p => p.incr tile)

/-- `fake_mo_pai` -/
def fakeMoPai (rnd : Nat → Nat) (s : State) : Option State :=
  match s.dealer.dealOne (rnd s.dealer.remainCount) with
  | none => none
  | some (tile, dealer) =>
      some ({ s with dealer := dealer, moPaiCount := s.moPaiCount + 1 }.update
        s.chuPaiPlayerIndex fun p =>
          { p.incr tile with moPai := some tile, moPaiCount := p.moPaiCount + 1 })

def prepareTiles (c : Conf) (rnd : Nat → Nat) (s : State) : Option State :=
  (c.seats.foldlM (fun s chair => dealTiles rnd chair c.gameTileCount s) s).bind (fakeMoPai rnd)

/-- `on_started` from `pre_begin` on: the extra stakes of `piao_fen` are chosen before
and change no hand. The random numbers of the shuffle and of the deal are functions. -/
def onStarted (c : Conf) (shuffleRnd dealRnd : Nat → Nat) (rnd : Nat) : Option State :=
  let s : State :=
    { player := fun _ => newPlayer, fsm := .waitBaoTing, chuPaiPlayerIndex := c.zhuang,
      dealer := MaajanTileDealer.shuffle c.tiles shuffleRnd, moPaiCount := 0, sessionId := 0 }
  (prepareTiles c dealRnd s).map fun s =>
    if c.play.baoJiao then baoting c s else actionAfterDingQue c (jumpToPlayerIndex s c.zhuang) rnd

/-- The states of the rounds of a table with this configuration. -/
def Started (c : Conf) (s : State) : Prop :=
  ∃ shuffleRnd dealRnd rnd, onStarted c shuffleRnd dealRnd rnd = some s

def Steps (c : Conf) (s : State) (r : Request) (s' : State) : Prop := step c s r = s'

end FkServer.MaajanNanchong
