import FkServer.Library.Rotation
import FkServer.Library.Runs
import FkServer.MaajanXuezhan.Settlement

/-!
The handlers of `maajan_table` from the deal to the settlement. A handler returns
`none` where the source would search for ever or raise an error. The random numbers
of a request are `rnd`; trustee timers send the same requests as clients do.
-/
namespace FkServer.MaajanXuezhan

open Rotation (seek forward backward)

/-! ### Small updates -/

def Player.withShouPai (p : Player) (f : Counts → Counts) : Player :=
  { p with pai := { p.pai with shouPai := f p.pai.shouPai } }

def incrAll (counts : Counts) (tiles : List Nat) : Counts :=
  tiles.foldl (fun counts tile => incr counts tile 1) counts

def decrAll (counts : Counts) (tiles : List Nat) : Counts :=
  tiles.foldl (fun counts tile => decr counts tile 1) counts

def doneLastAction (s : State) (chair : Nat) (action : Option (Action × Nat)) : State :=
  { s with player := fun i =>
      { s.player i with lastAction := if i = chair then action else none } }

def cleanGzh (s : State) (chair : Nat) : State :=
  s.update chair fun p => { p with gzh := fun _ => none }

def cleanGsp (s : State) (chair : Nat) : State :=
  s.update chair fun p => { p with gsp := fun _ => false }

def setGzhOnPass (c : Conf) (s : State) (chair tile : Nat) : State :=
  let fans := (ting c (s.player chair)).map fun t => (t, huFan c s chair (some t) none false)
  match fans.lookup tile with
  | none => s
  | some blockFan => s.update chair fun p =>
      { p with gzh := fun t =>
          match fans.lookup t with
          | some fan => if fan ≤ blockFan then some fan else p.gzh t
          | none => p.gzh t }

def setGspOnPass (s : State) (chair tile : Nat) : State :=
  s.update chair fun p => { p with gsp := fun t => t = tile || p.gsp t }

/-- `do_balance`; the players keep what they hold. -/
def doBalance (c : Conf) (s : State) : State :=
  { s with fsm := .over (gameBalance c s) ((dingZhuang c s).getD c.zhuang) }

/-- The chair that `next_player_index` finds; after one turn round the table the
search of the source starts over, and with nobody left it never ends. -/
def nextChair (c : Conf) (s : State) (from_ : Nat) : Option Nat :=
  seek (forward c.chairCount) (fun i => c.seats.contains i && (s.player i).hu.isNone)
    c.chairCount from_

def nextPlayerIndex (c : Conf) (s : State) (from_ : Nat) : Option State :=
  let s := doneLastAction s s.chuPaiPlayerIndex none
  (nextChair c s from_).map fun chair => { s with chuPaiPlayerIndex := chair }

def jumpToPlayerIndex (s : State) (chair : Nat) : State :=
  { s with chuPaiPlayerIndex := chair }

/-- `chu_pai` -/
def chuPai (s : State) : State := { s with fsm := .waitChuPai }

/-- `on_mo_pai` -/
def onMoPai (s : State) (chair tile : Nat) : State :=
  { s with player := fun i =>
      if i = chair then
        { s.player i with moPai := some tile, moPaiCount := (s.player i).moPaiCount + 1 }
      else
        { s.player i with moPai := none } }

/-- `action_after_mo_pai` with the one player who may act. -/
def actionAfterMoPai (s : State) (actions : List (Action × Nat)) : State :=
  { s with
    sessionId := s.sessionId + 1
    fsm := .waitActionAfterMoPai ⟨s.chuPaiPlayerIndex, actions, s.sessionId + 1, none⟩ }

def moPai (c : Conf) (s : State) (rnd : Nat) : State :=
  let chair := s.chuPaiPlayerIndex
  let s := cleanGsp (cleanGzh s chair) chair
  match s.dealer.dealOne rnd with
  | none => doBalance c s
  | some (tile, dealer) =>
      let s := { s with dealer := dealer, moPaiCount := s.moPaiCount + 1 }
      let s := s.update chair fun p => p.withShouPai fun counts => incr counts tile 1
      let s := onMoPai s chair tile
      let actions := getActions c s chair (some tile) none false
      if actions.isEmpty then chuPai s else actionAfterMoPai s actions

/-- A session for each chair that has something to do. -/
def collect (offers : Nat → List (Action × Nat)) : List Nat → Nat → List Waiting × Nat
  | [], session => ([], session)
  | chair :: rest, session =>
      if (offers chair).isEmpty then
        collect offers rest session
      else
        let r := collect offers rest (session + 1)
        (⟨chair, offers chair, session + 1, none⟩ :: r.1, r.2)

def Waiting.offers (w : Waiting) (action : Action) : Bool :=
  w.actions.any fun act => act.1 = action

def Waiting.answered (w : Waiting) (action : Action) : Bool :=
  w.done.any fun act => act.1 = action

def checkActionBeforeDo (waiting : List Waiting) (chair : Nat) (action : Action)
    (tile session : Nat) : Option Waiting :=
  (waiting.find? fun w => w.chairId = chair).filter fun w =>
    w.sessionId = session ∧ (action = .pass ∨ (action, tile) ∈ w.actions)

/-- `action.done = { action = msg.action, tile = msg.value_tile }` -/
def setDone (waiting : List Waiting) (chair : Nat) (act : Action × Nat) : List Waiting :=
  waiting.map fun w => if w.chairId = chair then { w with done := some act } else w

def adjustShouPai (s : State) (chair : Nat) (action : Action) (tile : Nat) : State :=
  let lay := fun (n : Int) (sec : Section) =>
    { s.update chair fun p =>
        { p with pai := { p.pai with
            shouPai := decr p.pai.shouPai tile n, mingPai := p.pai.mingPai ++ [sec] } } with
      clock := s.clock + 1 }
  match action with
  | .anGang => lay 4 ⟨.anGang, tile, none, some s.clock, none, s.clock⟩
  | .mingGang => lay 3 ⟨.mingGang, tile, some s.chuPaiPlayerIndex, none, none, s.clock⟩
  | .peng => lay 2 ⟨.peng, tile, some s.chuPaiPlayerIndex, none, none, s.clock⟩
  | .baGang =>
      match (s.player chair).pai.mingPai.find? (Section.isPeng tile) with
      | none => s
      | some sec =>
          { s.update chair fun p =>
              { p with pai := { p.pai with
                  shouPai := decr p.pai.shouPai tile 1
                  mingPai := p.pai.mingPai.eraseP (Section.isPeng tile) ++
                    [⟨.baGang, tile, sec.whoee, some s.clock, none, s.clock⟩] } } with
            clock := s.clock + 1 }
  | _ => s

/-- `table.pop_back(chu_pai_player.pai.desk_tiles)` -/
def popDesk (s : State) : State :=
  s.update s.chuPaiPlayerIndex fun p =>
    { p with pai := { p.pai with deskTiles := p.pai.deskTiles.dropLast } }

/-! ### Exchange and void suit -/

/-- Who gets the tiles of `chair`; the search ends at `chair` itself at the latest. -/
def huanTarget (c : Conf) (order chair : Nat) : Nat :=
  match order with
  | 0 => (seek (backward c.chairCount) c.seats.contains c.chairCount chair).getD chair
  | 1 => (seek (forward c.chairCount) c.seats.contains c.chairCount chair).getD chair
  | _ => (chair + 1) % 4 + 1

def huanOrder (c : Conf) (rnd : Nat) : Nat :=
  if c.seats.length = 4 then rnd % 3 else rnd % 2

def doHuanPai (c : Conf) (s : State) (rnd : Nat) : State :=
  let old := fun chair => (s.player chair).pai.huan.getD []
  let s := c.seats.foldl (fun s chair =>
    s.update chair fun p => p.withShouPai fun counts => decrAll counts (old chair)) s
  c.seats.foldl (fun s chair =>
    s.update (huanTarget c (huanOrder c rnd) chair) fun p =>
      p.withShouPai fun counts => incrAll counts (old chair)) s

/-- A tile the player holds stands for the one drawn last. -/
def choiceFirstTurnMoPai (s : State) (rnd : Nat) : Option Nat :=
  let tiles := (List.range' 1 50).filter fun t => 0 < s.chuPaiPlayer.pai.shouPai t
  tiles[rnd % tiles.length]?

def actionAfterDingQue (c : Conf) (s : State) (rnd : Nat) : State :=
  let tile := choiceFirstTurnMoPai s rnd
  let s := s.update s.chuPaiPlayerIndex fun p => { p with moPai := tile }
  let actions := getActionsFirstTurn c s s.chuPaiPlayerIndex tile
  if actions.isEmpty then chuPai s else actionAfterMoPai s actions

/-- `ding_que` -/
def dingQue (c : Conf) (s : State) (rnd : Nat) : State :=
  if c.tiles.length < 108 then
    actionAfterDingQue c (jumpToPlayerIndex s c.zhuang) rnd
  else
    { s with fsm := .dingQue }

def onDingQue (c : Conf) (s : State) (chair men rnd : Nat) : State :=
  if (s.player chair).que.isSome ∨ 3 < men then
    s
  else
    let s := s.update chair fun p => { p with que := some men }
    if c.seats.all fun i => (s.player i).que.isSome then
      actionAfterDingQue c (jumpToPlayerIndex s c.zhuang) rnd
    else
      s

/-- The number of different suits in a list of tiles. -/
def menCount (tiles : List Nat) : Nat := (tiles.map fun t => t / 10).dedup.length

def onHuanPai (c : Conf) (s : State) (huan : HuanConf) (chair : Nat) (tiles : List Nat)
    (rnd : Nat) : State :=
  if (s.player chair).pai.huan.isSome then
    s
  else if tiles.any fun t => (s.player chair).pai.shouPai t = 0 then
    s
  else if tiles.length ≠ huan.count then
    s
  else if huan.type = 1 ∧ menCount tiles ≠ 1 then
    s
  else
    let s := s.update chair fun p => { p with pai := { p.pai with huan := some tiles } }
    if c.seats.all fun i => (s.player i).pai.huan.isSome then
      dingQue c (doHuanPai c s rnd) (rnd / 3)
    else
      s

/-! ### Discards and claims -/

/-- What the discarder's own discard blocks for him. -/
def getSelfActionsAndSetPass (c : Conf) (s : State) (chair tile : Nat) : State :=
  if c.play.guoZhuangHu ∨ c.play.guoShouPeng then
    let actions := getActions c s chair none (some tile) false
    let offered := fun action => actions.any fun act => act.1 = action
    let s₁ :=
      if c.play.guoZhuangHu ∧ offered .hu then
        let s := setGzhOnPass c s chair tile
        match (s.player chair).lastPenghu with
        | none => s
        | some fan => s.update chair fun p =>
            { p with gzh := fun t => if t = tile then some fan else p.gzh t }
      else s
    if c.play.guoShouPeng ∧ offered .peng then setGspOnPass s₁ chair tile else s₁
  else
    s

/-- `on_chu_pai` -/
def onChuPai (s : State) (tile : Nat) : State :=
  { s with player := fun i =>
      if i = s.chuPaiPlayerIndex then
        { s.player i with chuPai := some tile, chuPaiCount := (s.player i).chuPaiCount + 1 }
      else
        { s.player i with chuPai := none } }

/-- Whether the suit given up has to be discarded first. -/
def queFirst (p : Player) (tile : Nat) : Bool :=
  p.que.any fun men =>
    ((List.range' 1 50).any fun t => 0 < p.pai.shouPai t ∧ tileMen t = men) && men ≠ tileMen tile

def onActionChuPai (c : Conf) (s : State) (chair tile rnd : Nat) : Option State :=
  let p := s.player chair
  if s.chuPaiPlayerIndex ≠ chair ∨ checkTile tile = false ∨ p.pai.shouPai tile = 0 ∨
      queFirst p tile = true then
    some s
  else
    let s := s.update chair fun p => p.withShouPai fun counts => decr counts tile 1
    let s := onChuPai s tile
    let s := s.update chair fun p =>
      { p with pai := { p.pai with deskTiles := p.pai.deskTiles ++ [tile] } }
    let offers := fun i =>
      if (s.player i).hu.isSome ∨ i = chair then [] else getActions c s i none (some tile) false
    let (waiting, session) := collect offers c.seats s.sessionId
    let s := getSelfActionsAndSetPass c s chair tile
    let s := s.update chair fun p => { p with lastPenghu := none }
    if waiting.isEmpty then
      (nextPlayerIndex c s s.chuPaiPlayerIndex).map fun s => moPai c s rnd
    else
      some { s with sessionId := session, fsm := .waitActionAfterChuPai (c.pairs waiting) }

def actionPriority : Action → Nat
  | .pass => 5
  | .peng => 4
  | .anGang | .mingGang | .baGang => 3
  | .men | .menZiMo | .ting => 2
  | _ => 1

/-- `table.sort` of Lua on what can wait after a discard, at most three answers. -/
def luaSort (lt : Waiting → Waiting → Bool) : List Waiting → List Waiting
  | [a, b] => if lt b a then [b, a] else [a, b]
  | [a, b, c] =>
      let lo := if lt c a then c else a
      let hi := if lt c a then a else c
      if lt b lo then [b, lo, hi] else if lt hi b then [lo, hi, b] else [lo, b, hi]
  | answers => answers.mergeSort fun l r => !lt r l

def sortAnswers (answers : List Waiting) : List Waiting :=
  let priority := fun (w : Waiting) => w.done.elim 0 fun act => actionPriority act.1
  luaSort (fun l r => priority l < priority r) answers

/-- `check_all_pass` for one answer; `offered` is how the win was offered, `withPeng`
whether a pass on a triplet counts too. -/
def checkPass (c : Conf) (offered : Action) (withPeng : Bool) (tile : Nat) (s : State) (w : Waiting) :
    State :=
  if w.answered .pass then
    let s := if c.play.guoZhuangHu ∧ w.offers offered then setGzhOnPass c s w.chairId tile else s
    if withPeng ∧ c.play.guoShouPeng ∧ w.offers .peng then setGspOnPass s w.chairId tile else s
  else if ¬ w.answered .hu ∧ w.offers .hu ∧ c.play.guoZhuangHu then
    setGzhOnPass c s w.chairId tile
  else
    s

/-- `check_all_pass` after a discard. -/
def checkAllPass (c : Conf) (answers : List Waiting) (s : State) : State :=
  match s.chuPaiPlayer.chuPai with
  | none => s
  | some tile => answers.foldl (checkPass c .hu true tile) s

def lastActionIsCanPenghu (c : Conf) (s : State) (chair tile : Nat) (answers : List Waiting) :
    State :=
  let s := s.update chair fun p => { p with lastPenghu := none }
  if c.play.guoZhuangHu ∧ totalCount (s.player chair).pai.shouPai = 4 ∧
      (answers.any fun w => w.offers .hu) ∧ (answers.any fun w => w.offers .peng) then
    s.update chair fun p => { p with lastPenghu := some (huFan c s chair (some tile) none false) }
  else
    s

def doPeng (c : Conf) (s : State) (chair tile : Nat) (answers : List Waiting) : State :=
  let s := lastActionIsCanPenghu c (cleanGzh s chair) chair tile answers
  let s := checkAllPass c answers (adjustShouPai (popDesk s) chair .peng tile)
  let s := chuPai (jumpToPlayerIndex s chair)
  doneLastAction s chair (some (.peng, tile))

def doMingGang (c : Conf) (s : State) (chair tile : Nat) (answers : List Waiting) (rnd : Nat) :
    State :=
  let s := adjustShouPai (popDesk (cleanGzh s chair)) chair .mingGang tile
  let s := moPai c (jumpToPlayerIndex (checkAllPass c answers s) chair) rnd
  doneLastAction s chair (some (.mingGang, tile))

/-- `s.dian_pao = act.chair_id` on the gang after which the discard was made. -/
def markDianPao (s : State) (chair : Nat) : State :=
  match s.chuPaiPlayer.lastAction with
  | none => s
  | some act =>
      if isActionGang act.1 then
        s.update s.chuPaiPlayerIndex fun p =>
          { p with pai := { p.pai with
              mingPai := p.pai.mingPai.map fun sec =>
                if sec.tile = act.2 ∧ isSectionGang sec.type then
                  { sec with dianPao := some chair }
                else sec } }
      else
        s

/-- `p.hu = { time = timer.nanotime(), ... }` -/
def setHu (s : State) (chair : Nat) (won : Hu) : State :=
  { s.update chair fun p => { p with hu := some won } with clock := s.clock + 1 }

/-- One turn of the loop over `hu_actions`. -/
def huOne (c : Conf) (tile : Nat) (s : State) (w : Waiting) : State :=
  let won : Hu :=
    ⟨s.clock, tile, hu c s w.chairId (some tile) none false, some false,
      some s.chuPaiPlayerIndex, false⟩
  markDianPao (setHu s w.chairId won) w.chairId

/-- The end of a win: settle when one player is left, else the turn goes on from `from_`. -/
def afterHu (c : Conf) (s : State) (from_ rnd : Nat) : Option State :=
  if c.startCount - huCount c s = 1 then
    some (doBalance c s)
  else
    (nextPlayerIndex c s from_).map fun s => moPai c s rnd

def maxChair (waiting : List Waiting) : Nat :=
  (waiting.map Waiting.chairId).foldl max 0

def doHu (c : Conf) (s : State) (chair tile : Nat) (answers : List Waiting) (rnd : Nat) :
    Option State :=
  let huActions := answers.filter fun w => w.answered .hu
  let s :=
    if 1 < huActions.length ∧ huCount c s = 0 then
      s.update s.chuPaiPlayerIndex fun p => { p with firstMultiPao := true }
    else s
  let s := popDesk (huActions.foldl (huOne c tile) s)
  let s := checkAllPass c answers { s with taken := tile :: s.taken }
  (afterHu c s (maxChair huActions) rnd).map fun s =>
    doneLastAction s chair (some (.hu, tile))

/-- Whether the answers after a discard are enough to go on. -/
def claimsSettled (waiting : List Waiting) : Bool :=
  let huActionCount := waiting.countP fun w => w.offers .hu
  let huDoneCount := waiting.countP fun w => w.offers .hu && w.done.isSome
  let huCount := waiting.countP fun w => w.answered .hu
  !(huActionCount = 0 || huDoneCount < huActionCount || huCount = 0) ||
    waiting.all fun w => w.done.isSome

/-- The answers are in, and the first of the sorted ones decides. -/
def resolveClaims (c : Conf) (s : State) (waiting : List Waiting) (rnd : Nat) : Option State :=
  let answers := sortAnswers (waiting.filter fun w => w.done.isSome)
  match answers with
  | [] => none
  | top :: _ =>
      match top.done with
      | none => none
      | some (action, tile) =>
          match action with
          | .peng => some (doPeng c s top.chairId tile answers)
          | .mingGang => some (doMingGang c s top.chairId tile answers rnd)
          | .hu => doHu c s top.chairId tile answers rnd
          | .pass =>
              (nextPlayerIndex c (checkAllPass c answers s) s.chuPaiPlayerIndex).map fun s =>
                moPai c s rnd
          | action => some (doneLastAction s top.chairId (some (action, tile)))

def onActionAfterChuPai (c : Conf) (s : State) (waiting : List Waiting) (chair : Nat)
    (action : Action) (tile session rnd : Nat) : Option State :=
  let waiting :=
    match checkActionBeforeDo waiting chair action tile session with
    | none => waiting
    | some _ => setDone waiting chair (action, tile)
  if claimsSettled waiting then
    resolveClaims c s waiting rnd
  else
    some { s with fsm := .waitActionAfterChuPai waiting }

/-! ### Own turn and robbed gangs -/

/-- The end of a gang on the own turn. -/
def afterGang (c : Conf) (s : State) (chair : Nat) (action : Action) (tile rnd : Nat) : State :=
  doneLastAction (moPai c s rnd) chair (some (action, tile))

def onBaGang (c : Conf) (s : State) (chair tile rnd : Nat) : State :=
  let offers := fun i =>
    if i = chair ∨ (s.player i).hu.isSome then
      []
    else
      ((getActions c s i none (some tile) true).filter fun act => act.1 = .hu).map
        fun act => (Action.qiangGangHu, act.2)
  let (robbers, session) := collect offers c.seats s.sessionId
  if robbers.isEmpty then
    let s := cleanGzh (adjustShouPai s chair .baGang tile) chair
    afterGang c (jumpToPlayerIndex s chair) chair .baGang tile rnd
  else
    { s with sessionId := session, fsm := .waitQiangGangHu tile (c.pairs robbers) }

def onAnGang (c : Conf) (s : State) (chair tile rnd : Nat) : State :=
  let s := adjustShouPai (cleanGzh s chair) chair .anGang tile
  afterGang c (jumpToPlayerIndex s chair) chair .anGang tile rnd

/-- Who gave the tile of the open gang after which the player draws. -/
def gangGiver (p : Player) : Option Nat :=
  match p.lastAction with
  | some (.mingGang, tile) =>
      (p.pai.mingPai.find? fun sec => sec.tile = tile ∧ sec.type = .mingGang).bind Section.whoee
  | _ => none

def onZiMo (c : Conf) (s : State) (chair tile rnd : Nat) : Option State :=
  let p := s.player chair
  let dgh := c.play.dghDianPao = true ∧ (p.lastAction.any fun act => act.1 = .mingGang) = true
  let won : Hu :=
    ⟨s.clock, tile, hu c s chair none p.moPai false, if dgh then none else some true,
      if dgh then gangGiver p else none, false⟩
  (afterHu c (setHu s chair won) s.chuPaiPlayerIndex rnd).map fun s =>
    doneLastAction s chair (some (.ziMo, tile))

def onActionAfterMoPai (c : Conf) (s : State) (waiting : Waiting) (chair : Nat)
    (action : Action) (tile session rnd : Nat) : Option State :=
  match checkActionBeforeDo [waiting] chair action tile session with
  | none => some s
  | some _ =>
      if chair ≠ s.chuPaiPlayerIndex then
        some s
      else
        match action with
        | .baGang => some (onBaGang c s chair tile rnd)
        | .anGang => some (onAnGang c s chair tile rnd)
        | .ziMo => onZiMo c s chair tile rnd
        | _ => some (chuPai s)

/-- `do_qiang_gang_hu`; `first` tells whether the tile is still in the robbed hand. -/
def doQiangGangHu (c : Conf) (tile : Nat) (st : State × Bool) (w : Waiting) : State × Bool :=
  let s := st.1
  let won : Hu :=
    ⟨s.clock, tile, hu c s w.chairId (some tile) none true, some false,
      some s.chuPaiPlayerIndex, true⟩
  let s := setHu s w.chairId won
  let s :=
    if st.2 then
      { s.update s.chuPaiPlayerIndex fun p => p.withShouPai fun counts => decr counts tile 1 with
        taken := tile :: s.taken }
    else s
  (doneLastAction s w.chairId (w.done.map fun act => (act.1, tile)), false)

/-- The answers by which players win a robbed tile. -/
def robActions (waiting : List Waiting) : List Waiting :=
  waiting.filter fun w => w.answered .qiangGangHu || w.answered .hu

def resolveQiangGang (c : Conf) (s : State) (tile : Nat) (waiting : List Waiting) (rnd : Nat) :
    Option State :=
  let chair := s.chuPaiPlayerIndex
  let pass := fun s => waiting.foldl (checkPass c .qiangGangHu false tile) s
  if waiting.all fun w => w.answered .pass then
    let s := cleanGzh (adjustShouPai (pass s) chair .baGang tile) chair
    some (moPai c (doneLastAction s chair (some (.baGang, tile))) rnd)
  else
    -- every answer is counted here, also a pass
    let s := s.update chair fun p =>
      { p with firstMultiPao := decide (huCount c s = 0 ∧ 1 < waiting.length) }
    let s := ((robActions waiting).foldl (doQiangGangHu c tile) (pass s, true)).1
    afterHu c s (maxChair waiting) rnd

def onActionQiangGangHu (c : Conf) (s : State) (robbed : Nat) (waiting : List Waiting)
    (chair : Nat) (action : Action) (tile session rnd : Nat) : Option State :=
  match checkActionBeforeDo waiting chair action tile session with
  | none => some s
  | some _ =>
      let waiting := setDone waiting chair (action, tile)
      if waiting.all fun w => w.done.isSome then
        resolveQiangGang c s robbed waiting rnd
      else
        some { s with fsm := .waitQiangGangHu robbed waiting }

/-! ### The table as a state machine -/

inductive Msg
  | huanPai (tiles : List Nat)
  | dingQue (men : Nat)
  | chuPai (tile : Nat)
  | doAction (action : Action) (tile session : Nat)

structure Request where
  chair : Nat
  msg : Msg
  rnd : Nat

/-- The handler that the state of the table calls for a request. -/
def step (c : Conf) (s : State) (r : Request) : Option State :=
  if r.chair ∉ c.seats then
    some s
  else
    match s.fsm, r.msg with
    | .huanPai, .huanPai tiles =>
        some (c.huan.elim s fun huan => onHuanPai c s huan r.chair tiles r.rnd)
    | .dingQue, .dingQue men => some (onDingQue c s r.chair men r.rnd)
    | .waitChuPai, .chuPai tile => onActionChuPai c s r.chair tile r.rnd
    | .waitActionAfterMoPai waiting, .doAction action tile session =>
        if action ∈ [.anGang, .baGang, .pass, .ziMo] then
          onActionAfterMoPai c s waiting r.chair action tile session r.rnd
        else some s
    | .waitActionAfterChuPai waiting, .doAction action tile session =>
        if action ∈ [.peng, .mingGang, .hu, .pass] then
          onActionAfterChuPai c s waiting r.chair action tile session r.rnd
        else some s
    | .waitQiangGangHu robbed waiting, .doAction action tile session =>
        if action ∈ [.hu, .pass, .qiangGangHu] then
          onActionQiangGangHu c s robbed waiting r.chair action tile session r.rnd
        else some s
    | _, _ => some s

/-! ### The start of a round -/

def newPlayer : Player :=
  { pai := ⟨fun _ => 0, [], [], none⟩, hu := none, lastAction := none, moPai := none,
    chuPai := none, moPaiCount := 0, chuPaiCount := 0, que := none, firstMultiPao := false,
    gzh := fun _ => none, gsp := fun _ => false, lastPenghu := none }

/-- `deal_tiles` into the hand on `chair`; the number for a deal is the one that
stands at the number of tiles left. -/
def dealTiles (rnd : Nat → Nat) (chair : Nat) : Nat → State → Option State
  | 0, s => some s
  | n + 1, s =>
      match s.dealer.dealOne (rnd s.dealer.remainCount) with
      | none => none
      | some (tile, dealer) =>
          dealTiles rnd chair n ({ s with dealer := dealer }.update chair fun p =>
            p.withShouPai fun counts => incr counts tile 1)

/-- `fake_mo_pai` -/
def fakeMoPai (rnd : Nat → Nat) (s : State) : Option State :=
  match s.dealer.dealOne (rnd s.dealer.remainCount) with
  | none => none
  | some (tile, dealer) =>
      some ({ s with dealer := dealer, moPaiCount := s.moPaiCount + 1 }.update
        s.chuPaiPlayerIndex fun p =>
          { p.withShouPai fun counts => incr counts tile 1 with
            moPaiCount := p.moPaiCount + 1 })

def prepareTiles (c : Conf) (rnd : Nat → Nat) (s : State) : Option State :=
  (c.seats.foldlM (fun s chair => dealTiles rnd chair c.gameTileCount s) s).bind (fakeMoPai rnd)

/-- `on_started`: the random numbers of the shuffle and of the deal are functions. -/
def onStarted (c : Conf) (shuffleRnd dealRnd : Nat → Nat) (rnd : Nat) : Option State :=
  let s : State :=
    { player := fun _ => newPlayer, fsm := .huanPai, chuPaiPlayerIndex := c.zhuang,
      dealer := MaajanTileDealer.shuffle c.tiles shuffleRnd, moPaiCount := 0, sessionId := 0,
      clock := 0, taken := [] }
  (prepareTiles c dealRnd s).map fun s => if c.huan.isNone then dingQue c s rnd else s

/-- The states of the rounds of a table with this configuration. -/
def Started (c : Conf) (s : State) : Prop :=
  ∃ shuffleRnd dealRnd rnd, onStarted c shuffleRnd dealRnd rnd = some s

def Steps (c : Conf) (s : State) (r : Request) (s' : State) : Prop := step c s r = some s'

abbrev Reachable (c : Conf) : State → Prop := Runs.Reachable (Started c) (Steps c)

end FkServer.MaajanXuezhan
