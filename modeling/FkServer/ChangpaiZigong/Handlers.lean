import FkServer.ChangpaiZigong.Table

/-!
The handlers of `changpai_table`, one for each state that waits for somebody, and the
steps of the table they make: a client's message or the clock timer. The timers that act
for a player send the same messages as the player.
-/
namespace FkServer.ChangpaiZigong
namespace Table

variable (c : Conf)

/-- `on_mo_pai` for a card just taken from the wall. -/
def onMoPai (t : Table) (tile : Nat) : Table :=
  { t with player := fun chair =>
      { t.player chair with moPai := if chair = t.cur then some tile else none } }

/-- What `tou_pai`, `mo_pai` and `fake_mo_pai` share: a card for the player on turn. -/
def draw (t : Table) : Run :=
  let t := t.setPlayer t.cur fun p => { p with gzh := none, gsp := [], gsc := [] }
  if t.wall.length = 5 then
    t.doBalance
  else
    match t.wall with
    | [] => t.doBalance
    | tile :: wall =>
        .ok (({ t with wall := wall }.setPai t.cur fun pai =>
          { pai with shouPai := incr pai.shouPai tile 1 }).onMoPai tile)

def chuPai (t : Table) : Table := { t with fsm := .waitChuPai }

/-- `clear_unuse_card` for the player on turn. -/
def clearUnuseCard (t : Table) : Table :=
  t.setPai t.cur fun pai => { pai with unUsecard := none }

/-- What `mo_pai` does with the card drawn. -/
def afterDraw (t : Table) : Table :=
  let t := t.clearUnuseCard
  let actions := getActions c t t.cur t.chuPaiPlayer.moPai none false false
  if actions.isEmpty then
    t.chuPai
  else
    { t with fsm := .waitActionAfterJinPai }.waitFor [(t.cur, actions)]

/-- `mo_pai` -/
def moPai (t : Table) : Run := do
  let t ← draw { t with fsm := .waitMoPai }
  return t.afterDraw c

/-- `table.pop_back(chu_pai_player.pai.desk_tiles)` -/
def popDesk (t : Table) : Table :=
  t.setPai t.cur fun pai => { pai with deskTiles := pai.deskTiles.dropLast }

def setUnuseCard (tile : Nat) (pai : Pai) : Pai :=
  { pai with unUsecard := some (pai.unUsecard.getD [] ++ [tile]) }

/-- What `PENG` and `TOU` of `adjust_shou_pai` share: `n` cards of the hand become part
of a section. `tile_hong` fails for what is no card, after the hand has changed. -/
def adjustThree (t : Table) (chair : Nat) (tile : Option Nat) (n : Int)
    (sec : Nat → Section) : Run :=
  match tile with
  | none => .error t
  | some tile =>
      let t := t.setPai chair fun pai => { pai with shouPai := decr pai.shouPai tile n }
      if Card tile then
        .ok (t.setPai chair fun pai =>
          setUnuseCard tile { pai with mingPai := pai.mingPai ++ [sec tile] })
      else
        .error t

def adjustChi (t : Table) (chair : Nat) (tile othertile : Option Nat) : Run :=
  match othertile with
  | none => .error t
  | some othertile =>
      let t := t.setPai chair fun pai => { pai with shouPai := decr pai.shouPai othertile 1 }
      match tile with
      | none => .error t
      | some tile =>
          if Card tile ∧ Card othertile then
            let t := t.setPai chair fun pai =>
              setUnuseCard tile { pai with mingPai := pai.mingPai ++ [.chi tile othertile] }
            .ok (t.setPlayer t.cur fun p => { p with baoPai := false })
          else
            .error t

def adjustBaGang (t : Table) (chair : Nat) (tile : Option Nat) : Table :=
  match tile with
  | none => t
  | some tile =>
      t.setPai chair fun pai =>
        match pai.mingPai.find? fun s => s.three = some tile with
        | none => pai
        | some s =>
            { pai with
              mingPai := pai.mingPai.erase s ++ [.baGang tile]
              shouPai := decr pai.shouPai tile 1 }

/-- `adjust_shou_pai` -/
def adjustShouPai (t : Table) (chair : Nat) (action : Action) (tile othertile : Option Nat) :
    Run :=
  match action with
  | .baGang => .ok (t.adjustBaGang chair tile)
  | .peng => t.adjustThree chair tile 2 .peng
  | .tou => t.adjustThree chair tile 3 .tou
  | .chi => t.adjustChi chair tile othertile
  | _ => .ok t

/-- `check_action_before_do` -/
def checkActionBeforeDo (waiting : List Offer) (chair : Nat) (msg : Msg) : Option Offer := do
  let offer ← waiting.find? fun o => o.chair = chair
  if some offer.sessionId ≠ msg.sessionId ∧ msg.isSure = false then
    none
  else if msg.action = .pass then
    return offer
  else if msg.action = .baGang ∧ (place msg.valueTile).all (· ∉ offer.actions.baGang) then
    none
  else if offer.actions.keys msg.action = [] then
    none
  else
    return offer

/-- `action.done` for the player's entry. -/
def markDone (waiting : List Offer) (chair : Nat) (msg : Msg) : List Offer :=
  waiting.map fun o =>
    if o.chair = chair then
      { o with done := some ⟨msg.action, place msg.valueTile, place msg.otherTile⟩ }
    else o

/-- `baoting`; the answers given for players who cannot announce are requests of their own. -/
def baotingPhase (t : Table) : Table := { t with fsm := .waitBaoTing }

/-- `action_after_first_tou` -/
def actionAfterFirstTou (t : Table) : Table :=
  let fake := c.firstHeld t.chuPaiPlayer.pai.shouPai
  let t := t.setPlayer t.cur fun p => { p with moPai := fake }
  let actions := getActions c t t.cur fake none false false
  if actions.tianHu = [] then
    t.baotingPhase
  else
    { t with fsm := .waitActionAfterTianHu }.waitFor
      [(t.cur, { Actions.none with tianHu := actions.tianHu })]

/-- The table in the opening phase. -/
def opening (t : Table) : Table :=
  { t with clock := none, fsm := .waitActionAfterFirstFirstTouPai }

/-- `action_after_fapai`, which calls itself until somebody may act or the dealer is on
turn again; the fuel is the number of seats. -/
def actionAfterFaPai : Nat → Table → Run
  | 0, t => .ok t
  | seats + 1, t =>
      let t := t.opening
      match getActionsFirstTurn t t.cur with
      | none => .error t
      | some actions =>
          if actions.isEmpty then
            let t := t.nextPlayerIndex c
            if t.cur = t.zhuang then .ok (t.actionAfterFirstTou c) else actionAfterFaPai seats t
          else
            .ok (t.waitFor [(t.cur, actions)])

/-- The wall's next card is turned over before the player on turn. -/
def flipped (t : Table) (tile : Nat) (wall : List Nat) : Table :=
  { t with
    clock := none
    wall := wall
    untaken := tile :: t.untaken
    player := fun chair =>
      { t.player chair with fanPai := if chair = t.cur then some tile else none } }

/-- The next player flips a card when the clock timer fires. -/
def nextFlips (t : Table) : Table := { t.nextPlayerIndex c with clock := some .fanPai }

/-- What each player may do with the card just flipped. -/
def flipOffers (t : Table) (tile : Nat) : List (Nat × Actions) :=
  (chairs c).filterMap fun chair =>
    let canEat : Bool := chair = nestUser c t.cur ∨ chair = t.cur
    let actions := getActions c t chair none (some tile) canEat (chair = t.cur)
    if actions.isEmpty then none else some (chair, actions)

def afterFlip (t : Table) (tile : Nat) : Table :=
  if t.flipOffers c tile = [] then
    t.nextFlips c
  else
    { t with fsm := .waitActionAfterFanPai }.waitFor (t.flipOffers c tile)

/-- `fan_pai`, when the clock timer fires. -/
def fanPai (t : Table) : Run :=
  if t.wall.length = 5 then
    t.doBalance
  else
    match t.wall with
    | [] => t.doBalance
    | tile :: wall => .ok ((t.flipped tile wall).afterFlip c tile)

/-- A card goes from the hand to the discards; `on_chu_pai`. -/
def discarded (t : Table) (chair tile : Nat) : Table :=
  { t with
    clock := none
    player := fun i =>
      let p := t.player i
      if i = chair then
        { p with
          pai := { p.pai with
            shouPai := decr p.pai.shouPai tile 1
            deskTiles := p.pai.deskTiles ++ [tile] }
          chuPai := some tile
          chuPaiCount := p.chuPaiCount + 1
          gsc := p.gsc ++ [tile] }
      else
        { p with chuPai := none } }

/-- What each other player may do with the card just discarded. -/
def discardOffers (t : Table) (chair tile : Nat) : List (Nat × Actions) :=
  ((chairs c).filter (· ≠ chair)).filterMap fun i =>
    let actions := getActions c t i none (some tile) (i = nestUser c chair) false
    if actions.isEmpty then none else some (i, actions)

def afterDiscard (t : Table) (chair tile : Nat) : Table :=
  if t.discardOffers c chair tile = [] then
    t.nextFlips c
  else
    { t with fsm := .waitActionAfterChuPai }.waitFor (t.discardOffers c chair tile)

/-- `on_action_chu_pai`; the player who discards is the one on turn. -/
def onActionChuPai (t : Table) (chair : Nat) (tile : Option Int) (isSure : Bool) : Table :=
  if t.fsm ≠ .waitChuPai ∨ t.cur ≠ chair then
    t
  else
    match place tile with
    | none => t
    | some tile =>
        if ¬ Card tile ∨ (t.player chair).pai.shouPai tile = 0 then
          t
        else if tile ∈ (t.player chair).pai.unUsecard.getD [] then
          { t with clock := none }
        else if isBaoPai (t.player (nestUser c t.cur)) (some tile) ∧ isSure = false then
          { t with clock := none }
        else
          (t.discarded chair tile).afterDiscard c chair tile

/-- `ACTION_PRIORITY`; an action without an entry cannot be compared. -/
def actionPriority : Action → Option Nat
  | .pass => some 6
  | .peng => some 4
  | .tou => some 3
  | .baGang => some 2
  | .ting => some 2
  | .hu => some 1
  | .ziMo => some 1
  | .chi => some 5
  | _ => none

/-- `USER_PRIORITY[from][chair]` -/
def userPriority (fromChair chair : Nat) : Nat := (chair + 4 - fromChair) % 4 + 1

/-- The order in which the sorts of the handlers put actions and seats. -/
def precedes (cur : Nat) (l r : Action × Nat) : Bool :=
  if actionPriority l.1 = actionPriority r.1 then
    userPriority cur l.2 < userPriority cur r.2
  else
    (actionPriority l.1).getD 0 < (actionPriority r.1).getD 0

/-- The first element after sorting. -/
def first {α : Type} (cur : Nat) (key : α → Action × Nat) : List α → Option α
  | [] => none
  | x :: rest =>
      match first cur key rest with
      | none => some x
      | some y => if precedes cur (key y) (key x) then some y else some x

/-- Everything that was offered and to whom, `all_notdone`. -/
def allNotdone (waiting : List Offer) : List (Action × Nat) :=
  waiting.flatMap fun o => o.actions.offered.map fun act => (act, o.chair)

/-- The answers given so far, with the entry each belongs to. -/
def allActions (waiting : List Offer) : List (Offer × Done) :=
  waiting.filterMap fun o => o.done.map fun done => (o, done)

/-- Nothing that is still open precedes this answer. -/
def decided (cur : Nat) (waiting : List Offer) (chair : Nat) (action : Action) : Bool :=
  first cur id (allNotdone waiting) = some (action, chair) ||
    waiting.all fun o => o.done.isSome

/-- `check_all_pass` of both handlers: what a player has passed is remembered. -/
def checkAllPass (tile : Option Nat) (answers : List (Offer × Done)) (t : Table) : Table :=
  answers.foldl (fun t a =>
    if a.2.action = .pass then
      t.setPlayer a.1.chair fun p =>
        { p with
          gzh :=
            if a.1.actions.hu = [] then p.gzh
            else some (c.huFan p.pai (t.zhuang = a.1.chair) p.chuPaiCount tile)
          gsp := if a.1.actions.peng = [] then p.gsp else p.gsp ++ tile.toList
          gsc := if a.1.actions.chi = [] then p.gsc else p.gsc ++ tile.toList }
    else t) t

def cleanGzh (t : Table) (chair : Nat) : Table :=
  t.setPlayer chair fun p => { p with gzh := none }

/-- What both handlers do for the answer that comes first, once the card that was
discarded or flipped has been taken off the table. -/
def takeCard (t : Table) (tile : Option Nat) (answers : List (Offer × Done)) (chair : Nat)
    (done : Done) : Run :=
  match done.action with
  | .chi => do
      let t ← t.adjustShouPai chair .chi done.tile done.otherTile
      return { t.checkAllPass c tile answers with cur := chair }.chuPai
  | .peng => do
      let t ← (t.cleanGzh chair).adjustShouPai chair .peng done.tile none
      moPai c { t.checkAllPass c tile answers with cur := chair }
  | .tou => do
      let t ← (t.cleanGzh chair).adjustShouPai chair .tou done.tile none
      moPai c (t.checkAllPass c tile answers)
  | .baGang => do
      let t ← (t.cleanGzh chair).adjustShouPai chair .baGang done.tile none
      moPai c { t.checkAllPass c tile answers with cur := chair }
  | .hu => t.doBalance
  | _ => .ok t

/-- Nobody takes the card: the next player flips one. -/
def nobodyTakes (t : Table) (tile : Option Nat) (answers : List (Offer × Done)) : Table :=
  (t.checkAllPass c tile answers).nextFlips c

/-- A player who eats a discard that is dear marks the discarder. -/
def markChuBao (t : Table) (chair : Nat) : Table :=
  if nestUser c t.cur = chair ∧ isBaoPai (t.player chair) t.chuPaiPlayer.chuPai ∧
      t.chuPaiPlayer.baoCard = none then
    t.setPlayer t.cur fun p => { p with baoPai := true, baoCard := p.chuPai }
  else t

/-- The same for a flipped card that the player who flipped it had passed. -/
def markFanBao (t : Table) (answers : List (Offer × Done)) (chair : Nat) : Table :=
  if nestUser c t.cur = chair ∧ t.chuPaiPlayer.fanPai ≠ none ∧
      isBaoPai (t.player chair) t.chuPaiPlayer.fanPai ∧ t.chuPaiPlayer.baoCard = none ∧
      answers.any fun a => a.2.action = .pass ∧ a.1.chair = t.cur ∧ a.1.actions.chi ≠ [] then
    t.setPlayer t.cur fun p => { p with baoPai := true, baoCard := p.fanPai }
  else t

/-- `all_notdone` has several entries and one of them has no priority. -/
def unsortable (waiting : List Offer) : Bool :=
  1 < (allNotdone waiting).length ∧
    (allNotdone waiting).any fun e => actionPriority e.1 = none

/-- `on_action_after_chu_pai` -/
def onActionAfterChuPai (t : Table) (chair : Nat) (msg : Msg) : Run :=
  match t.waitingActions with
  | none => .ok t
  | some waiting =>
      let tile := t.chuPaiPlayer.chuPai
      if msg.action = .pass ∧ nestUser c t.cur = chair ∧ isBaoPai (t.player chair) tile ∧
          waiting.any fun o => o.chair = chair ∧ o.actions.chi ≠ [] then
        .ok t
      else
        match checkActionBeforeDo waiting chair msg with
        | none => .ok t
        | some _ =>
            let waiting := markDone waiting chair msg
            let t := { t with waitingActions := some waiting }
            if unsortable waiting then
              .error t
            else if ¬ decided t.cur waiting chair msg.action then
              .ok t
            else
              let answers := allActions waiting
              let t := { t with waitingActions := none }
              match first t.cur (fun a => (a.2.action, a.1.chair)) answers with
              | none => .ok t
              | some top =>
                  let t := { t with clock := none }
                  if top.2.action = .pass then
                    .ok (t.nobodyTakes c tile answers)
                  else
                    let t := if top.2.action = .chi then t.markChuBao c top.1.chair else t
                    t.popDesk.takeCard c tile answers top.1.chair top.2

/-- `set_palyer_bao_pai` -/
def setPlayerBaoPai (t : Table) (waiting : List Offer) (chair : Nat) : Bool :=
  let last := if chair ≤ 1 then c.startCount else chair - 1
  waiting.any (fun o => o.chair = last ∧ o.actions.chi ≠ []) && last = t.cur &&
    isBaoPai (t.player chair) t.chuPaiPlayer.fanPai

/-- `on_action_after_fan_pai`; it takes a card off the discards of the player on turn,
although the flipped card is not among them. -/
def onActionAfterFanPai (t : Table) (chair : Nat) (msg : Msg) : Run :=
  match t.waitingActions with
  | none | some [] => .ok t
  | some waiting =>
      let tile := t.chuPaiPlayer.fanPai
      if msg.action = .pass ∧ t.cur ≠ chair ∧ t.setPlayerBaoPai c waiting chair then
        .ok t
      else if msg.action = .pass ∧ t.cur = chair ∧ msg.isSure = false ∧
          isBaoPai (t.player (nestUser c t.cur)) tile then
        .ok t
      else
        match checkActionBeforeDo waiting chair msg with
        | none => .ok t
        | some _ =>
            let waiting := markDone waiting chair msg
            let t := { t with waitingActions := some waiting }
            if unsortable waiting then
              .error t
            else if ¬ decided t.cur waiting chair msg.action then
              .ok t
            else
              let answers := allActions waiting
              let t := { t with waitingActions := none, clock := none }
              match first t.cur (fun a => (a.2.action, a.1.chair)) answers with
              | none => .ok t
              | some top =>
                  if top.2.action = .pass then
                    .ok (t.nobodyTakes c tile answers)
                  else if top.2.action = .hu ∧ top.2.tile.any fun v => ¬ Card v then
                    .error t
                  else
                    let t := if top.2.action = .chi then t.markFanBao c answers top.1.chair else t
                    { t.popDesk with untaken := t.untaken.tail }.takeCard c tile answers
                      top.1.chair top.2

/-- The players who may rob the card `tile` that the player on turn adds to a section. -/
def robbers (t : Table) (tile : Nat) : List (Nat × Actions) :=
  ((chairs c).filter (· ≠ t.cur)).filterMap fun chair =>
    let actions := getActions c t chair none (some tile) false false
    if actions.hu = [] then none else some (chair, { Actions.none with qiangGangHu := actions.hu })

/-- `on_action_after_mo_pai` -/
def onActionAfterMoPai (t : Table) (chair : Nat) (msg : Msg) : Run :=
  match checkActionBeforeDo (t.waitingActions.getD []) chair msg with
  | none => .ok t
  | some offer =>
      let t := { t with clock := none }
      if chair ≠ t.cur then
        .ok t
      else
        let t := { t with waitingActions := some [] }
        let tile := place msg.valueTile
        match msg.action with
        | .baGang =>
            let robbers := tile.elim [] (t.robbers c)
            if robbers = [] then do
              let t ← t.adjustShouPai chair .baGang tile none
              moPai c (t.cleanGzh chair)
            else
              let waiting := t.waitFor robbers
              .ok { waiting with
                fsm := .waitQiangGangHu
                waitingActions := some []
                qiangGangActions :=
                  some ⟨tile.getD 0, waiting.waitingActions.getD []⟩ }
        | .tou => do
            let t ← (t.cleanGzh chair).adjustShouPai chair .tou tile none
            moPai c t
        | .hu => t.doBalance
        | .pass =>
            let t := t.setPlayer chair fun p =>
              if offer.actions.hu = [] ∧ offer.actions.tianHu = [] then p
              else { p with gzh := some (c.huFan p.pai (t.zhuang = chair) p.chuPaiCount none) }
            .ok t.chuPai
        | _ => .ok t

/-- `check_all_pass` of `on_action_qiang_gang_hu`, when everybody has passed. -/
def rememberRob (tile : Nat) (answers : List (Offer × Done)) (t : Table) : Table :=
  answers.foldl (fun t a =>
    t.setPlayer a.1.chair fun p =>
      { p with gzh := some (c.huFan p.pai (t.zhuang = a.1.chair) p.chuPaiCount (some tile)) }) t

/-- `on_action_qiang_gang_hu` -/
def onActionQiangGangHu (t : Table) (chair : Nat) (msg : Msg) : Run :=
  match t.qiangGangActions with
  | none => .ok t
  | some qiang =>
      match checkActionBeforeDo qiang.offers chair msg with
      | none => .ok t
      | some _ =>
          let offers := markDone qiang.offers chair msg
          let t := { t with
            clock := none
            qiangGangActions := some { qiang with offers := offers } }
          if ¬ offers.all fun o => o.done.isSome then
            .ok t
          else if (allActions offers).all fun a => a.2.action = .pass then do
            let t ← { t.rememberRob c qiang.tile (allActions offers) with
              qiangGangActions := none }.adjustShouPai t.cur .baGang (some qiang.tile) none
            moPai c t
          else
            t.doBalance

/-- `on_action_after_first_tou_pai` -/
def onActionAfterFirstTouPai (t : Table) (chair : Nat) (msg : Msg) : Run :=
  match checkActionBeforeDo (t.waitingActions.getD []) chair msg with
  | none => .ok t
  | some _ =>
      let t := { t with clock := none }
      if chair ≠ t.cur then
        .ok t
      else
        let t := { t with waitingActions := some [] }
        let tile := place msg.valueTile
        match msg.action with
        | .baGang => do
            let t ← (t.cleanGzh chair).adjustShouPai chair .baGang tile none
            let t ← t.draw
            actionAfterFaPai c c.startCount t
        | .tou => do
            let t ← (t.cleanGzh chair).adjustShouPai chair .tou tile none
            let t ← t.draw
            actionAfterFaPai c c.startCount t
        | .tianHu => t.doBalance
        | .pass =>
            let t := t.nextPlayerIndex c
            if t.cur = t.zhuang then .ok (t.actionAfterFirstTou c)
            else actionAfterFaPai c c.startCount t
        | _ => .ok t

/-- `on_action_after_tianhu` -/
def onActionAfterTianHu (t : Table) (chair : Nat) (msg : Msg) : Run :=
  match checkActionBeforeDo (t.waitingActions.getD []) chair msg with
  | none => .ok t
  | some _ =>
      let t := { t with clock := none }
      if chair ≠ t.cur then
        .ok t
      else
        let t := { t with waitingActions := some [] }
        match msg.action with
        | .tianHu => t.doBalance
        | .pass => .ok t.baotingPhase
        | _ => .ok t

/-- `on_baoting` -/
def onBaoting (t : Table) (chair : Nat) (baoting : Bool) : Table :=
  if t.fsm ≠ .waitBaoTing ∨ (t.player chair).baoting ≠ none then
    t
  else
    let t := t.setPlayer chair fun p => { p with baoting := some baoting }
    if (chairs c).all fun i => (t.player i).baoting ≠ none then
      { t with clock := none, cur := t.zhuang }.chuPai
    else
      t

end Table

/-- The table `state_actions` of `on_cs_do_action`. -/
def onCsDoAction (c : Conf) (t : Table) (chair : Nat) (msg : Msg) : Run :=
  match t.fsm, msg.action with
  | .waitActionAfterTianHu, .tianHu | .waitActionAfterTianHu, .pass =>
      t.onActionAfterTianHu chair msg
  | .waitActionAfterFirstFirstTouPai, .tou | .waitActionAfterFirstFirstTouPai, .baGang
  | .waitActionAfterFirstFirstTouPai, .tianHu | .waitActionAfterFirstFirstTouPai, .pass =>
      t.onActionAfterFirstTouPai c chair msg
  | .waitActionAfterJinPai, .tou | .waitActionAfterJinPai, .baGang
  | .waitActionAfterJinPai, .pass | .waitActionAfterJinPai, .hu
  | .waitActionAfterJinPai, .ziMo =>
      t.onActionAfterMoPai c chair msg
  | .waitActionAfterChuPai, .peng | .waitActionAfterChuPai, .hu
  | .waitActionAfterChuPai, .pass | .waitActionAfterChuPai, .chi =>
      t.onActionAfterChuPai c chair msg
  | .waitActionAfterFanPai, .baGang | .waitActionAfterFanPai, .pass
  | .waitActionAfterFanPai, .ziMo | .waitActionAfterFanPai, .chi
  | .waitActionAfterFanPai, .peng | .waitActionAfterFanPai, .hu =>
      t.onActionAfterFanPai c chair msg
  | .waitQiangGangHu, .hu | .waitQiangGangHu, .pass | .waitQiangGangHu, .qiangGangHu =>
      t.onActionQiangGangHu c chair msg
  | _, _ => .ok t

/-- What may happen next at a table. -/
inductive Request
  | clock
  | doAction (chair : Nat) (msg : Msg)
  | discard (chair : Nat) (tile : Option Int) (isSure : Bool)
  | baoting (chair : Nat) (baoting : Bool)

/-- The player a request comes from. -/
def Request.chair? : Request → Option Nat
  | .clock => none
  | .doAction chair _ | .discard chair _ _ | .baoting chair _ => some chair

def run (c : Conf) (t : Table) : Request → Run
  | .clock =>
      match t.clock with
      | none => .ok t
      | some .faPai => t.actionAfterFaPai c c.startCount
      | some .fanPai => t.fanPai c
  | .doAction chair msg => onCsDoAction c t chair msg
  | .discard chair tile isSure => .ok (t.onActionChuPai c chair tile isSure)
  | .baoting chair baoting => .ok (t.onBaoting c chair baoting)

/-- One step of the table; only players at the table send messages. -/
def step (c : Conf) (t : Table) (req : Request) : Table :=
  if req.chair?.all (· ∈ chairs c) then EarlyExit.result (run c t req) else t

/-- The hand dealt to a chair from the wall after the cut. -/
def dealt (c : Conf) (wall : List Nat) (chair : Nat) : List Nat :=
  if chair ∈ chairs c then (wall.drop (15 * (chair - 1))).take 15 else []

/-- `prepare_tiles`: the table after the cut, the deal and the dealer's extra card. The
card that decides the dealer is shown and stays in the wall. -/
def started (c : Conf) (shuffled : List Nat) (zhuang : Nat) (zhuangPai : Option Nat) : Table :=
  let cut := if c.startCount = 2 then 15 else 0
  let wall := shuffled.drop cut
  let left := wall.drop (15 * c.startCount)
  { fsm := .xiPai
    zhuang := zhuang
    zhuangPai := zhuangPai
    cur := zhuang
    player := fun chair =>
      { pai :=
          { shouPai := fun t =>
              (((dealt c wall chair) ++ if chair = zhuang then left.head?.toList else []).count t
                : Nat)
            mingPai := []
            deskTiles := []
            unUsecard := some [] }
        moPai := if chair = zhuang then left.head? else none
        fanPai := none
        chuPai := none
        chuPaiCount := 0
        gzh := none
        gsp := []
        gsc := []
        baoting := none
        baoPai := false
        baoCard := none }
    wall := left.tail
    qiePai := shuffled.take cut
    untaken := []
    waitingActions := none
    qiangGangActions := none
    sessionId := 0
    clock := some .faPai }

/-- `all_tiles[1]`: every card four times. -/
def deck : List Nat := (List.replicate 4 (List.range' 1 21)).flatten

/-- The starts of a round: the deck in any order, any dealer. -/
def Started (c : Conf) (t : Table) : Prop :=
  ∃ shuffled zhuang zhuangPai, shuffled.Perm deck ∧ zhuang ∈ chairs c ∧
    t = started c shuffled zhuang zhuangPai

end FkServer.ChangpaiZigong
