import FkServer.Library.Census
import FkServer.Lobby.Seats
import Mathlib.Data.List.MinMax

/-!
Who is online and where: `on_login_logout.lua`, the parts of `base_room.lua`, `base_table.lua`
and `base_club.lua` it seats players with, `switch_to` and its like of `common.lua`, the sessions
of `queued.lua` and the login of `on_gate.lua`. The servers handle one request after another.
-/
namespace FkServer.OnlineCounters
open Seats (StandupReason)

abbrev Guid := Nat
abbrev ServerId := Nat
abbrev GameType := Nat
abbrev TableId := Nat
abbrev ClubId := Nat

inductive Code
  | errorParameterError | errorNotMember | errorClubClose | errorClubBlock | errorBlockGaming
  | errorLessMinLimit | errorClubTeamIsLocked | errorClubTeamClose | errorLessRoomCard
  | errorClubNotFound | errorOperationInvalid | errorInternalUnkown | playerOnChair
  | notFindTable | noFreeChair | maintain | inRoom | inGame
deriving DecidableEq

/-- How a piece of Lua ends: with an error, with a code, or as it should. -/
inductive Reply (α : Type)
  | raised
  | refused (code : Code)
  | done (value : α)
deriving DecidableEq

/-! ### Rules and clubs -/

inductive PayOption
  | boss | aa | roomOwner | other
deriving DecidableEq

/-- `rule.union` as `json.decode` leaves it: nothing, something that cannot be indexed or
compared, or a table with its `entry_score`. -/
inductive RuleUnion
  | absent
  | malformed
  | entryScore (score : Int)
deriving DecidableEq

structure Pay where
  option : PayOption
  /-- `check_money_type` -/
  moneyType : Bool
deriving DecidableEq

/-- A rule; a part that is missing raises an error where it is read. -/
structure Rule where
  playerCountOption : Option Nat
  roundOption : Option Nat
  pay : Option Pay
  union : RuleUnion
deriving DecidableEq

structure PrivateConf where
  chairCountOption : List Nat
  roundCountOption : List Nat

/-- `base_rule.check`: the number of chairs and who pays. -/
def Rule.check (rule : Rule) : Option PrivateConf → Reply (Nat × PayOption)
  | none => .raised
  | some conf =>
    match rule.playerCountOption with
    | none => .raised
    | some option =>
      match conf.chairCountOption[option]?, rule.roundOption with
      | none, _ => .refused .errorParameterError
      | some _, none => .raised
      | some chairCount, some round =>
        match conf.roundCountOption[round]?, rule.pay with
        | none, _ => .refused .errorParameterError
        | some _, none => .raised
        | some _, some pay =>
          if pay.option = .other || !pay.moneyType then .refused .errorParameterError
          else .done (chairCount, pay.option)

inductive ClubType
  | default | union
deriving DecidableEq

/-- What a club knows of a player who wants to sit down. -/
structure Standing where
  isMember : Bool
  isClose : Bool
  isBlock : Bool
  isBlockGaming : Bool
  money : Int
  isTeamCreditBlockPlay : Bool
  closedTeamId : Bool

/-- `base_club:can_sit_down` -/
def clubCanSitDown (type : ClubType) (rule : Rule) (standing : Standing) : Reply Unit :=
  if !standing.isMember then .refused .errorNotMember
  else if standing.isClose then .refused .errorClubClose
  else if standing.isBlock then .refused .errorClubBlock
  else if standing.isBlockGaming then .refused .errorBlockGaming
  else
    match type, rule.union with
    | .union, .malformed => .raised
    | .union, .entryScore score =>
        if standing.money < score then .refused .errorLessMinLimit else afterMoney
    | _, _ => afterMoney
where
  afterMoney : Reply Unit :=
    if standing.isTeamCreditBlockPlay then .refused .errorClubTeamIsLocked
    else if standing.closedTeamId then .refused .errorClubTeamClose
    else .done ()

structure Template where
  gameType : GameType
  rule : Rule

/-- What does not change: the servers that are up, in the order of their numbers, and what
players belong to. -/
structure Cluster where
  servers : List ServerId
  firstGameType : ServerId → GameType
  secondGameType : ServerId → GameType
  privateConf : ServerId → Option PrivateConf
  club : ClubId → Option ClubType
  template : Nat → Option Template
  playerClub : Guid → ClubType → Finset ClubId
  lobby : ∃ g ∈ servers, firstGameType g = 1
  /-- A lobby is configured without the options of private rooms. -/
  lobbyConf : ∀ g, firstGameType g = 1 → privateConf g = none

namespace Cluster

variable (C : Cluster)

/-- `is_in_lobby` -/
def isInLobby (g : ServerId) : Bool := decide (C.firstGameType g = 1)

/-- The servers with a score in `player:online:count:<type>`. -/
def allGameServer (type : GameType) : List ServerId :=
  C.servers.filter fun g => C.firstGameType g = type

def lobbyId (guid : Guid) : ServerId :=
  let list := C.allGameServer 1
  list.getD (guid % list.length) 0

/-- The clubs and unions of a player. -/
def clubs (guid : Guid) : Finset ClubId := C.playerClub guid .union ∪ C.playerClub guid .default

end Cluster

/-! ### The state -/

/-- The hash `player:online:guid:<guid>`. -/
structure OnlineInfo where
  gate : Option Nat
  firstGameType : Option GameType
  secondGameType : Option GameType
  server : Option ServerId
  table : Option TableId
  chair : Option Nat
  globalTable : Option TableId
deriving DecidableEq

def OnlineInfo.empty : OnlineInfo := ⟨none, none, none, none, none, none, none⟩

/-- A session of `queued.lua`. -/
structure QueueSession where
  gate : Option Nat
  server : Option ServerId
deriving DecidableEq

/-- The fields a game server puts into `game.sessions` for a player. -/
structure PlayerSession where
  online : Bool
  active : Bool
  tableId : Option TableId
  chairId : Option Nat
deriving DecidableEq

def PlayerSession.empty : PlayerSession := ⟨false, false, none, none⟩

structure Table where
  startCount : Nat
  players : AList fun _ : Nat => Guid

/-- The hash `table:info:<id>`. -/
structure PrivateTable where
  roomId : ServerId
  clubId : Option ClubId
  rule : Rule

structure Counters where
  /-- `player:online:all` -/
  onlineAll : Finset Guid
  /-- `player:online:count` -/
  onlineCount : Int
  /-- `player:online:count:<first>` -/
  typeCount : GameType × ServerId → Int
  /-- `player:online:count:<first>:<second>` -/
  levelCount : GameType × GameType × ServerId → Int
  /-- `club:member:online:guid:<club>` -/
  clubOnlineGuid : ClubId → Finset Guid
  /-- `club:member:online:count:<club>` -/
  clubOnlineCount : ClubId → Int

structure System where
  counters : Counters
  online : Guid → OnlineInfo
  queue : Guid → Option QueueSession
  sessions : ServerId → Guid → PlayerSession
  tables : ServerId → TableId → Option Table
  /-- `table:all` -/
  tableAll : Finset TableId
  privateTable : TableId → Option PrivateTable

/-- Redis as `initd.lua` leaves it, and services that have just started. -/
def System.start : System where
  counters := ⟨∅, 0, fun _ => 0, fun _ => 0, fun _ => ∅, fun _ => 0⟩
  online _ := .empty
  queue _ := none
  sessions _ _ := .empty
  tables _ _ := none
  tableAll := ∅
  privateTable _ := none

/-- What a request meets with: the switches for maintenance, what the game in progress and the
club have to say, the numbers `math.random` draws, and the orders `table.sort` leaves. -/
structure Env where
  globalMaintain : Bool
  gameMaintain : Bool
  vip : Bool
  standing : Standing
  /-- `check_room_fee` -/
  lessRoomCard : Bool
  draws : List TableId
  /-- Whether `private_init` of the game gets through with the rule. -/
  privateInit : Bool
  /-- The table's own answer: being dismissed, `check_cheat_control`, a game in progress. -/
  tableCheck : TableId → Reply Unit
  isBlockGamingWithOthers : TableId → Bool
  canStandUp : StandupReason → Bool
  isRoundFree : Bool
  /-- The rooms of a fast join, by weight. -/
  rooms : List ServerId
  /-- What `find_free_tables` finds in a room, fullest first. -/
  freeTables : ServerId → List TableId

namespace Counters

variable (C : Cluster) (k : Counters)

/-- Both scores of a server. -/
def zincrby (g : ServerId) (d : Int) : Counters :=
  { k with
    typeCount := Census.incr k.typeCount (C.firstGameType g, g) d
    levelCount := Census.incr k.levelCount (C.firstGameType g, C.secondGameType g, g) d }

/-- The counters of `player_login_server`. -/
def login (guid : Guid) (g : ServerId) : Counters :=
  { k.zincrby C g 1 with
    onlineCount := k.onlineCount + 1
    clubOnlineGuid := fun c =>
      if c ∈ C.clubs guid then insert guid (k.clubOnlineGuid c) else k.clubOnlineGuid c
    clubOnlineCount := fun c =>
      if c ∈ C.clubs guid then k.clubOnlineCount c + 1 else k.clubOnlineCount c }

/-- The counters of `player_logout_server`. -/
def logout (guid : Guid) (g : ServerId) : Counters :=
  { k.zincrby C g (-1) with
    onlineAll := k.onlineAll.erase guid
    onlineCount := k.onlineCount - 1
    clubOnlineGuid := fun c =>
      if c ∈ C.clubs guid then (k.clubOnlineGuid c).erase guid else k.clubOnlineGuid c
    clubOnlineCount := fun c =>
      if c ∈ C.clubs guid then k.clubOnlineCount c - 1 else k.clubOnlineCount c }

def saddOnlineAll (guid : Guid) : Counters := { k with onlineAll := insert guid k.onlineAll }

end Counters

namespace System

variable (C : Cluster) (s : System)

/-- Where the queue sends the requests of a player. -/
def serverOf (guid : Guid) : Option ServerId := (s.queue guid).bind QueueSession.server

def zincrby (g : ServerId) (d : Int) : System := { s with counters := s.counters.zincrby C g d }

def setOnline (guid : Guid) (f : OnlineInfo → OnlineInfo) : System :=
  { s with online := Function.update s.online guid (f (s.online guid)) }

def setSession (me : ServerId) (guid : Guid) (f : PlayerSession → PlayerSession) : System :=
  { s with
    sessions := Function.update s.sessions me
      (Function.update (s.sessions me) guid (f (s.sessions me guid))) }

/-- `sessions.del` -/
def delSession (me : ServerId) (guid : Guid) : System := s.setSession me guid fun _ => .empty

def setTable (me : ServerId) (tableId : TableId) (t : Option Table) : System :=
  { s with tables := Function.update s.tables me (Function.update (s.tables me) tableId t) }

/-! ### From one server to another -/

def goServer (guid : Guid) (dest : ServerId) : System :=
  match s.queue guid with
  | none => s
  | some q =>
      { s with queue := Function.update s.queue guid (some { q with server := some dest }) }.setOnline
        guid fun o => { o with server := some dest }

/-- `CMD.Quit`; `del` was done before. -/
def quit (guid : Guid) : System :=
  { s with
    queue := Function.update s.queue guid none
    online := Function.update s.online guid .empty }

/-- `hmset` of the type and number of a server. -/
def arrive (me : ServerId) (guid : Guid) : System :=
  s.setOnline guid fun o =>
    { o with
      firstGameType := some (C.firstGameType me)
      secondGameType := some (C.secondGameType me)
      server := some me }

def activate (me : ServerId) (guid : Guid) : System :=
  s.setSession me guid fun p => { p with online := true, active := true }

def onSsChangeGame (me : ServerId) (guid : Guid) : System :=
  ((((s.activate me guid).arrive C me guid).zincrby C me 1).goServer guid me)

def onSsChangeTo (me : ServerId) (guid : Guid) : System :=
  (s.zincrby C me (-1)).delSession me guid

def switchFrom (me : ServerId) (guid : Guid) (roomId : ServerId) : System :=
  if roomId = me then s
  else
    ((((s.activate me guid).onSsChangeTo C roomId guid).zincrby C me 1).goServer guid me)

def switchToLobby (me : ServerId) (guid : Guid) : System :=
  if C.lobbyId guid = me then s
  else ((s.onSsChangeGame C (C.lobbyId guid) guid).zincrby C me (-1)).delSession me guid

/-- `is_player_in_lobby` -/
def isPlayerInLobby (guid : Guid) : Bool :=
  (s.online guid).server.isSome && decide ((s.online guid).firstGameType = some 1)

/-! ### Coming and going -/

def playerEnterRoom (me : ServerId) (guid : Guid) : System := s.arrive C me guid

def playerLoginServer (me : ServerId) (guid : Guid) : System :=
  { (s.activate me guid).arrive C me guid with counters := s.counters.login C guid me }

def playerLogoutServer (me : ServerId) (guid : Guid) : System :=
  if !(s.sessions me guid).online then s
  else if guid ∉ s.counters.onlineAll then s.delSession me guid
  else { (s.delSession me guid).quit guid with counters := s.counters.logout C guid me }

def playerExitRoom (me : ServerId) (guid : Guid) (offline : Bool) : System :=
  if !(s.sessions me guid).online then s
  else if !(s.sessions me guid).active || offline then s.playerLogoutServer C me guid
  else if s.isPlayerInLobby guid then s
  else (s.switchToLobby C me guid).delSession me guid

def playerKickoutRoom (me : ServerId) (guid : Guid) : System :=
  if !(s.sessions me guid).online then s
  else if (s.sessions me guid).active && !C.isInLobby me then
    if s.isPlayerInLobby guid then s else (s.switchToLobby C me guid).delSession me guid
  else s.playerExitRoom C me guid false

/-- The gate is told, too. -/
def playerKickoutServer (me : ServerId) (guid : Guid) : System :=
  if !(s.sessions me guid).online then s else s.playerLogoutServer C me guid

end System

/-! ### Tables -/

namespace Table

variable (t : Table)

def getFreeChairId : Option Nat :=
  if t.startCount ≤ t.players.keys.length then none
  else (List.range' 1 t.startCount).find? fun i => (t.players.lookup i).isNone

/-- `can_sit_down`; a reconnect asks for somebody on the chair. -/
def canSitDown (chair : Nat) (reconnect : Bool) (check : Reply Unit) : Reply Unit :=
  if reconnect then
    if (t.players.lookup chair).isSome then .done () else .refused .errorInternalUnkown
  else if (t.players.lookup chair).isSome then .refused .errorInternalUnkown
  else check

end Table

namespace System

variable (C : Cluster) (s : System)

def sitDown (me : ServerId) (tableId : TableId) (t : Table) (guid : Guid) (chair : Nat) : System :=
  ((s.setSession me guid fun p =>
      { p with tableId := some tableId, chairId := some chair, active := true }).setTable me tableId
    (some { t with players := t.players.insert chair guid })).setOnline guid fun o =>
      { o with table := some tableId, chair := some chair }

def playerSitDown (me : ServerId) (tableId : TableId) (guid : Guid) (chair : Nat)
    (reconnect : Bool) (env : Env) : System × Reply Unit :=
  match s.tables me tableId with
  | none => (s, .refused .notFindTable)
  | some t =>
      match t.canSitDown chair reconnect (env.tableCheck tableId) with
      | .done _ => (s.sitDown me tableId t guid chair, .done ())
      | reply => (s, reply)

def doDismiss (me : ServerId) (tableId : TableId) : System :=
  { s.setTable me tableId none with
    tableAll := s.tableAll.erase tableId
    privateTable := Function.update s.privateTable tableId none }

/-- What `player_stand_up` does to the chair, the player and Redis. -/
def vacate (me : ServerId) (tableId : TableId) (t : Table) (guid : Guid) (chair : Nat) : System :=
  ((s.setSession me guid fun p => { p with tableId := none, chairId := none }).setTable me tableId
    (some { t with players := t.players.erase chair })).setOnline guid fun o =>
      { o with globalTable := none, table := none, chair := none }

/-- Whether the player is off the table, too. A new owner is looked for among the others, and
they are asked to leave when none can pay. -/
def playerStandUp (me : ServerId) (guid : Guid) (reason : StandupReason) (env : Env) :
    System × Bool :=
  match (s.sessions me guid).tableId, (s.sessions me guid).chairId with
  | some tableId, some chair =>
      match s.tables me tableId with
      | none => (s, false)
      | some t =>
          if env.canStandUp reason && !(env.isRoundFree && decide (reason = .offline)) then
            let s' := s.vacate me tableId t guid chair
            (if t.players.keys.length = 1 then s'.doDismiss me tableId else s', true)
          else if reason = .offline then
            -- `on_offline`
            (s.setSession me guid fun p => { p with active := false }, false)
          else (s, false)
  | _, _ => (s, false)

/-- `kickout_room`, `kickout_server` and `exit_server`, which differ in what they do in a lobby,
without a table, and once the player stands. -/
def leaveRoom (me : ServerId) (guid : Guid) (reason : StandupReason) (env : Env)
    (inLobby noTable stood : System → System) : System :=
  if !(s.sessions me guid).online then s
  else if C.isInLobby me then inLobby s
  else
    match (s.sessions me guid).tableId, (s.sessions me guid).chairId with
    | some tableId, some _ =>
        if (s.tables me tableId).isNone then noTable s
        else
          match s.playerStandUp me guid reason env with
          | (s', true) => stood s'
          | (s', false) => s'
    | _, _ => s

def kickoutRoom (me : ServerId) (guid : Guid) (reason : StandupReason) (env : Env) : System :=
  s.leaveRoom C me guid reason env (fun s => s.playerLogoutServer C me guid)
    (fun s => s.playerKickoutRoom C me guid) fun s => s.playerKickoutRoom C me guid

def kickoutServer (me : ServerId) (guid : Guid) (reason : StandupReason) (env : Env) : System :=
  s.leaveRoom C me guid reason env (fun s => s.playerKickoutServer C me guid)
    (fun s => s.playerKickoutServer C me guid) fun s => s.playerKickoutServer C me guid

/-- `exit_server`, which is only called for players who went offline. -/
def exitServer (me : ServerId) (guid : Guid) (env : Env) : System :=
  s.leaveRoom C me guid .offline env (fun s => s.playerLogoutServer C me guid)
    (fun s => s.playerExitRoom C me guid true) fun s => s.playerLogoutServer C me guid

/-- `async_force_exit` and `force_exit`, for a player at a table. -/
def forceExit (me : ServerId) (guid : Guid) (reason : StandupReason) (env : Env) : System :=
  if (s.sessions me guid).tableId.isNone || (s.sessions me guid).chairId.isNone then s
  else s.kickoutRoom C me guid reason env

def standUpAndExitRoom (me : ServerId) (guid : Guid) (env : Env) : System :=
  if C.isInLobby me || !(s.sessions me guid).online then s
  else
    match (s.sessions me guid).tableId, (s.sessions me guid).chairId with
    | some tableId, some chair =>
        if ((s.tables me tableId).bind fun t => t.players.lookup chair) ≠ some guid then s
        else
          match s.playerStandUp me guid .normal env with
          | (s', true) => s'.playerExitRoom C me guid false
          | (s', false) => s'
    | _, _ => s

/-! ### Creating and joining a table -/

/-- The first number that is free, of at most 10000; the last one drawn if none is. -/
def drawTableId (env : Env) : TableId :=
  let draws := env.draws.take 10000
  (draws.find? fun id => id ∉ s.tableAll).getD (draws.getLastD 0)

def hasSeat (me : ServerId) (guid : Guid) : Bool :=
  (s.sessions me guid).tableId.isSome || (s.sessions me guid).chairId.isSome

def newTable (me : ServerId) (tableId : TableId) (chairCount : Nat) : System :=
  { s.setTable me tableId (some ⟨chairCount, ∅⟩) with tableAll := insert tableId s.tableAll }

/-- What follows on `player_sit_down` in `create_private_table` and `join_private_table`. -/
def enterTable (me : ServerId) (tableId : TableId) (guid : Guid) : System :=
  (s.playerEnterRoom C me guid).setOnline guid fun o => { o with globalTable := some tableId }

def createPrivateTable (me : ServerId) (guid : Guid) (chairCount : Nat) (rule : Rule) (env : Env) :
    System × Reply TableId :=
  if s.hasSeat me guid then (s, .refused .playerOnChair)
  else if env.lessRoomCard then (s, .refused .errorLessRoomCard)
  else
    let tableId := s.drawTableId env
    let s₁ := s.newTable me tableId chairCount
    if !env.privateInit then (s₁, .raised)
    else
      match s₁.playerSitDown me tableId guid 1 false env with
      | (s₂, .done _) =>
          ({ s₂.enterTable C me tableId guid with
              privateTable := Function.update s₂.privateTable tableId (some ⟨me, none, rule⟩) },
            .done tableId)
      | (s₂, .refused code) =>
          ({ s₂.setTable me tableId none with tableAll := s₂.tableAll.erase tableId },
            .refused code)
      | (s₂, .raised) => (s₂, .raised)

/-- `hmset` of the club of a table. -/
def setTableClub (tableId : TableId) (clubId : ClubId) : System :=
  { s with
    privateTable := Function.update s.privateTable tableId
      ((s.privateTable tableId).map fun info => { info with clubId := some clubId }) }

/-- `base_club:create_table` and `fast_create_table` after its check: the table is announced with
the number of its template, whether there is one or not. -/
def clubCreateTable (me : ServerId) (guid : Guid) (chairCount : Nat) (rule : Rule)
    (template : Bool) (clubId : ClubId) (env : Env) : System × Reply TableId :=
  match s.createPrivateTable C me guid chairCount rule env with
  | (s', .done tableId) =>
      (s'.setTableClub tableId clubId, if template then .done tableId else .raised)
  | reply => reply

def joinPrivateTable (me : ServerId) (guid : Guid) (tableId : TableId) (env : Env) :
    System × Reply Unit :=
  if s.hasSeat me guid then (s, .refused .playerOnChair)
  else
    match (s.tables me tableId).map Table.getFreeChairId with
    | none => (s, .refused .notFindTable)
    | some none => (s, .refused .noFreeChair)
    | some (some chair) =>
        match s.playerSitDown me tableId guid chair false env with
        | (s', .done _) => (s'.enterTable C me tableId guid, .done ())
        | reply => reply

/-- `base_club:join_table` -/
def clubJoinTable (me : ServerId) (guid : Guid) (tableId : TableId) (rule : Rule)
    (type : ClubType) (env : Env) : System × Reply Unit :=
  match clubCanSitDown type rule env.standing with
  | .done _ =>
      if (s.tables me tableId).isNone then (s, .refused .notFindTable)
      else if env.isBlockGamingWithOthers tableId then (s, .refused .errorBlockGaming)
      else s.joinPrivateTable C me guid tableId env
  | reply => (s, reply)

end System

/-! ### The requests -/

structure CreateRoom where
  gameType : GameType
  clubId : ClubId
  templateId : Nat
  /-- The decoded rule, if it can be decoded. -/
  rule : Option Rule

structure JoinRoom where
  reconnect : Bool
  tableId : TableId

structure FastJoinRoom where
  clubId : ClubId
  templateId : Nat
  gameId : GameType

/-- What a `CS_CreateRoom` asks for once its template and club are looked up. -/
structure Order where
  gameType : GameType
  rule : Rule
  template : Bool
  club : Option (ClubId × ClubType)

def CreateRoom.order (C : Cluster) (msg : CreateRoom) : Option Order :=
  let found : Option (GameType × Rule × Bool) :=
    if msg.templateId ≠ 0 then
      (C.template msg.templateId).map fun t => (t.gameType, t.rule, true)
    else msg.rule.map fun rule => (msg.gameType, rule, false)
  found.bind fun (gameType, rule, template) =>
    if msg.clubId = 0 then some ⟨gameType, rule, template, none⟩
    else (C.club msg.clubId).map fun type => ⟨gameType, rule, template, some (msg.clubId, type)⟩

namespace System

variable (C : Cluster) (s : System)

/-- `lock_action` keeps an error to itself. The request goes on with the result it had before,
which is the `ERROR_NONE` of `base_rule.check`. -/
def lockAction {α : Type} (value : α) : System × Reply α → System × Reply α
  | (s, .raised) => (s, .done value)
  | reply => reply

/-- The last steps of a room that was created or joined. -/
def enterFrom (me : ServerId) (guid : Guid) (gameId : Option ServerId) : System :=
  let s := s.setSession me guid fun p => { p with active := true }
  match gameId with
  | none => s
  | some roomId => s.switchFrom C me guid roomId

def orderTable (me : ServerId) (guid : Guid) (order : Order) (chairCount : Nat) (env : Env) :
    PayOption → System × Reply TableId
  | .boss =>
      match order.club with
      | none => (s, .refused .errorClubNotFound)
      | some (clubId, type) =>
          lockAction 0
            (match clubCanSitDown type order.rule env.standing with
              | .done _ =>
                  s.clubCreateTable C me guid chairCount order.rule order.template clubId env
              | .refused code => (s, .refused code)
              | .raised => (s, .raised))
  | .aa | .roomOwner => s.createPrivateTable C me guid chairCount order.rule env
  | .other => (s, .refused .errorOperationInvalid)

/-- `on_cs_create_private_room` on a server of the game that is asked for. -/
def createRoomHere (me : ServerId) (guid : Guid) (order : Order) (gameId : Option ServerId)
    (env : Env) : System :=
  if env.gameMaintain then s
  else
    match order.rule.check (C.privateConf me) with
    | .done (chairCount, pay) =>
        match s.orderTable C me guid order chairCount env pay with
        | (s', .done _) => s'.enterFrom C me guid gameId
        | (s', _) => s'
    | _ => s

def createRoomRefused (me : ServerId) (guid : Guid) (env : Env) : Bool :=
  env.globalMaintain && !env.vip || (s.online guid).table.isSome || s.hasSeat me guid

/-- The lightest server of a game: the first of those with the least score. -/
def findBestRoom (type : GameType) : Option ServerId :=
  (C.allGameServer type).minOn? fun g => s.counters.typeCount (type, g)

def onCsCreatePrivateRoom (me : ServerId) (guid : Guid) (msg : CreateRoom) (env : Env) : System :=
  if s.createRoomRefused me guid env then s
  else
    match msg.order C with
    | none => s
    | some order =>
        if C.firstGameType me = order.gameType then s.createRoomHere C me guid order none env
        else
          match s.findBestRoom C order.gameType with
          | none => s
          | some room =>
              -- the request is handled again over there, from the top
              if s.createRoomRefused room guid env then s
              else s.createRoomHere C room guid order (some me) env

def takeTable (me : ServerId) (guid : Guid) (tableId : TableId) (info : PrivateTable) (env : Env) :
    PayOption → System × Reply Unit
  | .boss =>
      match info.clubId.bind C.club with
      | none => (s, .refused .errorClubNotFound)
      | some type => lockAction () (s.clubJoinTable C me guid tableId info.rule type env)
  | .aa | .roomOwner => s.joinPrivateTable C me guid tableId env
  | .other => (s, .refused .errorParameterError)

/-- `on_cs_join_private_room` on the server of the table. -/
def joinRoomHere (me : ServerId) (guid : Guid) (tableId : TableId) (info : PrivateTable)
    (gameId : Option ServerId) (env : Env) : System :=
  if (s.online guid).table.isSome || (s.online guid).chair.isSome then s
  else if env.globalMaintain && !env.vip || env.gameMaintain then s
  else
    match info.rule.check (C.privateConf me) with
    | .done (_, pay) =>
        match s.takeTable C me guid tableId info env pay with
        | (s', .done _) => s'.enterFrom C me guid gameId
        | (s', _) => s'
    | _ => s

def onCsJoinPrivateRoom (me : ServerId) (guid : Guid) (msg : JoinRoom) (env : Env) : System :=
  match if msg.reconnect then (s.online guid).globalTable else some msg.tableId with
  | none => s
  | some tableId =>
      match s.privateTable tableId with
      | none => s
      | some info =>
          s.joinRoomHere C info.roomId guid tableId info
            (if me = info.roomId then none else some me) env

/-- `do_reconnect` on the server of the table. -/
def reconnectHere (me : ServerId) (guid : Guid) (tableId : TableId) (chair : Nat) (env : Env) :
    System :=
  match s.playerSitDown me tableId guid chair true env with
  | (s', .done _) => s'.setSession me guid fun p => { p with active := true }
  | (s', _) => s'

def onCsReconnectJoinRoom (guid : Guid) (env : Env) : System :=
  match (s.online guid).table, (s.online guid).chair with
  | some tableId, some chair =>
      match (s.online guid).globalTable.bind s.privateTable with
      | none => s
      | some info => s.reconnectHere info.roomId guid tableId chair env
  | _, _ => s

/-- One table of `on_ss_fast_join_room`; without a reply the next one has its turn. -/
def fastJoinTable (me : ServerId) (guid : Guid) (type : ClubType) (gameId : ServerId) (env : Env)
    (tableId : TableId) : Option (System × Reply Unit) :=
  match s.privateTable tableId, s.tables me tableId with
  | some info, some t =>
      match clubCanSitDown type info.rule env.standing with
      | .raised => some (s, .raised)
      | .refused _ => none
      | .done _ =>
          if env.isBlockGamingWithOthers tableId then none
          else
            match t.getFreeChairId with
            | none => none
            | some chair =>
                match t.canSitDown chair false (env.tableCheck tableId) with
                | .raised => some (s, .raised)
                | .refused _ => none
                | .done _ =>
                    if (s.online guid).table.isSome || (s.online guid).chair.isSome then
                      some (s, .refused .inRoom)
                    else
                      match s.playerSitDown me tableId guid chair false env with
                      | (s', .done _) =>
                          some ((s'.enterTable C me tableId guid).enterFrom C me guid
                            (some gameId), .done ())
                      | reply => some reply
  | _, _ => none

def onSsFastJoinRoom (me : ServerId) (guid : Guid) (type : ClubType) (gameId : ServerId)
    (env : Env) : System × Reply Unit :=
  if env.gameMaintain then (s, .refused .maintain)
  else ((env.freeTables me).findSome? (s.fastJoinTable C me guid type gameId env)).getD
    (s, .refused .notFindTable)

def onSsFastCreateRoom (me : ServerId) (guid : Guid) (clubId : ClubId) (type : ClubType)
    (rule : Rule) (gameId : ServerId) (env : Env) : System :=
  if env.gameMaintain then s
  else
    match clubCanSitDown type rule env.standing, rule.check (C.privateConf me) with
    | .done _, .done (chairCount, _) =>
        if (s.online guid).table.isSome || (s.online guid).chair.isSome then s
        else
          match s.clubCreateTable C me guid chairCount rule true clubId env with
          | (s', .done _) => s'.enterFrom C me guid (some gameId)
          | (s', _) => s'
    | _, _ => s

/-- The rooms one after another, and a new table in the last one. -/
def fastJoinRooms (me : ServerId) (guid : Guid) (clubId : ClubId) (type : ClubType) (rule : Rule)
    (env : Env) : List ServerId → System → System
  | [], s =>
      match env.rooms.getLast? with
      | none => s
      | some room => s.onSsFastCreateRoom C room guid clubId type rule me env
  | room :: rooms, s =>
      match s.onSsFastJoinRoom C room guid type me env with
      | (s', .refused code) =>
          if code = .maintain || code = .inRoom || code = .inGame then s'
          else fastJoinRooms me guid clubId type rule env rooms s'
      | (s', _) => s'

def onCsFastJoinRoom (me : ServerId) (guid : Guid) (msg : FastJoinRoom) (env : Env) : System :=
  if msg.clubId = 0 || (msg.templateId = 0 && msg.gameId = 0) then s
  else
    match C.club msg.clubId, C.template msg.templateId with
    | some type, some template =>
        if env.globalMaintain && !env.vip then s
        else if (s.online guid).table.isSome || (s.online guid).chair.isSome then s
        else fastJoinRooms C me guid msg.clubId type template.rule env env.rooms s
    | _, _ => s

/-! ### Logging in and out -/

inductive LoginResult
  | errorNone | maintain
deriving DecidableEq

/-- With a flag that the player has a table to come back to. -/
def onLsLoginNotify (me : ServerId) (guid : Guid) (reconnect : Bool) (env : Env) :
    System × LoginResult × Bool :=
  let info := s.online guid
  let s' := s.setSession me guid fun p => { p with online := true }
  if reconnect || decide (info.server = some me) then
    match info.table with
    | some tableId => (s', .errorNone, (s.tables me tableId).isSome)
    | none => (s', .errorNone, false)
  else if env.globalMaintain && !env.vip then (s', .maintain, false)
  else (s'.playerLoginServer C me guid, .errorNone, false)

/-- `CMD.Login` from where it turns to the lobby. -/
def loginLobby (guid : Guid) (gate : Nat) (env : Env) : System × LoginResult × Bool :=
  let server := C.lobbyId guid
  let q := (s.queue guid).getD ⟨none, none⟩
  let s₀ := { s with queue := Function.update s.queue guid (some q) }
  match s₀.onLsLoginNotify C server guid false env with
  | (s', .errorNone, _) =>
      ({ s'.setOnline guid fun o => { o with gate := some gate } with
          queue := Function.update s'.queue guid (some ⟨some gate, some server⟩) },
        .errorNone, false)
  | (s', .maintain, _) => (s', .maintain, false)

/-- `CMD.Login`; the gate of an older connection drops it without a word to the servers. -/
def queueLogin (guid : Guid) (gate : Nat) (env : Env) : System × LoginResult × Bool :=
  match s.serverOf guid with
  | none => s.loginLobby C guid gate env
  | some server =>
      if server ∈ C.allGameServer 1 then s.loginLobby C guid gate env
      else
        let s' := { s with
          queue := Function.update s.queue guid (some ⟨some gate, some server⟩) }.setOnline guid
            fun o => { o with gate := some gate }
        match s'.onLsLoginNotify C server guid true env with
        | (s', _, true) => (s', .errorNone, true)
        | (s', _, false) => s'.loginLobby C guid gate env

/-- `on_cl_login` of a player whose account has been verified. -/
def onClLogin (guid : Guid) (gate : Nat) (env : Env) : System :=
  match s.queueLogin C guid gate env with
  | (s', .errorNone, false) => { s' with counters := s'.counters.saddOnlineAll guid }
  | (s', _) => s'

/-- `logout` with the flag `offline`, which other servers pass on to that of the session. -/
def logout (guid : Guid) (env : Env) : System :=
  match (s.online guid).server with
  | none => s
  | some server =>
      (s.exitServer C server guid env).setSession server guid fun p => { p with active := false }

/-- `CMD.S` and `CMD.C` of the queue. -/
def send (guid : Guid) (handler : ServerId → System) : System :=
  match s.serverOf guid with
  | none => s
  | some server => handler server

end System

inductive Request
  | login (guid : Guid) (gate : Nat)
  | createRoom (guid : Guid) (msg : CreateRoom)
  | joinRoom (guid : Guid) (msg : JoinRoom)
  | fastJoinRoom (guid : Guid) (msg : FastJoinRoom)
  | reconnectJoinRoom (guid : Guid)
  | standUpAndExitRoom (guid : Guid)
  | logout (guid : Guid)
  /-- The connection is lost. -/
  | afk (guid : Guid)
  /-- A timer or the end of a game takes a player off the table. -/
  | forceExit (server : ServerId) (guid : Guid) (reason : StandupReason)

def step (C : Cluster) (s : System) : Request × Env → System
  | (.login guid gate, env) => s.onClLogin C guid gate env
  | (.createRoom guid msg, env) =>
      s.send guid fun me => s.onCsCreatePrivateRoom C me guid msg env
  | (.joinRoom guid msg, env) => s.send guid fun me => s.onCsJoinPrivateRoom C me guid msg env
  | (.fastJoinRoom guid msg, env) => s.send guid fun me => s.onCsFastJoinRoom C me guid msg env
  | (.reconnectJoinRoom guid, env) => s.send guid fun _ => s.onCsReconnectJoinRoom guid env
  | (.standUpAndExitRoom guid, env) => s.send guid fun me => s.standUpAndExitRoom C me guid env
  | (.logout guid, env) => s.send guid fun me => s.kickoutServer C me guid .normal env
  | (.afk guid, env) => s.send guid fun _ => s.logout C guid env
  | (.forceExit server guid reason, env) => s.forceExit C server guid reason env

end FkServer.OnlineCounters
