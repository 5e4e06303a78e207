import FkServer.Library.Runs
import Mathlib.Data.Finset.Card
import Mathlib.Data.Finset.Lattice.Basic
import Mathlib.Data.List.AList
import Mathlib.Logic.Function.Basic

/-!
The chairs of one table of `base_table.lua`, and how `base_room.lua` seats players on them and
takes them off. A player's own fields and its entry in Redis are kept beside the chairs; the
requests hold the lock of the table, so one follows the other.
-/
namespace FkServer.Seats

inductive StandupReason
  | normal | dismiss | offline | force | adminDismissForce | dismissRequest | dismissTrustee
  | bankrupcy | tableTimeout | noReadyTimeout | maintain | roundEnd | blockGaming | clubClose
  | delayKickoutTimeout | lessRoomFee
deriving DecidableEq

inductive ExtRoundStatus
  | free | gaming | over
deriving DecidableEq

/-- `table_id` and `chair_id` of a player, or `table` and `chair` of `player:online:guid`. -/
structure Seat where
  tableId : Option Nat
  chairId : Option Nat
deriving DecidableEq

namespace Seat

def none : Seat := ⟨.none, .none⟩
def «at» (table chair : Nat) : Seat := ⟨some table, some chair⟩

end Seat

structure Table where
  tableId : Nat
  chairCount : Nat
  startCount : Nat
  players : AList fun _ : Nat => Nat
  playerCount : Int
  readyList : Finset Nat
  extRoundStatus : Option ExtRoundStatus
  isPrivate : Bool
  dismissing : Bool
  /-- `is_table_exists` of the room. -/
  isTableExists : Bool
  owner : Nat
  seat : Nat → Seat
  online : Nat → Seat

/-- What is answered from outside: `check_cheat_control`, `is_play`, `can_dismiss` and
`check_ready` of the game, whether the club lets the player in, who can pay for the room, who
is a robot, whether the player is online, and whether leaving drops the player's object. -/
structure Env where
  cheat : Bool
  play : Bool
  canDismiss : Bool
  checkReady : Bool
  club : Bool
  pays : Nat → Bool
  android : Nat → Bool
  online : Bool
  drops : Bool

/-- `tranfer_owner_reason` -/
def StandupReason.transfersOwner : StandupReason → Bool
  | .offline | .normal | .force | .dismissTrustee | .bankrupcy | .roundEnd | .blockGaming
  | .delayKickoutTimeout => true
  | _ => false

/-- The reasons after which the others may start. -/
def StandupReason.checksStart : StandupReason → Bool
  | .offline | .normal | .force | .bankrupcy | .noReadyTimeout => true
  | _ => false

namespace Table

variable (t : Table)

def isAlive : Bool := t.isTableExists && !t.dismissing

def isRoundGaming : Bool := !t.isPrivate || decide (t.extRoundStatus = some .gaming)

def isRoundFree : Bool :=
  !t.isPrivate || decide (t.extRoundStatus = none) || decide (t.extRoundStatus = some .free)

/-! ### Sitting down -/

/-- For a reconnect any player on the chair will do. -/
def canSitDown (chair : Nat) (reconnect : Bool) (env : Env) : Bool :=
  if reconnect then (t.players.lookup chair).isSome
  else (t.players.lookup chair).isNone && env.cheat && !(t.isRoundGaming || env.play)

def sitDown (player chair : Nat) : Table :=
  { t with
    seat := Function.update t.seat player (Seat.at t.tableId chair)
    players := t.players.insert chair player
    playerCount := t.playerCount + 1
    online := Function.update t.online player (Seat.at t.tableId chair) }

def playerSitDown (player chair : Nat) (reconnect : Bool) (env : Env) : Option Table :=
  if t.isAlive && t.canSitDown chair reconnect env then some (t.sitDown player chair) else none

def getFreeChairId : Option Nat :=
  if t.startCount ≤ t.players.keys.length then none
  else (List.range' 1 t.startCount).find? fun i => (t.players.lookup i).isNone

def joinPrivateTable (player : Nat) (env : Env) : Table :=
  if (t.seat player).tableId.isSome || (t.seat player).chairId.isSome then t
  else if !t.isTableExists then t
  else
    match t.getFreeChairId with
    | none => t
    | some chair => (t.playerSitDown player chair false env).getD t

/-- One table of `on_ss_fast_join_room`, which `find_free_tables` has to offer. -/
def fastJoinRoom (player : Nat) (env : Env) : Table :=
  if !t.isTableExists || decide (t.chairCount ≤ t.players.keys.length) || !env.club then t
  else
    match t.getFreeChairId with
    | none => t
    | some chair =>
        if t.canSitDown chair false env = false then t
        else if (t.online player).tableId.isSome || (t.online player).chairId.isSome then t
        else (t.playerSitDown player chair false env).getD t

/-- `base_room:reconnect` -/
def reconnect (player chair : Nat) (env : Env) : Table :=
  if !t.isTableExists then t else (t.playerSitDown player chair true env).getD t

/-- `do_reconnect`: the seat is the one in Redis. -/
def doReconnect (player : Nat) (env : Env) : Table :=
  match (t.online player).tableId, (t.online player).chairId with
  | some table, some chair => if table = t.tableId then t.reconnect player chair env else t
  | _, _ => t

/-- `enter_room` of a player who comes back. -/
def enterRoom (player : Nat) : Table :=
  { t with seat := Function.update t.seat player (t.online player) }

/-! ### Starting -/

def onStarted (playerCount : Nat) : Table :=
  if t.isPrivate then { t with extRoundStatus := some .gaming, playerCount := playerCount } else t

def start (playerCount : Nat) (env : Env) : Table :=
  if env.play then t else t.onStarted playerCount

def checkStart (env : Env) : Table :=
  if t.startCount ≤ t.readyList.card then t.start t.readyList.card env else t

/-- The chairs of the robots. -/
def androidChairs (env : Env) : List Nat :=
  t.players.entries.filterMap fun entry =>
    if env.android entry.2 then (t.seat entry.2).chairId else none

def readyAll (chair : Nat) (env : Env) : Table :=
  { t with readyList := insert chair t.readyList ∪ (t.androidChairs env).toFinset }

def readyOn (chair : Nat) (env : Env) : Table :=
  if !t.isAlive || decide (chair ∈ t.readyList) then t
  else (t.readyAll chair env).checkStart env

/-- `ready`, of the table that the player's fields name. -/
def ready (player : Nat) (env : Env) : Table :=
  if env.checkReady && decide ((t.seat player).tableId = some t.tableId) then
    match (t.seat player).chairId with
    | none => t
    | some chair => t.readyOn chair env
  else t

/-! ### Standing up -/

def canStandUp (reason : StandupReason) (env : Env) : Bool :=
  match reason with
  | .normal | .offline | .force | .delayKickoutTimeout => !env.play && !t.isRoundGaming
  | _ => true

/-- The next player who can be the owner, going round from the owner's chair. -/
def nextPlayer (chair : Nat) (env : Env) : Option Nat :=
  (List.range' chair (t.chairCount - 1)).findSome? fun i =>
    (t.players.lookup (i % t.chairCount + 1)).filter env.pays

def transferOwner (chair : Nat) (env : Env) : Option Table :=
  (t.nextPlayer chair env).map fun player => { t with owner := player }

def interruptDismiss : Table := { t with dismissing := true, readyList := ∅ }

def doDismiss (env : Env) : Table :=
  if t.isTableExists && t.isPrivate && env.canDismiss then
    { t with
      isTableExists := false
      readyList := ∅
      isPrivate := false
      startCount := t.chairCount
      extRoundStatus := none }
  else t

def vacate (player chair : Nat) : Table :=
  { t with
    playerCount := t.playerCount - 1
    readyList := t.readyList.erase chair
    seat := Function.update t.seat player Seat.none
    players := t.players.erase chair
    online := Function.update t.online player Seat.none }

/-- What follows once the chair is free; `playerCount` was counted before. -/
def afterStandUp (transferred : Bool) (playerCount : Nat) (reason : StandupReason) (env : Env) :
    Table :=
  if transferred = false then t.interruptDismiss
  else if playerCount = 1 then t.doDismiss env
  else if reason.checksStart then t.checkStart env
  else t

/-- The new owner, or that there should be one and nobody is found. -/
def passOwner (player chair : Nat) (reason : StandupReason) (env : Env) : Table × Bool :=
  if t.isPrivate && reason.transfersOwner && decide (player = t.owner) &&
      decide (1 < t.players.keys.length) then
    match t.transferOwner chair env with
    | none => (t, false)
    | some t => (t, true)
  else (t, true)

def standUpFrom (player chair : Nat) (reason : StandupReason) (env : Env) : Table :=
  let passed := t.passOwner player chair reason env
  (passed.1.vacate player chair).afterStandUp passed.2 t.players.keys.length reason env

/-- Whether the player is off the table, too. -/
def playerStandUp (player : Nat) (reason : StandupReason) (env : Env) : Table × Bool :=
  if !t.isTableExists then (t, false)
  else
    match (t.seat player).tableId, (t.seat player).chairId with
    | some _, some chair =>
        if t.canStandUp reason env then
          -- who goes offline before the first round is only kicked out later
          if t.isPrivate && t.isRoundFree && decide (reason = .offline) then (t, false)
          else (t.standUpFrom player chair reason env, true)
        else (t, false)
    | _, _ => (t, false)

/-- `force_stand_up` and `change_chair`, by way of the table that the player's fields name. -/
def standUp (player : Nat) (reason : StandupReason) (env : Env) : Table :=
  if (t.seat player).tableId = some t.tableId then (t.playerStandUp player reason env).1 else t

/-- The player's object is dropped; the next one has no seat. -/
def dropPlayer (player : Nat) (env : Env) : Table :=
  if env.drops then { t with seat := Function.update t.seat player Seat.none } else t

/-- `kickout_room`, and in the same way `kickout_server`, `exit_room` and `exit_server`. -/
def kickoutRoom (player : Nat) (reason : StandupReason) (env : Env) : Table :=
  if !env.online || (t.seat player).chairId.isNone then t
  else if (t.seat player).tableId ≠ some t.tableId then t
  else if !t.isTableExists then t.dropPlayer player env
  else
    match t.playerStandUp player reason env with
    | (t, true) => t.dropPlayer player env
    | (t, false) => t

end Table

inductive Label
  | joinPrivateTable (player : Nat) (env : Env)
  | fastJoinRoom (player : Nat) (env : Env)
  | reconnect (player chair : Nat) (env : Env)
  | doReconnect (player : Nat) (env : Env)
  | enterRoom (player : Nat)
  | ready (player : Nat) (env : Env)
  | standUp (player : Nat) (reason : StandupReason) (env : Env)
  | kickoutRoom (player : Nat) (reason : StandupReason) (env : Env)
  | interruptDismiss
  /-- Everybody has been told to leave. -/
  | dismissed
  /-- The game ends a round. -/
  | round (status : Option ExtRoundStatus)

def step (t : Table) : Label → Table
  | .joinPrivateTable player env => t.joinPrivateTable player env
  | .fastJoinRoom player env => t.fastJoinRoom player env
  | .reconnect player chair env => t.reconnect player chair env
  | .doReconnect player env => t.doReconnect player env
  | .enterRoom player => t.enterRoom player
  | .ready player env => t.ready player env
  | .standUp player reason env => t.standUp player reason env
  | .kickoutRoom player reason env => t.kickoutRoom player reason env
  | .interruptDismiss => t.interruptDismiss
  | .dismissed => { t with dismissing := false }
  | .round status => { t with extRoundStatus := status }

/-- `new_table` and `private_init` -/
def newTable (tableId chairCount owner : Nat) (seat online : Nat → Seat) : Table where
  tableId := tableId
  chairCount := chairCount
  startCount := chairCount
  players := ∅
  playerCount := 0
  readyList := ∅
  extRoundStatus := some .free
  isPrivate := true
  dismissing := false
  isTableExists := true
  owner := owner
  seat := seat
  online := online

/-- `create_private_table`: a table number that is not in use, and its owner on the first chair. -/
def createPrivateTable (tableId chairCount owner : Nat) (seat online : Nat → Seat) (env : Env) :
    Option Table :=
  if (seat owner).tableId.isSome || (seat owner).chairId.isSome then none
  else (newTable tableId chairCount owner seat online).playerSitDown owner 1 false env

def Initial (t : Table) : Prop :=
  ∃ tableId chairCount owner seat online env,
    0 < chairCount ∧ (∀ p, (seat p).tableId ≠ some tableId ∧ (online p).tableId ≠ some tableId) ∧
      createPrivateTable tableId chairCount owner seat online env = some t

abbrev TableReaches (ok : Table → Label → Prop) : Table → Prop :=
  Runs.Reaches Initial (fun t l t' => step t l = t') ok

/-- The seats are kept in order. -/
structure Seated (t : Table) : Prop where
  count : t.playerCount = t.players.keys.length
  seat : ∀ chair player, t.players.lookup chair = some player →
    t.seat player = Seat.at t.tableId chair
  once : ∀ chair chair' player, t.players.lookup chair = some player →
    t.players.lookup chair' = some player → chair = chair'

/-- The guard: nobody reconnects to a chair that is taken. -/
def NobodyThere (t : Table) : Label → Prop
  | .reconnect _ chair _ => t.isAlive = true → t.players.lookup chair = none
  | .doReconnect player _ => ∀ chair, t.online player = Seat.at t.tableId chair →
      t.isAlive = true → t.players.lookup chair = none
  | _ => True

/-! ### What every step keeps -/

/-- With the fields of the players, and the other way round: who has this table sits on it. -/
structure Kept (t : Table) : Prop where
  count : t.playerCount = t.players.keys.length
  seated : ∀ chair player, t.players.lookup chair = some player →
    t.seat player = Seat.at t.tableId chair ∧ t.online player = Seat.at t.tableId chair
  back : ∀ player, (t.seat player).tableId = some t.tableId ∨
    (t.online player).tableId = some t.tableId → ∃ chair, t.players.lookup chair = some player
  chairs : ∀ chair ∈ t.players, 1 ≤ chair ∧ chair ≤ t.startCount
  ready : ∀ chair ∈ t.readyList, chair ∈ t.players
  gone : t.isTableExists = false → t.players = ∅

variable {t t' : Table} {player chair : Nat} {env : Env}

theorem mem_of_lookup (sits : t.players.lookup chair = some player) : chair ∈ t.players :=
  AList.lookup_isSome.1 (Option.isSome_iff_exists.2 ⟨player, sits⟩)

theorem Kept.seatedTable (inv : Kept t) : Seated t where
  count := inv.count
  seat := fun chair player h => (inv.seated chair player h).1
  once := by
    intro chair chair' player h h'
    have same := (inv.seated chair player h).1.symm.trans (inv.seated chair' player h').1
    exact Option.some.inj (congrArg Seat.chairId same)

theorem Kept.not_seated (inv : Kept t)
    (away : (t.seat player).chairId = none ∨ (t.online player).chairId = none) (chair : Nat) :
    t.players.lookup chair ≠ some player := by
  intro h
  have here := inv.seated chair player h
  cases away with
  | inl none =>
      rw [here.1] at none
      cases none
  | inr none =>
      rw [here.2] at none
      cases none

theorem getFreeChairId_spec (h : t.getFreeChairId = some chair) :
    t.players.lookup chair = none ∧ 1 ≤ chair ∧ chair ≤ t.startCount := by
  rw [Table.getFreeChairId] at h
  split at h
  · cases h
  · have free := List.find?_some h
    have range := List.mem_range'_1.1 (List.mem_of_find?_eq_some h)
    exact ⟨Option.isNone_iff_eq_none.1 free, range.1, by omega⟩

theorem playerSitDown_eq {reconnect : Bool}
    (h : t.playerSitDown player chair reconnect env = some t') :
    t.isAlive = true ∧ t.canSitDown chair reconnect env = true ∧ t' = t.sitDown player chair := by
  rw [Table.playerSitDown] at h
  split at h
  · rename_i allowed
    have both := Bool.and_eq_true_iff.1 allowed
    exact ⟨both.1, both.2, (Option.some.inj h).symm⟩
  · cases h

theorem isTableExists_of_isAlive (h : t.isAlive = true) : t.isTableExists = true :=
  (Bool.and_eq_true_iff.1 h).1

theorem sitDown_of_ne {p : Nat} (other : p ≠ player) (chair : Nat) :
    (t.sitDown player chair).seat p = t.seat p ∧ (t.sitDown player chair).online p = t.online p :=
  ⟨Function.update_of_ne other .., Function.update_of_ne other ..⟩

/-- A player from elsewhere sits down on a free chair. -/
theorem Kept.sitDown (inv : Kept t) (away : ∀ chair, t.players.lookup chair ≠ some player)
    (free : t.players.lookup chair = none) (range : 1 ≤ chair ∧ chair ≤ t.startCount)
    (alive : t.isTableExists = true) : Kept (t.sitDown player chair) := by
  have fresh : chair ∉ t.players := AList.lookup_eq_none.1 free
  have here : (t.players.insert chair player).lookup chair = some player := AList.lookup_insert _
  have elsewhere : ∀ c, c ≠ chair → (t.players.insert chair player).lookup c = t.players.lookup c :=
    fun c other => AList.lookup_insert_ne other
  refine ⟨?_, fun c p h => ?_, fun p h => ?_, fun c h => ?_, fun c h => ?_, fun h => ?_⟩
  · show t.playerCount + 1 = ((t.players.insert chair player).keys.length : Int)
    rw [AList.keys_insert, List.length_cons, List.erase_of_not_mem fresh, inv.count]
    rfl
  · by_cases same : c = chair
    · rw [same] at h ⊢
      rw [Option.some.inj (h.symm.trans here)]
      exact ⟨Function.update_self .., Function.update_self ..⟩
    · have before : t.players.lookup c = some p := (elsewhere c same).symm.trans h
      have other : p ≠ player := by
        intro eq
        rw [eq] at before
        exact away c before
      rw [(sitDown_of_ne other chair).1, (sitDown_of_ne other chair).2]
      exact inv.seated c p before
  · by_cases same : p = player
    · rw [same]
      exact ⟨chair, here⟩
    · rw [(sitDown_of_ne same chair).1, (sitDown_of_ne same chair).2] at h
      obtain ⟨c, sits⟩ := inv.back p h
      have other : c ≠ chair := by
        intro eq
        rw [eq, free] at sits
        cases sits
      exact ⟨c, (elsewhere c other).trans sits⟩
  · cases (AList.mem_insert t.players).1 h with
    | inl eq =>
        rw [eq]
        exact range
    | inr old => exact inv.chairs c old
  · exact (AList.mem_insert t.players).2 (.inr (inv.ready c h))
  · exact absurd (alive.symm.trans h) Bool.noConfusion

theorem Kept.playerSitDown (inv : Kept t) (away : ∀ chair, t.players.lookup chair ≠ some player)
    (found : t.getFreeChairId = some chair) :
    Kept ((t.playerSitDown player chair false env).getD t) := by
  obtain ⟨free, range⟩ := getFreeChairId_spec found
  cases h : t.playerSitDown player chair false env with
  | none => exact inv
  | some t' =>
      obtain ⟨alive, -, eq⟩ := playerSitDown_eq h
      rw [eq]
      exact inv.sitDown away free range (isTableExists_of_isAlive alive)

theorem Kept.joinPrivateTable (inv : Kept t) : Kept (t.joinPrivateTable player env) := by
  rw [Table.joinPrivateTable]
  split
  · exact inv
  · rename_i seatless
    have chairless : (t.seat player).chairId = none := by
      rw [Bool.or_eq_true, not_or, Option.not_isSome_iff_eq_none] at seatless
      exact Option.not_isSome_iff_eq_none.1 seatless.2
    split
    · exact inv
    · split
      · exact inv
      · rename_i found
        exact inv.playerSitDown (inv.not_seated (.inl chairless)) found

theorem Kept.fastJoinRoom (inv : Kept t) : Kept (t.fastJoinRoom player env) := by
  rw [Table.fastJoinRoom]
  split
  · exact inv
  · split
    · exact inv
    · rename_i found
      split
      · exact inv
      · split
        · exact inv
        · rename_i seatless
          have chairless : (t.online player).chairId = none := by
            rw [Bool.or_eq_true, not_or, Option.not_isSome_iff_eq_none] at seatless
            exact Option.not_isSome_iff_eq_none.1 seatless.2
          exact inv.playerSitDown (inv.not_seated (.inr chairless)) found

theorem vacate_of_ne {p : Nat} (other : p ≠ player) (chair : Nat) :
    (t.vacate player chair).seat p = t.seat p ∧ (t.vacate player chair).online p = t.online p :=
  ⟨Function.update_of_ne other .., Function.update_of_ne other ..⟩

theorem vacate_self (player chair : Nat) :
    (t.vacate player chair).seat player = Seat.none ∧
      (t.vacate player chair).online player = Seat.none :=
  ⟨Function.update_self .., Function.update_self ..⟩

theorem Kept.vacate (inv : Kept t) (sits : t.players.lookup chair = some player) :
    Kept (t.vacate player chair) := by
  have member : chair ∈ t.players := mem_of_lookup sits
  refine ⟨?_, fun c p h => ?_, fun p h => ?_, fun c h => ?_, fun c h => ?_, fun h => ?_⟩
  · show t.playerCount - 1 = ((t.players.erase chair).keys.length : Int)
    rw [AList.keys_erase, List.length_erase_of_mem (AList.mem_keys.1 member), inv.count]
    have positive := List.length_pos_of_mem (AList.mem_keys.1 member)
    omega
  · have other : c ≠ chair := by
      intro eq
      rw [eq] at h
      cases (AList.lookup_erase chair t.players).symm.trans h
    have before : t.players.lookup c = some p := (AList.lookup_erase_ne other).symm.trans h
    have stays : p ≠ player := by
      intro eq
      rw [eq] at before
      exact other (inv.seatedTable.once c chair player before sits)
    rw [(vacate_of_ne stays chair).1, (vacate_of_ne stays chair).2]
    exact inv.seated c p before
  · have stays : p ≠ player := by
      intro eq
      rw [eq, (vacate_self player chair).1, (vacate_self player chair).2] at h
      cases h with
      | inl h => cases h
      | inr h => cases h
    rw [(vacate_of_ne stays chair).1, (vacate_of_ne stays chair).2] at h
    obtain ⟨c, before⟩ := inv.back p h
    have other : c ≠ chair := by
      intro eq
      rw [eq] at before
      exact stays (Option.some.inj (before.symm.trans sits))
    exact ⟨c, (AList.lookup_erase_ne other).trans before⟩
  · exact inv.chairs c (AList.mem_erase.1 h).2
  · obtain ⟨other, before⟩ := Finset.mem_erase.1 h
    exact AList.mem_erase.2 ⟨other, inv.ready c before⟩
  · have empty := inv.gone h
    rw [empty] at sits
    cases sits

/-- Who starts is everybody: no chair is left when enough are ready. -/
theorem Kept.ready_all (inv : Kept t) (enough : t.startCount ≤ t.readyList.card) :
    t.readyList.card = t.players.keys.length := by
  have ready : t.readyList.card ≤ t.players.keys.toFinset.card := by
    apply Finset.card_le_card
    intro c h
    exact List.mem_toFinset.2 (AList.mem_keys.1 (inv.ready c h))
  have seated : t.players.keys.toFinset.card ≤ (List.range' 1 t.startCount).toFinset.card := by
    apply Finset.card_le_card
    intro c h
    obtain ⟨low, high⟩ := inv.chairs c (AList.mem_keys.2 (List.mem_toFinset.1 h))
    exact List.mem_toFinset.2 (List.mem_range'_1.2 ⟨low, by omega⟩)
  rw [List.toFinset_card_of_nodup t.players.keys_nodup] at ready seated
  rw [List.toFinset_card_of_nodup (List.nodup_range' ..), List.length_range'] at seated
  omega

theorem Kept.checkStart (inv : Kept t) (env : Env) : Kept (t.checkStart env) := by
  rw [Table.checkStart]
  split
  · rename_i enough
    rw [Table.start]
    split
    · exact inv
    · rw [Table.onStarted]
      split
      · have all := congrArg (Nat.cast : Nat → Int) (inv.ready_all enough)
        exact ⟨all, inv.seated, inv.back, inv.chairs, inv.ready, inv.gone⟩
      · exact inv
  · exact inv

theorem Kept.interruptDismiss (inv : Kept t) : Kept t.interruptDismiss :=
  ⟨inv.count, inv.seated, inv.back, inv.chairs,
    fun _ h => absurd h (Finset.notMem_empty _), inv.gone⟩

theorem Kept.doDismiss (inv : Kept t) (empty : t.players = ∅) (env : Env) :
    Kept (t.doDismiss env) := by
  rw [Table.doDismiss]
  split
  · refine ⟨inv.count, inv.seated, inv.back, fun c h => ?_, fun c h => ?_, fun _ => empty⟩
    · rw [empty] at h
      exact absurd h (AList.notMem_empty c)
    · exact absurd h (Finset.notMem_empty c)
  · exact inv

theorem passOwner_eq (t : Table) (player chair : Nat) (reason : StandupReason) (env : Env) :
    ∃ owner, (t.passOwner player chair reason env).1 = { t with owner := owner } := by
  rw [Table.passOwner]
  split
  · rw [Table.transferOwner]
    cases t.nextPlayer chair env with
    | none => exact ⟨t.owner, rfl⟩
    | some owner => exact ⟨owner, rfl⟩
  · exact ⟨t.owner, rfl⟩

theorem Kept.standUpFrom (inv : Kept t) (sits : t.players.lookup chair = some player)
    (reason : StandupReason) : Kept (t.standUpFrom player chair reason env) := by
  obtain ⟨owner, same⟩ := passOwner_eq t player chair reason env
  rw [Table.standUpFrom, same]
  have passed : Kept { t with owner := owner } :=
    ⟨inv.count, inv.seated, inv.back, inv.chairs, inv.ready, inv.gone⟩
  have left := passed.vacate sits
  rw [Table.afterStandUp]
  split
  · exact left.interruptDismiss
  · split
    · rename_i last
      refine left.doDismiss ?_ env
      have member : chair ∈ t.players.keys := AList.mem_keys.1 (mem_of_lookup sits)
      have none : (t.players.erase chair).keys.length = 0 := by
        rw [AList.keys_erase, List.length_erase_of_mem member, last]
      apply AList.ext
      exact List.map_eq_nil_iff.1 (List.length_eq_zero_iff.1 none)
    · split
      · exact left.checkStart env
      · exact left

/-- Starting or dismissing the table moves nobody. -/
theorem afterStandUp_seat (transferred : Bool) (n : Nat) (reason : StandupReason) :
    (t.afterStandUp transferred n reason env).seat = t.seat := by
  rw [Table.afterStandUp]
  split
  · rfl
  · split
    · rw [Table.doDismiss]
      split <;> rfl
    · split
      · rw [Table.checkStart]
        split
        · rw [Table.start]
          split
          · rfl
          · rw [Table.onStarted]
            split <;> rfl
        · rfl
      · rfl

/-- One whose fields name the table stands up, or nothing changes. -/
theorem Kept.playerStandUp (inv : Kept t) (here : (t.seat player).tableId = some t.tableId)
    (reason : StandupReason) (env : Env) :
    t.playerStandUp player reason env = (t, false) ∨
      ∃ t', t.playerStandUp player reason env = (t', true) ∧ Kept t' ∧
        t'.seat player = Seat.none := by
  obtain ⟨chair, sits⟩ := inv.back player (.inl here)
  have fields := (inv.seated chair player sits).1
  rw [Table.playerStandUp]
  split
  · exact .inl rfl
  · rw [fields]
    dsimp only [Seat.at]
    split
    · split
      · exact .inl rfl
      · refine .inr ⟨_, rfl, inv.standUpFrom sits reason, ?_⟩
        rw [Table.standUpFrom, afterStandUp_seat]
        exact Function.update_self ..
    · exact .inl rfl

theorem Kept.standUp (inv : Kept t) (reason : StandupReason) :
    Kept (t.standUp player reason env) := by
  rw [Table.standUp]
  split
  · rename_i here
    cases inv.playerStandUp here reason env with
    | inl stays =>
        rw [stays]
        exact inv
    | inr leaves =>
        obtain ⟨t', stands, kept, -⟩ := leaves
        rw [stands]
        exact kept
  · exact inv

theorem Kept.dropPlayer (inv : Kept t) (away : ∀ chair, t.players.lookup chair ≠ some player) :
    Kept (t.dropPlayer player env) := by
  rw [Table.dropPlayer]
  split
  · refine ⟨inv.count, fun c p h => ?_, fun p h => ?_, inv.chairs, inv.ready, inv.gone⟩
    · have other : p ≠ player := by
        intro eq
        rw [eq] at h
        exact away c h
      obtain ⟨seat, online⟩ := inv.seated c p h
      exact ⟨(Function.update_of_ne other ..).trans seat, online⟩
    · by_cases same : p = player
      · cases h with
        | inl h =>
            rw [same] at h
            have none : (Function.update t.seat player Seat.none player).tableId = _ := h
            rw [Function.update_self] at none
            cases none
        | inr h => exact inv.back p (.inr h)
      · refine inv.back p (h.imp_left fun h => ?_)
        have seat : (Function.update t.seat player Seat.none p).tableId = some t.tableId := h
        rw [Function.update_of_ne same] at seat
        exact seat
  · exact inv

theorem Kept.kickoutRoom (inv : Kept t) (reason : StandupReason) :
    Kept (t.kickoutRoom player reason env) := by
  rw [Table.kickoutRoom]
  split
  · exact inv
  · split
    · exact inv
    · rename_i here
      rw [not_not] at here
      split
      · rename_i gone
        refine inv.dropPlayer fun chair sits => ?_
        rw [inv.gone (Bool.not_eq_true' _ ▸ gone)] at sits
        cases sits
      · cases inv.playerStandUp here reason env with
        | inl stays =>
            rw [stays]
            exact inv
        | inr leaves =>
            obtain ⟨t', stands, kept, seatless⟩ := leaves
            rw [stands]
            exact kept.dropPlayer (kept.not_seated (.inl (congrArg Seat.chairId seatless)))

theorem Kept.readyAll (inv : Kept t) (sits : t.players.lookup chair = some player) :
    Kept (t.readyAll chair env) := by
  refine ⟨inv.count, inv.seated, inv.back, inv.chairs, fun c h => ?_, inv.gone⟩
  cases Finset.mem_union.1 h with
  | inl one =>
      cases Finset.mem_insert.1 one with
      | inl eq =>
          rw [eq]
          exact mem_of_lookup sits
      | inr old => exact inv.ready c old
  | inr robots =>
      obtain ⟨entry, member, robot⟩ := List.mem_filterMap.1 (List.mem_toFinset.1 robots)
      have on_it := AList.mem_lookup_iff.2 member
      split at robot
      · rw [(inv.seated entry.1 entry.2 on_it).1] at robot
        cases robot
        exact mem_of_lookup on_it
      · cases robot

theorem Kept.ready_step (inv : Kept t) : Kept (t.ready player env) := by
  rw [Table.ready]
  split
  · rename_i checked
    have here := of_decide_eq_true (Bool.and_eq_true_iff.1 checked).2
    obtain ⟨chair, sits⟩ := inv.back player (.inl here)
    rw [(inv.seated chair player sits).1]
    show Kept (t.readyOn chair env)
    rw [Table.readyOn]
    split
    · exact inv
    · exact (inv.readyAll sits).checkStart env
  · exact inv

theorem Kept.enterRoom (inv : Kept t) : Kept (t.enterRoom player) := by
  refine ⟨inv.count, fun c p h => ?_, fun p h => ?_, inv.chairs, inv.ready, inv.gone⟩
  · obtain ⟨seat, online⟩ := inv.seated c p h
    by_cases same : p = player
    · refine ⟨?_, online⟩
      rw [same] at online ⊢
      exact (Function.update_self ..).trans online
    · exact ⟨(Function.update_of_ne same ..).trans seat, online⟩
  · refine inv.back p (h.elim (fun h => ?_) .inr)
    have seat : (Function.update t.seat player (t.online player) p).tableId = some t.tableId := h
    by_cases same : p = player
    · rw [same] at seat ⊢
      rw [Function.update_self] at seat
      exact .inr seat
    · rw [Function.update_of_ne same] at seat
      exact .inl seat

/-- Nobody comes back to a chair that is free. -/
theorem reconnect_refused (nobody : t.isAlive = true → t.players.lookup chair = none) :
    t.reconnect player chair env = t := by
  rw [Table.reconnect]
  split
  · rfl
  · cases h : t.playerSitDown player chair true env with
    | none => rfl
    | some t' =>
        obtain ⟨alive, sits, -⟩ := playerSitDown_eq h
        rw [Table.canSitDown, if_pos rfl, nobody alive] at sits
        cases sits

/-- One who comes back is counted once more. -/
theorem reconnect_miscounts (inv : Kept t) (alive : t.isAlive = true)
    (taken : t.players.lookup chair ≠ none) : ¬ Seated (t.reconnect player chair env) := by
  intro seated
  have accepted : t.reconnect player chair env = t.sitDown player chair := by
    have sits : t.canSitDown chair true env = true := by
      rw [Table.canSitDown, if_pos rfl]
      exact Option.isSome_iff_ne_none.2 taken
    rw [Table.reconnect, isTableExists_of_isAlive alive, Table.playerSitDown, alive, sits]
    rfl
  rw [accepted] at seated
  have count : t.playerCount + 1 = ((t.players.insert chair player).keys.length : Int) :=
    seated.count
  have member : chair ∈ t.players.keys := by
    apply AList.mem_keys.1
    exact AList.lookup_isSome.1 (Option.isSome_iff_ne_none.2 taken)
  rw [AList.keys_insert, List.length_cons, List.length_erase_of_mem member, inv.count] at count
  have positive := List.length_pos_of_mem member
  omega

/-- Coming back from Redis is refused just so, or is a reconnect to the chair it names. -/
theorem doReconnect_cases (t : Table) (player : Nat) (env : Env) : t.doReconnect player env = t ∨
    ∃ chair, t.online player = Seat.at t.tableId chair ∧
      t.doReconnect player env = t.reconnect player chair env := by
  rw [Table.doReconnect]
  split
  · rename_i table chair named sits
    split
    · rename_i here
      refine .inr ⟨chair, ?_, rfl⟩
      rw [← here]
      exact congrArg₂ Seat.mk named sits
    · exact .inl rfl
  · exact .inl rfl

theorem doReconnect_at (h : t.online player = Seat.at t.tableId chair) :
    t.doReconnect player env = t.reconnect player chair env := by
  rw [Table.doReconnect, h]
  exact if_pos rfl

theorem Kept.step {l : Label} (inv : Kept t) (nobody : NobodyThere t l) : Kept (step t l) := by
  cases l with
  | joinPrivateTable player env => exact inv.joinPrivateTable
  | fastJoinRoom player env => exact inv.fastJoinRoom
  | reconnect player chair env =>
      rw [Seats.step, reconnect_refused nobody]
      exact inv
  | doReconnect player env =>
      rw [Seats.step]
      cases doReconnect_cases t player env with
      | inl same =>
          rw [same]
          exact inv
      | inr comes =>
          obtain ⟨chair, seat, same⟩ := comes
          rw [same, reconnect_refused (nobody chair seat)]
          exact inv
  | enterRoom player => exact inv.enterRoom
  | ready player env => exact inv.ready_step
  | standUp player reason env => exact inv.standUp reason
  | kickoutRoom player reason env => exact inv.kickoutRoom reason
  | interruptDismiss => exact inv.interruptDismiss
  | dismissed => exact ⟨inv.count, inv.seated, inv.back, inv.chairs, inv.ready, inv.gone⟩
  | round status => exact ⟨inv.count, inv.seated, inv.back, inv.chairs, inv.ready, inv.gone⟩

theorem Kept.of_initial (h : Initial t) : Kept t := by
  obtain ⟨tableId, chairCount, owner, seat, online, env, positive, unused, created⟩ := h
  rw [createPrivateTable] at created
  split at created
  · cases created
  · obtain ⟨-, -, eq⟩ := playerSitDown_eq created
    rw [eq]
    have fresh : Kept (newTable tableId chairCount owner seat online) := by
      refine ⟨rfl, fun c p h => ?_, fun p h => ?_, fun c h => ?_, fun c h => ?_, fun _ => rfl⟩
      · cases h
      · cases h with
        | inl h => exact absurd h (unused p).1
        | inr h => exact absurd h (unused p).2
      · exact absurd h (AList.notMem_empty c)
      · exact absurd h (Finset.notMem_empty c)
    exact fresh.sitDown (fun _ => Option.some_ne_none _ ∘ Eq.symm) rfl ⟨le_refl 1, positive⟩ rfl

/-- In every run in which nobody reconnects to a chair that is taken the seats are in order, and
the first such reconnect is what disturbs them. -/
theorem seats_kept (reached : TableReaches NobodyThere t) :
    Seated t ∧ ∀ l, Seated (step t l) ↔ NobodyThere t l := by
  have inv : Kept t := by
    refine reached.invariant (fun _ => Kept.of_initial) fun _ _ _ inv nobody moved => ?_
    rw [← moved]
    exact inv.step nobody
  refine ⟨inv.seatedTable, fun l => ⟨fun seated => ?_, fun nobody => (inv.step nobody).seatedTable⟩⟩
  cases l with
  | reconnect player chair env =>
      intro alive
      by_contra taken
      exact reconnect_miscounts inv alive taken seated
  | doReconnect player env =>
      intro chair seat alive
      by_contra taken
      rw [Seats.step, doReconnect_at seat] at seated
      exact reconnect_miscounts inv alive taken seated
  | _ => exact True.intro

/-! ### A table of four -/

/-- Everything is allowed. -/
def allowed : Env := ⟨true, false, true, true, true, fun _ => true, fun _ => false, true, true⟩

/-- The owner has sat down. -/
def opened : Table :=
  (newTable 100000 4 1 (fun _ => Seat.none) fun _ => Seat.none).sitDown 1 1

theorem opened_initial : Initial opened :=
  ⟨100000, 4, 1, fun _ => Seat.none, fun _ => Seat.none, allowed, by decide,
    fun _ => ⟨Option.some_ne_none _ ∘ Eq.symm, Option.some_ne_none _ ∘ Eq.symm⟩, rfl⟩

theorem second_player_seated :
    Seated (step opened (.joinPrivateTable 2 allowed)) ∧
      ∀ l, Seated (step (step opened (.joinPrivateTable 2 allowed)) l) ↔
        NobodyThere (step opened (.joinPrivateTable 2 allowed)) l :=
  seats_kept (.next (.joinPrivateTable 2 allowed) (.start opened_initial) True.intro rfl)

/-- The owner comes back to its own chair: two are counted on one chair. -/
theorem owner_counted_twice : ¬ ∀ t, TableReaches (fun _ _ => True) t → Seated t := by
  intro claim
  have seated := claim _ (.next (.doReconnect 1 allowed) (.start opened_initial) True.intro rfl)
  have count : (step opened (.doReconnect 1 allowed)).playerCount = 1 := seated.count
  exact absurd count (by decide)

end FkServer.Seats
