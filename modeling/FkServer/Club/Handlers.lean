import FkServer.Club.Transfer

/-!
The handlers of `on_club` that put players into the partner forest and take them off it:
`on_cs_club_partner`, `on_cs_club_exit`, `on_cs_club_kickout` and `on_cs_club_administrator`.
-/
namespace FkServer
open RedisHash Hash ParentForest

namespace OnClub

inductive Result
  | none
  | notMember
  | playerNoRight
  | operationInvalid
  | playerNotExist
  | playerInGame
  | moreMaxLimit
deriving DecidableEq

/-- What the handlers read besides the club: the commissions of the partners, the stored
agent levels with their limit, who is at a table of the club, and the order in which Lua
meets the members of a set. -/
structure Office where
  commission : Guid → Int
  agentLevel : Guid → Option Nat
  agentLevelLimit : Option Nat
  gaming : Guid → Bool
  pairs : Finset Guid → List Guid
  mem_pairs : ∀ members guid, guid ∈ pairs members ↔ guid ∈ members
  nodup_pairs : ∀ members, (pairs members).Nodup

variable (o : Office) (c : Club)

def isLeader (guid : Guid) : Bool :=
  c.clubRole.hget guid = some .admin ∨ c.clubRole.hget guid = some .boss

def isPartner (guid : Guid) : Bool := c.clubRole.hget guid = some .partner

/-! ### Partners -/

/-- The loop of `check_can_set_partner`: the steps up to the owner, 20 at most. -/
def levelsUp : Nat → Option Guid → Nat
  | 0, _ => 0
  | steps + 1, guid =>
      let partner := guid.bind c.memberPartnerView.hget
      if partner = some c.owner then 1 else 1 + levelsUp steps partner

def checkCanSetPartner (guid : Guid) : Bool :=
  (o.agentLevel guid).getD (levelsUp c 20 (some guid)) ≤ o.agentLevelLimit.getD 3

/-- `on_cs_club_partner` with `ADD_PARTNER`. -/
def addPartner (guid target : Guid) : Result × Club :=
  if target ∉ c.memberView then
    (.notMember, c)
  else if (isLeader c guid || isPartner c guid) = false then
    (.playerNoRight, c)
  else if isLeader c target || isPartner c target then
    (.playerNoRight, c)
  else if checkCanSetPartner o c target = false then
    (.playerNoRight, c)
  else
    (.none, ClubPartner.create c target (if isLeader c guid then c.owner else guid))

/-- `recursive_sum_member_all_money`: the sum, and whether nobody has money. -/
def recursiveSum : Nat → Guid → Option (Int × Bool)
  | 0, _ => none
  | fuel + 1, partner =>
      (o.pairs (c.clubPartnerMember partner)).foldlM
        (fun sum mem =>
          let money := c.playerMoney.number mem
          (if isPartner c mem then recursiveSum fuel mem else some (0, true)).map fun below =>
            (sum.1 + below.1 + money, sum.2 && below.2 && decide (money = 0)))
        (o.commission partner, true)

/-- `recursive_dismiss_partner` -/
def recursiveDismiss : Nat → Club → Guid → Option Club
  | 0, _, _ => none
  | fuel + 1, c, partner =>
      ((o.pairs (c.clubPartnerMember partner)).foldlM
        (fun c mem =>
          (if isPartner c mem then recursiveDismiss fuel c mem else some c).bind fun c =>
            (BaseClub.fullExit c mem).map Prod.snd)
        c).map fun c => ClubPartner.dismiss c partner

/-- A branch is no deeper than there are entries in the partner table. -/
def depth : Nat := c.memberPartnerView.fields.length + 2

/-- `on_cs_club_partner` with `REMOVE_PARTNER`. -/
def removePartner (guid target : Guid) : Option (Result × Club) :=
  if target ∉ c.memberView then
    some (.notMember, c)
  else if (isLeader c guid || isPartner c guid) = false then
    some (.playerNoRight, c)
  else if isPartner c target = false then
    some (.operationInvalid, c)
  else
    (if isPartner c guid then Transfer.searchPartner c guid target else some (some guid)).bind
      fun found =>
        if found.isNone then
          some (.playerNoRight, c)
        else
          (recursiveSum o c (depth c) target).bind fun sum =>
            if 0 < sum.1 ∨ sum.2 = false then
              some (.moreMaxLimit, c)
            else
              (recursiveDismiss o (depth c) c target).map fun c => (.none, c)

/-! ### Leaving -/

/-- `on_cs_club_exit` -/
def exit (guid exitGuid : Guid) : Option (Result × Club) :=
  if c.playerData guid = false ∨ (isLeader c guid || isPartner c guid) = false ∨
      isLeader c exitGuid = true then
    some (.playerNoRight, c)
  else if isPartner c exitGuid then
    some (.operationInvalid, c)
  else if c.playerData exitGuid then
    (BaseClub.fullExit c exitGuid).map fun r => (.none, r.2)
  else
    some (.none, c)

/-- `on_cs_club_kickout` -/
def kickout (guid target : Guid) : Option (Result × Club) :=
  if c.playerData guid = false then
    some (.playerNotExist, c)
  else if (isLeader c guid || isPartner c guid) = false then
    some (.playerNoRight, c)
  else if isLeader c target || isPartner c target then
    some (.operationInvalid, c)
  else if c.playerData target = false then
    some (.playerNotExist, c)
  else if target ∉ c.memberView then
    some (.notMember, c)
  else if o.gaming target then
    some (.playerInGame, c)
  else if c.type = .union ∧ c.playerMoney.number target ≠ 0 then
    some (.moreMaxLimit, c)
  else
    (BaseClub.fullExit c target).map fun r => (.none, r.2)

/-! ### Administrators -/

/-- `on_cs_club_administrator` with `ADD_ADMIN`. -/
def addAdmin (guid target : Guid) : Result × Club :=
  if c.clubRole.hget guid ≠ some .boss then
    (.playerNoRight, c)
  else if target ∉ c.memberView then
    (.notMember, c)
  else if isLeader c target || isPartner c target then
    (.playerNoRight, c)
  else
    (.none, { c with clubRole := c.clubRole.hset target .admin })

/-- `on_cs_club_administrator` with `REMOVE_ADMIN`. -/
def removeAdmin (guid target : Guid) : Result × Club :=
  if c.clubRole.hget guid ≠ some .boss then
    (.playerNoRight, c)
  else if target ∉ c.memberView then
    (.notMember, c)
  else if c.clubRole.hget target ≠ some .admin then
    (.playerNoRight, c)
  else
    (.none, { c with clubRole := c.clubRole.hdel target })

end OnClub

/-! ### Runs -/

/-- The requests, and what changes money or reads a table between them. -/
inductive Request
  | fullJoin (guid : Guid) (inviter teamId : Option Guid)
  | addPartner (guid target : Guid)
  | removePartner (guid target : Guid)
  | exit (guid exitGuid : Guid)
  | kickout (guid target : Guid)
  | addAdmin (guid target : Guid)
  | removeAdmin (guid target : Guid)
  | incrMemberMoney (guid : Guid) (deltaMoney : Int)
  | incrMemberRedisMoney (guid : Guid) (deltaMoney : Int)
  | read
  | expire

/-- A request handled in the office of the moment. -/
def handle (c : Club) (r : OnClub.Office × Request) : Option Club :=
  match r.2 with
  | .fullJoin guid inviter teamId => (BaseClub.fullJoin c guid inviter teamId).map Prod.snd
  | .addPartner guid target => some (OnClub.addPartner r.1 c guid target).2
  | .removePartner guid target => (OnClub.removePartner r.1 c guid target).map Prod.snd
  | .exit guid exitGuid => (OnClub.exit c guid exitGuid).map Prod.snd
  | .kickout guid target => (OnClub.kickout r.1 c guid target).map Prod.snd
  | .addAdmin guid target => some (OnClub.addAdmin c guid target).2
  | .removeAdmin guid target => some (OnClub.removeAdmin c guid target).2
  | .incrMemberMoney guid deltaMoney => BaseClub.incrMemberMoney c guid deltaMoney
  | .incrMemberRedisMoney guid deltaMoney => BaseClub.incrMemberRedisMoney c guid deltaMoney
  | .read => some c.readMember.readMemberPartner
  | .expire => some c.expire

/-- The clubs reached by requests that all meet a guard. -/
abbrev HandledReaches (ok : Club → OnClub.Office × Request → Prop) : Club → Prop :=
  Runs.Reaches Created (fun c r c' => handle c r = some c') ok

end FkServer
