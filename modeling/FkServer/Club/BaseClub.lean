import FkServer.Club.ClubPartner
import FkServer.Library.Runs

/-!
The membership and money operations of `base_club` over the club of
`ClubPartner`, and the club as a transition system. `none` stands for a call
that does not come back: a Lua error or a walk over the partners that never ends.
-/
namespace FkServer
open RedisHash Hash ParentForest

namespace BaseClub

/-- `base_club:create`: the owner is the only member and stands under nobody. -/
def create (owner : Guid) (type : ClubType) (playerData : Guid → Bool) : Club where
  owner := owner
  type := type
  playerData := playerData
  clubMember := {owner}
  clubMemberCache := none
  clubMemberPartner := .empty
  clubMemberPartnerCache := none
  clubPartnerMember := fun _ => ∅
  clubRole := Hash.empty.hset owner .boss
  teamPlayerCount := .empty
  teamMoney := .empty
  playerMoney := Hash.empty.hset owner 0

/-- `base_club:join` leaves the table `club_member` as it was read last. -/
def join (c : Club) (guid : Guid) : Club :=
  { c with clubMember := insert guid c.clubMember }

/-- The team `base_club:full_join` puts a player into. -/
def joinTeam (c : Club) (inviter teamId : Option Guid) : Guid :=
  match c.type with
  | .union =>
      if inviter.any fun i => c.clubRole.hget i = some .admin then
        c.owner
      else
        (teamId.or inviter).getD c.owner
  | .default => c.owner

/-- `not inviter_role or inviter_role == enum.CRT_PLAYER`; without an inviter
`club_role[club_id][nil]` is the whole table of roles. -/
def inviterHasNoRight (c : Club) (inviter : Option Guid) : Bool :=
  match inviter with
  | none => false
  | some i => c.clubRole.hget i = none ∨ c.clubRole.hget i = some .player

def fullJoin (c : Club) (guid : Guid) (inviter teamId : Option Guid) :
    Option (ErrorCode × Club) :=
  if inviterHasNoRight c inviter then
    some (.playerNoRight, c)
  else if c.playerData (joinTeam c inviter teamId) = false then
    some (.playerNotExist, c)
  else
    -- indexing club_partners reads club_member_partner before the join writes it
    (ClubPartner.join c.readMemberPartner (joinTeam c inviter teamId) guid).map fun c =>
      (.none, { join c guid with clubMemberCache := none })

def exit (c : Club) (guid : Guid) : Club :=
  { c with
    clubMember := c.clubMember.erase guid
    playerMoney := c.playerMoney.hdel guid
    clubRole := c.clubRole.hdel guid
    clubMemberCache := none }

def fullExit (c : Club) (guid : Guid) : Option (ErrorCode × Club) :=
  match c.memberPartnerView.hget guid with
  -- the lock of a nil partner cannot be stored: the call ends in a Lua error
  | none => none
  | some partner =>
      (ClubPartner.exit c.readMemberPartner partner guid).map fun r => (.none, exit r.2 guid)

/-- The walk that ends both `incr_member_money` and `incr_member_redis_money`. -/
def incrTeamMoney (c : Club) (guid : Guid) (deltaMoney : Int) : Option Club :=
  let c := c.readMemberPartner
  (c.teamsFrom (c.memberPartnerView.hget guid)).map fun teams =>
    { c with teamMoney := teams.foldl (fun h p => h.hincrby p deltaMoney) c.teamMoney }

/-- `base_club:incr_member_money` changes the money before it asks for membership. -/
def incrMemberMoney (c : Club) (guid : Guid) (deltaMoney : Int) : Option Club :=
  if c.playerData guid = false then
    some c
  else
    let c := { c with playerMoney := c.playerMoney.hincrby guid deltaMoney }
    if guid ∉ c.memberView then
      some c.readMember
    else
      incrTeamMoney c.readMember guid deltaMoney

def incrMemberRedisMoney (c : Club) (guid : Guid) (deltaMoney : Int) : Option Club :=
  if c.playerData guid = false then
    some c
  else if guid ∉ c.memberView then
    some c.readMember
  else
    let c := { c with playerMoney := c.playerMoney.hincrby guid deltaMoney }
    incrTeamMoney c.readMember guid deltaMoney

end BaseClub

/-- The operations, and what other readers and the cache timer may do between them. -/
inductive ClubOp
  | partnerCreate (guid parent : Guid)
  | partnerJoin (team guid : Guid)
  | partnerExit (team mem : Guid)
  | partnerDismiss (team : Guid)
  | join (guid : Guid)
  | fullJoin (guid : Guid) (inviter teamId : Option Guid)
  | exit (guid : Guid)
  | fullExit (guid : Guid)
  | incrMemberMoney (guid : Guid) (deltaMoney : Int)
  | incrMemberRedisMoney (guid : Guid) (deltaMoney : Int)
  | read
  | expire

def clubStep (c : Club) : ClubOp → Option Club
  | .partnerCreate guid parent => some (ClubPartner.create c guid parent)
  | .partnerJoin team guid => ClubPartner.join c team guid
  | .partnerExit team mem => (ClubPartner.exit c team mem).map Prod.snd
  | .partnerDismiss team => some (ClubPartner.dismiss c team)
  | .join guid => some (BaseClub.join c guid)
  | .fullJoin guid inviter teamId => (BaseClub.fullJoin c guid inviter teamId).map Prod.snd
  | .exit guid => some (BaseClub.exit c guid)
  | .fullExit guid => (BaseClub.fullExit c guid).map Prod.snd
  | .incrMemberMoney guid d => BaseClub.incrMemberMoney c guid d
  | .incrMemberRedisMoney guid d => BaseClub.incrMemberRedisMoney c guid d
  | .read => some c.readMember.readMemberPartner
  | .expire => some c.expire

/-- A club as `base_club:create` leaves it. -/
def Created (c : Club) : Prop :=
  ∃ owner type playerData, c = BaseClub.create owner type playerData

/-- The clubs reached by operations that all meet a guard. -/
abbrev ClubReaches (ok : Club → ClubOp → Prop) : Club → Prop :=
  Runs.Reaches Created (fun c op c' => clubStep c op = some c') ok

end FkServer
