import Mathlib.Data.Finset.Insert
import FkServer.Library.RedisHash
import FkServer.Library.ParentForest

/-!
The stored data of one club and the operations of `club_partner`. The tables
that every writer clears before the next read are the stored data itself; the
two that can be read stale, `club_member_partner` inside an operation that has
just written and `club_member` after a bare `base_club:join`, are kept as caches.
Sorted sets, the database log and broadcasts are read by nothing modelled here.
-/
namespace FkServer
open RedisHash Hash ParentForest

abbrev Guid := Nat

inductive ClubType
  | default
  | union
deriving DecidableEq

inductive ClubRole
  | player
  | partner
  | admin
  | boss
deriving DecidableEq

inductive ErrorCode
  | none
  | playerNotExist
  | operationInvalid
  | playerNoRight
deriving DecidableEq

structure Club where
  owner : Guid
  type : ClubType
  playerData : Guid → Bool
  clubMember : Finset Guid
  clubMemberCache : Option (Finset Guid)
  clubMemberPartner : Hash Guid
  clubMemberPartnerCache : Option (Hash Guid)
  clubPartnerMember : Guid → Finset Guid
  clubRole : Hash ClubRole
  teamPlayerCount : Hash Int
  teamMoney : Hash Int
  playerMoney : Hash Int

namespace Club

/-- `club_member_partner[club_id]` as a reader sees it. -/
def memberPartnerView (c : Club) : Hash Guid :=
  c.clubMemberPartnerCache.getD c.clubMemberPartner

def readMemberPartner (c : Club) : Club :=
  { c with clubMemberPartnerCache := some c.memberPartnerView }

/-- `club_member[club_id]` as a reader sees it. -/
def memberView (c : Club) : Finset Guid :=
  c.clubMemberCache.getD c.clubMember

def readMember (c : Club) : Club :=
  { c with clubMemberCache := some c.memberView }

/-- The timer of `fast_cache_wrap`. -/
def expire (c : Club) : Club :=
  { c with clubMemberCache := none, clubMemberPartnerCache := none }

end Club

/-- `partner and partner ~= 0` -/
def nonzero (partner : Option Guid) : Option Guid :=
  partner.filter (· ≠ 0)

/-- Who a `while partner and partner ~= 0` loop visits after `guid`. -/
def partnerOf (partners : Hash Guid) (guid : Guid) : Option Guid :=
  nonzero (partners.hget guid)

theorem partnerOf_hset (partners : Hash Guid) (guid partner : Guid) :
    partnerOf (partners.hset guid partner) =
      Function.update (partnerOf partners) guid (nonzero (some partner)) := by
  funext x
  by_cases hx : x = guid
  · simp [partnerOf, hget_hset, hx]
  · simp [partnerOf, hget_hset, hx]

theorem partnerOf_hdel (partners : Hash Guid) (guid : Guid) :
    partnerOf (partners.hdel guid) =
      Function.update (partnerOf partners) guid none := by
  funext x
  by_cases hx : x = guid
  · simp [partnerOf, hget_hdel, nonzero, hx]
  · simp [partnerOf, hget_hdel, hx]

theorem partnerOf_eq_some {partners : Hash Guid} {guid partner : Guid} :
    partnerOf partners guid = some partner ↔
      partners.hget guid = some partner ∧ partner ≠ 0 := by
  simp [partnerOf, nonzero, Option.filter_eq_some_iff]

namespace Club

/-- The partner directly above a player, by the stored data. -/
def parent (c : Club) : Guid → Option Guid := partnerOf c.clubMemberPartner

/-- The teams visited by `while partner and partner ~= 0 do .. partner =
club_member_partner[club_id][partner] end`; `none` when the loop never ends. -/
def teamsFrom (c : Club) (partner : Option Guid) : Option (List Guid) :=
  climb (partnerOf c.memberPartnerView) (c.memberPartnerView.fields.length + 1)
    (nonzero partner)

theorem teamsFrom_sound {c : Club} {partner : Option Guid} {teams : List Guid}
    (h : c.teamsFrom partner = some teams) :
    Climb (partnerOf c.memberPartnerView) (nonzero partner) teams :=
  climb_sound h

/-- The bound on the turns is no restriction: a loop that ends is seen to end. -/
theorem teamsFrom_complete {c : Club} {partner : Option Guid} {teams : List Guid}
    (h : Climb (partnerOf c.memberPartnerView) (nonzero partner) teams) :
    c.teamsFrom partner = some teams := by
  refine climb_complete h ?_
  have cover : ∀ x y, partnerOf c.memberPartnerView x = some y →
      x ∈ c.memberPartnerView.fields.map Prod.fst :=
    fun x y hxy => mem_keys_of_hget (partnerOf_eq_some.1 hxy).1
  simpa using h.length_le cover

end Club

namespace ClubPartner

def create (c : Club) (guid parent : Guid) : Club :=
  { c with
    clubMemberPartner := c.clubMemberPartner.hset guid parent
    clubRole := c.clubRole.hset guid .partner
    clubMemberPartnerCache := none }

/-- `club_partner:join`, on the partner object of `self`. -/
def join (c : Club) (self guid : Guid) : Option Club :=
  let stored : Club :=
    { c with
      clubMemberPartner := c.clubMemberPartner.hset guid self
      clubPartnerMember :=
        Function.update c.clubPartnerMember self (insert guid (c.clubPartnerMember self)) }
  (stored.teamsFrom (some self)).map fun teams =>
    { stored with
      teamPlayerCount := teams.foldl (fun h p => h.hincrby p 1) stored.teamPlayerCount
      clubMemberPartnerCache := none }

def exit (c : Club) (self mem : Guid) : Option (ErrorCode × Club) :=
  if mem ∉ c.clubPartnerMember self then
    some (.operationInvalid, c)
  else
    let stored : Club :=
      { c with
        clubMemberPartner := c.clubMemberPartner.hdel mem
        clubPartnerMember :=
          Function.update c.clubPartnerMember self ((c.clubPartnerMember self).erase mem) }
    (stored.teamsFrom (some self)).map fun teams =>
      (.none,
        { stored with
          teamPlayerCount := teams.foldl (fun h p => h.hincrby p (-1)) stored.teamPlayerCount
          clubMemberPartnerCache := none })

def dismiss (c : Club) (self : Guid) : Club :=
  { c with
    clubMemberPartner := c.clubMemberPartner.hdels (c.clubPartnerMember self)
    clubPartnerMember := Function.update c.clubPartnerMember self ∅
    clubRole := c.clubRole.hdel self
    teamPlayerCount := c.teamPlayerCount.hdel self
    teamMoney := c.teamMoney.hdel self
    clubMemberPartnerCache := none }

end ClubPartner
end FkServer
