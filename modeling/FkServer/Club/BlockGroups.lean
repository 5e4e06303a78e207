import FkServer.Club.Handlers
import Mathlib.Data.Finset.Lattice.Fold
import Mathlib.Order.Lattice.Nat

/-!
Block groups of teams: players of two teams of one group are not seated together. The test
`is_block_in_block_team_group` gathers sets of teams where the definition speaks about pairs
of them, and is right as long as no group has a team and one below it.
-/
namespace FkServer
open RedisHash Hash ParentForest

/-- A club with the groups, stored by group and by team. `club_block_team_groups` is cleared
by every writer and the other tables are not cached. -/
structure BlockClub where
  club : Club
  groupId : Nat
  groupAll : Finset Nat
  groupTeams : Nat → Finset Guid
  teamGroups : Guid → Finset Nat

/-- The members of a set, from the least up. -/
def ascending (members : Finset Nat) : List Nat :=
  (List.range (members.sup id + 1)).filter (· ∈ members)

theorem mem_ascending {members : Finset Nat} {x : Nat} : x ∈ ascending members ↔ x ∈ members := by
  rw [ascending, List.mem_filter, List.mem_range, decide_eq_true_iff]
  refine and_iff_right_of_imp fun member => ?_
  have bound : id x ≤ members.sup id := Finset.le_sup member
  exact Nat.lt_succ_of_le bound

namespace BlockClub

variable (b : BlockClub)

/-- The partner above, unless it is the boss. -/
def upToBoss (guid : Guid) : Option Guid :=
  (partnerOf b.club.memberPartnerView guid).filter fun partner =>
    b.club.clubRole.hget partner ≠ some .boss

/-- `base_club:block_team_branch`: the teams whose groups count for a player. -/
def blockTeamBranch (guid : Guid) : Option (List Guid) :=
  (climb b.upToBoss (b.club.memberPartnerView.fields.length + 1) (b.upToBoss guid)).map fun teams =>
    if OnClub.isPartner b.club guid then guid :: teams else teams

/-- `club_utils.team_branch` -/
def teamBranch (guid : Guid) : Option (List Guid) :=
  (b.club.teamsFrom (b.club.memberPartnerView.hget guid)).map fun teams =>
    if b.club.clubRole.hget guid = some .boss ∨ b.club.clubRole.hget guid = some .partner then
      guid :: teams
    else teams

/-- The teams of a branch that are in a group. -/
def inGroup (teams : List Guid) (group : Nat) : Finset Guid :=
  teams.toFinset.filter fun team => group ∈ b.teamGroups team

/-- `base_club:is_block_in_block_team_group` -/
def isBlockInBlockTeamGroup (players : List Guid) (guid : Guid) : Option Bool :=
  (b.blockTeamBranch guid).bind fun dteams =>
    (players.mapM b.blockTeamBranch).map fun playersTeams =>
      decide (∃ group ∈ dteams.toFinset.biUnion b.teamGroups,
        let dgroup := b.inGroup dteams group
        let sgroup := b.inGroup playersTeams.flatten group
        sgroup ≠ ∅ ∧ ¬ (sgroup.card = 1 ∧ ∃ team ∈ sgroup, team ∈ dgroup))

/-! ### The handlers -/

inductive Result
  | none
  | playerNoRight
  | playerNotExist
  | notMember
  | parameterError
deriving DecidableEq

/-- `on_cs_new_block_team_group` -/
def newGroup (guid : Guid) : Result × BlockClub :=
  if OnClub.isLeader b.club guid = false then
    (.playerNoRight, b)
  else
    (.none, { b with groupId := b.groupId + 1, groupAll := insert (b.groupId + 1) b.groupAll })

/-- `on_cs_del_block_team_group` -/
def delGroup (guid : Guid) (group : Nat) : Result × BlockClub :=
  if OnClub.isLeader b.club guid = false then
    (.playerNoRight, b)
  else
    (.none,
      { b with
        groupAll := b.groupAll.erase group
        groupTeams := Function.update b.groupTeams group ∅
        teamGroups := fun team =>
          if team ∈ b.groupTeams group then (b.teamGroups team).erase group else b.teamGroups team })

/-- Whether a team of the group is in the branch of `team` or the other way round; in a forest
every walk ends, so neither the order nor the stop at the first hit of `table.Or` matters. -/
def relatedTo (group : Nat) (team : Guid) : Option Bool :=
  (b.blockTeamBranch team).bind fun bteam =>
    ((ascending (b.groupTeams group)).mapM fun gtid =>
      (b.teamBranch gtid).map fun branch => decide (gtid ∈ bteam ∨ team ∈ branch)).map fun found =>
        found.any id

/-- `on_cs_add_team_to_block_team_group` -/
def addTeam (guid : Guid) (group : Nat) (team : Guid) : Option (Result × BlockClub) :=
  if OnClub.isLeader b.club guid = false then
    some (.playerNoRight, b)
  else if b.club.playerData team = false then
    some (.playerNotExist, b)
  else if team ∉ b.club.memberView then
    some (.notMember, b)
  else if OnClub.isPartner b.club team = false then
    some (.parameterError, b)
  else if group ∉ b.groupAll then
    some (.parameterError, b)
  else
    (b.relatedTo group team).map fun related =>
      if related then
        (.parameterError, b)
      else
        (.none,
          { b with
            groupTeams := Function.update b.groupTeams group (insert team (b.groupTeams group))
            teamGroups := Function.update b.teamGroups team (insert group (b.teamGroups team)) })

/-- `on_cs_remove_team_from_block_team_group` -/
def removeTeam (guid : Guid) (group : Nat) (team : Guid) : Result × BlockClub :=
  if OnClub.isLeader b.club guid = false then
    (.playerNoRight, b)
  else if b.club.playerData team = false then
    (.playerNotExist, b)
  else if group ∉ b.groupAll then
    (.parameterError, b)
  else
    (.none,
      { b with
        groupTeams := Function.update b.groupTeams group ((b.groupTeams group).erase team)
        teamGroups := Function.update b.teamGroups team ((b.teamGroups team).erase group) })

end BlockClub

/-- The requests of a club with block groups. -/
inductive BlockRequest
  | club (office : OnClub.Office) (request : Request)
  | newGroup (guid : Guid)
  | delGroup (guid : Guid) (group : Nat)
  | addTeam (guid : Guid) (group : Nat) (team : Guid)
  | removeTeam (guid : Guid) (group : Nat) (team : Guid)

def handleBlock (b : BlockClub) : BlockRequest → Option BlockClub
  | .club office request => (handle b.club (office, request)).map fun club => { b with club := club }
  | .newGroup guid => some (b.newGroup guid).2
  | .delGroup guid group => some (b.delGroup guid group).2
  | .addTeam guid group team => (b.addTeam guid group team).map Prod.snd
  | .removeTeam guid group team => some (b.removeTeam guid group team).2

/-- A new club, without groups. -/
def CreatedBlock (b : BlockClub) : Prop :=
  Created b.club ∧ b.groupAll = ∅ ∧ (∀ group, b.groupTeams group = ∅) ∧ ∀ team, b.teamGroups team = ∅

abbrev BlockReaches (ok : BlockClub → BlockRequest → Prop) : BlockClub → Prop :=
  Runs.Reaches CreatedBlock (fun b r b' => handleBlock b r = some b') ok

/-! ### Branches -/

namespace BlockClub

variable {b : BlockClub} {guid team s t : Guid}

theorem mapM_total {α β : Type} {f : α → Option β} {l : List α}
    (total : ∀ x ∈ l, ∃ y, f x = some y) :
    ∃ ys, l.mapM f = some ys ∧ ∀ y, y ∈ ys ↔ ∃ x ∈ l, f x = some y := by
  induction l with
  | nil => exact ⟨[], rfl, by simp⟩
  | cons x l ih =>
      obtain ⟨y, here⟩ := total x List.mem_cons_self
      obtain ⟨ys, rest, all⟩ := ih fun x member => total x (List.mem_cons_of_mem _ member)
      refine ⟨y :: ys, by simp [here, rest], fun z => ?_⟩
      rw [List.mem_cons, all]
      simp [here, eq_comm]

/-- What a forest must have for the walks: chains end, the reader sees the stored table,
and a boss stands under nobody. -/
structure Rooted (c : Club) : Prop where
  grounded : Grounded c.parent
  view : c.memberPartnerView = c.clubMemberPartner
  boss : ∀ guid, c.clubRole.hget guid = some .boss → c.parent guid = none

theorem upToBoss_eq (rooted : Rooted b.club) (guid : Guid) :
    b.upToBoss guid = (b.club.parent guid).filter fun partner =>
      b.club.clubRole.hget partner ≠ some .boss := by
  rw [upToBoss, rooted.view]
  rfl

theorem upToBoss_some (rooted : Rooted b.club) :
    b.upToBoss s = some t ↔ b.club.parent s = some t ∧ b.club.clubRole.hget t ≠ some .boss := by
  rw [upToBoss_eq rooted, Option.filter_eq_some_iff]
  simp

/-- Nobody is above a boss, so leaving the boss out leaves out nothing else. -/
theorem above_upToBoss (rooted : Rooted b.club) :
    Above b.upToBoss s t ↔ Above b.club.parent s t ∧ b.club.clubRole.hget t ≠ some .boss := by
  constructor
  · intro h
    refine ⟨h.prune fun x y up => ((upToBoss_some rooted).1 up).1, ?_⟩
    obtain ⟨x, -, last⟩ := Relation.TransGen.tail'_iff.1 h
    exact ((upToBoss_some rooted).1 last).2
  · intro h
    obtain ⟨above, other⟩ := h
    induction above using Relation.TransGen.head_induction_on with
    | single up => exact .single ((upToBoss_some rooted).2 ⟨up, other⟩)
    | @head x y up rest ih =>
        refine .head ((upToBoss_some rooted).2 ⟨up, fun boss => ?_⟩) ih
        exact not_above_of_root (rooted.boss y boss) rest

theorem upToBoss_grounded (rooted : Rooted b.club) : Grounded b.upToBoss :=
  rooted.grounded.prune fun _ _ up => ((upToBoss_some rooted).1 up).1

/-- The branch of a player: itself if it is a partner, and the partners above but the boss. -/
theorem blockTeamBranch_spec (rooted : Rooted b.club) (guid : Guid) :
    ∃ teams, b.blockTeamBranch guid = some teams ∧
      (∀ team, team ∈ teams ↔ team = guid ∧ b.club.clubRole.hget guid = some .partner ∨
        Above b.club.parent guid team ∧ b.club.clubRole.hget team ≠ some .boss) ∧
      teams.Pairwise (Above b.club.parent) := by
  obtain ⟨l, h⟩ := upToBoss_grounded rooted guid
  have cover : ∀ x y, b.upToBoss x = some y →
      x ∈ b.club.memberPartnerView.fields.map Prod.fst := by
    intro x y up
    have stored := ((upToBoss_some rooted).1 up).1
    rw [rooted.view]
    exact mem_keys_of_hget (partnerOf_eq_some.1 stored).1
  have short : l.length ≤ b.club.memberPartnerView.fields.length + 1 := by
    simpa using h.length_le cover
  have higher : ∀ team, team ∈ l ↔ Above b.club.parent guid team ∧
      b.club.clubRole.hget team ≠ some .boss := fun team => by
    rw [h.mem_above, above_upToBoss rooted]
  have chain : l.Pairwise (Above b.club.parent) :=
    h.pairwise.imp fun above => ((above_upToBoss rooted).1 above).1
  refine ⟨_, by rw [blockTeamBranch, climb_complete h short]; rfl, fun team => ?_, ?_⟩
  · by_cases partner : b.club.clubRole.hget guid = some .partner
    · simp [OnClub.isPartner, partner, higher]
    · simp [OnClub.isPartner, partner, higher]
  · split
    · exact .cons (fun team member => ((higher team).1 member).1) chain
    · exact chain

theorem teamBranch_spec (rooted : Rooted b.club) (guid : Guid) :
    ∃ teams, b.teamBranch guid = some teams ∧ ∀ team, Above b.club.parent guid team → team ∈ teams := by
  obtain ⟨l, h⟩ := rooted.grounded guid
  have walk : b.club.teamsFrom (b.club.memberPartnerView.hget guid) = some l := by
    refine Club.teamsFrom_complete ?_
    rw [rooted.view]
    exact h
  refine ⟨_, by rw [teamBranch, walk]; rfl, fun team above => ?_⟩
  have member := h.mem_above.2 above
  split
  · exact List.mem_cons_of_mem _ member
  · exact member

/-! ### The test -/

/-- The plain definition: a seated player's branch has a team of a group that has another
team of the joining player's branch. -/
def PairBlocked (b : BlockClub) (players : List Guid) (guid : Guid) : Prop :=
  ∃ player ∈ players, ∃ teams dteams, b.blockTeamBranch player = some teams ∧
    b.blockTeamBranch guid = some dteams ∧ ∃ s ∈ teams, ∃ d ∈ dteams, ∃ group,
      group ∈ b.teamGroups s ∧ group ∈ b.teamGroups d ∧ s ≠ d

/-- No group has a team and one below it. -/
def Apart (b : BlockClub) : Prop :=
  ∀ group s t, s ∈ b.groupTeams group → t ∈ b.groupTeams group → ¬ Above b.club.parent s t

theorem mem_inGroup {teams : List Guid} {group : Nat} :
    team ∈ b.inGroup teams group ↔ team ∈ teams ∧ group ∈ b.teamGroups team := by
  rw [inGroup, Finset.mem_filter, List.mem_toFinset]

/-- With at most one team of the joining player in a group, the sets tell what the pairs do. -/
theorem sets_iff_pairs {dgroup sgroup : Finset Guid}
    (single : ∀ d d', d ∈ dgroup → d' ∈ dgroup → d = d') (joined : ∃ d, d ∈ dgroup) :
    (sgroup ≠ ∅ ∧ ¬ (sgroup.card = 1 ∧ ∃ team ∈ sgroup, team ∈ dgroup)) ↔
      ∃ s ∈ sgroup, ∃ d ∈ dgroup, s ≠ d := by
  obtain ⟨d, member⟩ := joined
  constructor
  · intro h
    obtain ⟨s, seated⟩ := Finset.nonempty_iff_ne_empty.2 h.1
    by_cases same : s = d
    · -- the same team sits there, so another one does too
      have more : sgroup.card ≠ 1 := fun one => h.2 ⟨one, s, seated, by rw [same]; exact member⟩
      have two : 1 < sgroup.card := by
        have := Finset.card_pos.2 ⟨s, seated⟩
        omega
      obtain ⟨other, here, different⟩ := Finset.exists_mem_ne two s
      exact ⟨other, here, d, member, fun eq => different (eq.trans same.symm)⟩
    · exact ⟨s, seated, d, member, same⟩
  · intro h
    obtain ⟨s, seated, d', member', different⟩ := h
    refine ⟨Finset.nonempty_iff_ne_empty.1 ⟨s, seated⟩, fun one => ?_⟩
    obtain ⟨x, only⟩ := Finset.card_eq_one.1 one.1
    obtain ⟨y, here, both⟩ := one.2
    rw [only, Finset.mem_singleton] at seated here
    rw [seated, ← here] at different
    exact different (single y d' both member')

/-- Two teams of one group in one branch are one team. -/
theorem one_of_group
    (inverse : ∀ group team, team ∈ b.groupTeams group ↔ group ∈ b.teamGroups team)
    (apart : Apart b) {teams : List Guid} (chain : teams.Pairwise (Above b.club.parent))
    {group : Nat} (hs : s ∈ b.inGroup teams group) (ht : t ∈ b.inGroup teams group) : s = t := by
  rw [mem_inGroup, ← inverse] at hs ht
  by_contra different
  cases chain_related chain hs.1 ht.1 different with
  | inl above => exact apart group s t hs.2 ht.2 above
  | inr above => exact apart group t s ht.2 hs.2 above

theorem isBlock_iff (rooted : Rooted b.club)
    (inverse : ∀ group team, team ∈ b.groupTeams group ↔ group ∈ b.teamGroups team)
    (apart : Apart b) (players : List Guid) (guid : Guid) :
    ∃ blocked, b.isBlockInBlockTeamGroup players guid = some blocked ∧
      (blocked = true ↔ PairBlocked b players guid) := by
  obtain ⟨dteams, branch, -, chain⟩ := blockTeamBranch_spec rooted guid
  have walks : ∀ player ∈ players, ∃ teams, b.blockTeamBranch player = some teams :=
    fun player _ => (blockTeamBranch_spec rooted player).imp fun _ h => h.1
  obtain ⟨playersTeams, branches, all⟩ := mapM_total walks
  refine ⟨_, by rw [isBlockInBlockTeamGroup, branch, Option.bind_some, branches]; rfl, ?_⟩
  rw [decide_eq_true_iff]
  have single : ∀ group d d', d ∈ b.inGroup dteams group → d' ∈ b.inGroup dteams group → d = d' :=
    fun _ _ _ => one_of_group inverse apart chain
  have seated : ∀ s group, s ∈ b.inGroup playersTeams.flatten group ↔
      (∃ player ∈ players, ∃ teams, b.blockTeamBranch player = some teams ∧ s ∈ teams) ∧
        group ∈ b.teamGroups s := by
    intro s group
    rw [mem_inGroup, List.mem_flatten]
    refine and_congr_left fun _ => ?_
    simp only [all]
    constructor
    · intro h
      obtain ⟨teams, ⟨player, here, walk⟩, member⟩ := h
      exact ⟨player, here, teams, walk, member⟩
    · intro h
      obtain ⟨player, here, teams, walk, member⟩ := h
      exact ⟨teams, ⟨player, here, walk⟩, member⟩
  constructor
  · intro h
    obtain ⟨group, counted, found⟩ := h
    obtain ⟨d, member, grouped⟩ := Finset.mem_biUnion.1 counted
    have joined : d ∈ b.inGroup dteams group := mem_inGroup.2 ⟨List.mem_toFinset.1 member, grouped⟩
    obtain ⟨s, sits, d', here, different⟩ := (sets_iff_pairs (single group) ⟨d, joined⟩).1 found
    obtain ⟨⟨player, plays, teams, walk, among⟩, ofGroup⟩ := (seated s group).1 sits
    obtain ⟨among', ofGroup'⟩ := mem_inGroup.1 here
    exact ⟨player, plays, teams, dteams, walk, branch, s, among, d', among', group, ofGroup, ofGroup',
      different⟩
  · intro h
    obtain ⟨player, plays, teams, dteams', walk, branch', s, among, d, among', group, ofGroup, ofGroup',
      different⟩ := h
    rw [branch] at branch'
    cases branch'
    have joined : d ∈ b.inGroup dteams group := mem_inGroup.2 ⟨among', ofGroup'⟩
    have sits := (seated s group).2 ⟨⟨player, plays, teams, walk, among⟩, ofGroup⟩
    refine ⟨group, Finset.mem_biUnion.2 ⟨d, List.mem_toFinset.2 among', ofGroup'⟩, ?_⟩
    exact (sets_iff_pairs (single group) ⟨d, joined⟩).2 ⟨s, sits, d, joined, different⟩

end BlockClub

/-! ### Leaving the forest -/

/-- Nobody comes under anyone new, the reader sees the stored table and nobody becomes boss. -/
structure Prunes (c c' : Club) : Prop where
  parent : ∀ x y, c'.parent x = some y → c.parent x = some y
  view : c'.memberPartnerView = c'.clubMemberPartner
  boss : ∀ g, c'.clubRole.hget g = some .boss → c.clubRole.hget g = some .boss

variable {c c' c'' : Club} {g : Guid}

theorem Prunes.refl (view : c.memberPartnerView = c.clubMemberPartner) : Prunes c c :=
  ⟨fun _ _ up => up, view, fun _ boss => boss⟩

theorem Prunes.trans (first : Prunes c c') (second : Prunes c' c'') : Prunes c c'' :=
  ⟨fun x y up => first.parent x y (second.parent x y up), second.view,
    fun g boss => first.boss g (second.boss g boss)⟩

theorem parent_of_hdel {x y : Guid} (h : partnerOf (c.clubMemberPartner.hdel g) x = some y) :
    c.parent x = some y := by
  rw [partnerOf_hdel] at h
  by_cases here : x = g
  · rw [here, Function.update_self] at h
    cases h
  · rwa [Function.update_of_ne here] at h

theorem boss_of_hdel {x : Guid} (h : (c.clubRole.hdel g).hget x = some .boss) :
    c.clubRole.hget x = some .boss := by
  rw [hget_hdel] at h
  split at h
  · cases h
  · exact h

theorem fullExit_prunes {r : ErrorCode × Club} (view : c.memberPartnerView = c.clubMemberPartner)
    (h : BaseClub.fullExit c g = some r) : Prunes c r.2 := by
  rw [BaseClub.fullExit] at h
  split at h
  · cases h
  · obtain ⟨left, exited, rfl⟩ := Option.map_eq_some_iff.1 h
    rw [ClubPartner.exit] at exited
    split at exited
    · cases exited
      exact ⟨fun _ _ up => up, view, fun _ => boss_of_hdel⟩
    · obtain ⟨teams, -, rfl⟩ := Option.map_eq_some_iff.1 exited
      exact ⟨fun _ _ => parent_of_hdel, rfl, fun _ => boss_of_hdel⟩

theorem dismiss_prunes (c : Club) (p : Guid) : Prunes c (ClubPartner.dismiss c p) := by
  refine ⟨fun x y up => ?_, rfl, fun _ => boss_of_hdel⟩
  obtain ⟨stored, nonzero⟩ := partnerOf_eq_some.1 up
  have stored : (c.clubMemberPartner.hdels (c.clubPartnerMember p)).hget x = some y := stored
  rw [hget_hdels] at stored
  split at stored
  · cases stored
  · exact partnerOf_eq_some.2 ⟨stored, nonzero⟩

theorem recursiveDismiss_prunes {o : OnClub.Office} {fuel : Nat} {p : Guid}
    (view : c.memberPartnerView = c.clubMemberPartner)
    (h : OnClub.recursiveDismiss o fuel c p = some c') : Prunes c c' := by
  induction fuel generalizing c c' p with
  | zero => cases h
  | succ fuel ih =>
      obtain ⟨left, emptied, rfl⟩ := Option.map_eq_some_iff.1 h
      have pruned : Prunes c left := by
        refine Runs.foldlM_invariant (fun _ s => Prunes c s) ?_ (.refl view) emptied
        intro mem rest s s' before step
        obtain ⟨below, dismissed, moved⟩ := Option.bind_eq_some_iff.1 step
        obtain ⟨r, exited, rfl⟩ := Option.map_eq_some_iff.1 moved
        have cleared : Prunes s below := by
          split at dismissed
          · exact ih before.view dismissed
          · cases dismissed
            exact .refl before.view
        exact before.trans (cleared.trans (fullExit_prunes cleared.view exited))
      exact pruned.trans (dismiss_prunes left p)

theorem removePartner_prunes {o : OnClub.Office} {guid target : Guid} {r : OnClub.Result × Club}
    (view : c.memberPartnerView = c.clubMemberPartner)
    (h : OnClub.removePartner o c guid target = some r) : Prunes c r.2 := by
  rw [OnClub.removePartner] at h
  split at h
  · cases h; exact .refl view
  · split at h
    · cases h; exact .refl view
    · split at h
      · cases h; exact .refl view
      · obtain ⟨found, -, h⟩ := Option.bind_eq_some_iff.1 h
        split at h
        · cases h; exact .refl view
        · obtain ⟨sum, -, h⟩ := Option.bind_eq_some_iff.1 h
          split at h
          · cases h; exact .refl view
          · obtain ⟨left, dismissed, rfl⟩ := Option.map_eq_some_iff.1 h
            exact recursiveDismiss_prunes view dismissed

theorem exit_prunes {guid exitGuid : Guid} {r : OnClub.Result × Club}
    (view : c.memberPartnerView = c.clubMemberPartner)
    (h : OnClub.exit c guid exitGuid = some r) : Prunes c r.2 := by
  rw [OnClub.exit] at h
  split at h
  · cases h; exact .refl view
  · split at h
    · cases h; exact .refl view
    · split at h
      · obtain ⟨left, exited, rfl⟩ := Option.map_eq_some_iff.1 h
        exact fullExit_prunes view exited
      · cases h; exact .refl view

theorem kickout_prunes {o : OnClub.Office} {guid target : Guid} {r : OnClub.Result × Club}
    (view : c.memberPartnerView = c.clubMemberPartner)
    (h : OnClub.kickout o c guid target = some r) : Prunes c r.2 := by
  rw [OnClub.kickout] at h
  repeat' split at h
  all_goals first
    | (cases h; exact .refl view)
    | obtain ⟨left, exited, rfl⟩ := Option.map_eq_some_iff.1 h
      exact fullExit_prunes view exited

theorem addAdmin_prunes {guid target : Guid} (view : c.memberPartnerView = c.clubMemberPartner) :
    Prunes c (OnClub.addAdmin c guid target).2 := by
  rw [OnClub.addAdmin]
  repeat' split
  all_goals try exact .refl view
  refine ⟨fun _ _ up => up, view, fun g boss => ?_⟩
  have boss : (c.clubRole.hset target .admin).hget g = some .boss := boss
  rw [hget_hset] at boss
  split at boss
  · cases boss
  · exact boss

theorem removeAdmin_prunes {guid target : Guid} (view : c.memberPartnerView = c.clubMemberPartner) :
    Prunes c (OnClub.removeAdmin c guid target).2 := by
  rw [OnClub.removeAdmin]
  repeat' split
  all_goals try exact .refl view
  exact ⟨fun _ _ up => up, view, fun _ => boss_of_hdel⟩

theorem Prunes.frame (partner : c'.clubMemberPartner = c.clubMemberPartner)
    (view : c'.memberPartnerView = c.clubMemberPartner) (role : c'.clubRole = c.clubRole) :
    Prunes c c' := by
  refine ⟨fun x y up => ?_, view.trans partner.symm, fun g boss => ?_⟩
  · rwa [Club.parent, partner] at up
  · rwa [role] at boss

theorem incrTeamMoney_prunes {s : Club} {delta : Int}
    (h : BaseClub.incrTeamMoney s g delta = some c') (partner : s.clubMemberPartner = c.clubMemberPartner)
    (view : s.memberPartnerView = c.clubMemberPartner) (role : s.clubRole = c.clubRole) :
    Prunes c c' := by
  obtain ⟨teams, -, rfl⟩ := Option.map_eq_some_iff.1 h
  exact .frame partner view role

/-- Whoever the request puts under somebody, with that somebody. -/
def puts (c : Club) (r : OnClub.Office × Request) : Option (Guid × Guid) :=
  match r.2 with
  | .fullJoin guid inviter teamId =>
      let team := BaseClub.joinTeam c inviter teamId
      if BaseClub.inviterHasNoRight c inviter = true ∨ c.playerData team = false then none
      else some (guid, team)
  | .addPartner guid target =>
      if target ∉ c.memberView ∨ (OnClub.isLeader c guid || OnClub.isPartner c guid) = false ∨
          (OnClub.isLeader c target || OnClub.isPartner c target) = true ∨
          OnClub.checkCanSetPartner r.1 c target = false then none
      else some (target, if OnClub.isLeader c guid then c.owner else guid)
  | _ => none

theorem handle_prunes {r : OnClub.Office × Request} (view : c.memberPartnerView = c.clubMemberPartner)
    (nobody : puts c r = none) (h : handle c r = some c') : Prunes c c' := by
  obtain ⟨o, request⟩ := r
  cases request with
  | fullJoin guid inviter teamId =>
      obtain ⟨r, joined, rfl⟩ := Option.map_eq_some_iff.1 h
      rw [BaseClub.fullJoin] at joined
      split at joined
      · cases joined; exact .refl view
      · rename_i right
        split at joined
        · cases joined; exact .refl view
        · rename_i known
          dsimp only [puts] at nobody
          rw [if_neg (not_or.2 ⟨right, known⟩)] at nobody
          cases nobody
  | addPartner guid target =>
      cases h
      rw [OnClub.addPartner]
      split
      · exact .refl view
      · split
        · exact .refl view
        · split
          · exact .refl view
          · split
            · exact .refl view
            · dsimp only [puts] at nobody
              split at nobody
              · tauto
              · cases nobody
  | removePartner guid target =>
      obtain ⟨r, removed, rfl⟩ := Option.map_eq_some_iff.1 h
      exact removePartner_prunes view removed
  | exit guid exitGuid =>
      obtain ⟨r, left, rfl⟩ := Option.map_eq_some_iff.1 h
      exact exit_prunes view left
  | kickout guid target =>
      obtain ⟨r, kicked, rfl⟩ := Option.map_eq_some_iff.1 h
      exact kickout_prunes view kicked
  | addAdmin guid target => cases h; exact addAdmin_prunes view
  | removeAdmin guid target => cases h; exact removeAdmin_prunes view
  | incrMemberMoney guid delta =>
      have h : BaseClub.incrMemberMoney c guid delta = some c' := h
      rw [BaseClub.incrMemberMoney] at h
      split at h
      · cases h; exact .refl view
      · dsimp only at h
        split at h
        · cases h
          exact .frame rfl view rfl
        · exact incrTeamMoney_prunes h rfl view rfl
  | incrMemberRedisMoney guid delta =>
      have h : BaseClub.incrMemberRedisMoney c guid delta = some c' := h
      rw [BaseClub.incrMemberRedisMoney] at h
      split at h
      · cases h; exact .refl view
      · split at h
        · cases h
          exact .frame rfl view rfl
        · exact incrTeamMoney_prunes h rfl view rfl
  | read =>
      cases h
      exact .frame rfl view rfl
  | expire =>
      cases h
      exact .frame rfl rfl rfl

/-- A request that puts somebody under a partner writes that and nobody's rank of boss. -/
theorem handle_puts {r : OnClub.Office × Request} {q : Guid} (place : puts c r = some (g, q))
    (h : handle c r = some c') :
    c'.parent = Function.update c.parent g (nonzero (some q)) ∧
      c'.memberPartnerView = c'.clubMemberPartner ∧
      ∀ x, c'.clubRole.hget x = some .boss → c.clubRole.hget x = some .boss := by
  obtain ⟨o, request⟩ := r
  cases request with
  | fullJoin guid inviter teamId =>
      rw [puts] at place
      obtain ⟨r, joined, rfl⟩ := Option.map_eq_some_iff.1 h
      dsimp only at place
      split at place
      · cases place
      · rename_i accepted
        cases place
        obtain ⟨right, known⟩ := not_or.1 accepted
        rw [BaseClub.fullJoin, if_neg right, if_neg known] at joined
        obtain ⟨left, walk, rfl⟩ := Option.map_eq_some_iff.1 joined
        obtain ⟨teams, -, rfl⟩ := Option.map_eq_some_iff.1 walk
        exact ⟨partnerOf_hset _ _ _, rfl, fun _ boss => boss⟩
  | addPartner guid target =>
      cases h
      rw [puts] at place
      dsimp only at place
      split at place
      · cases place
      · rename_i accepted
        cases place
        have given : (OnClub.addPartner o c guid g).2 =
            ClubPartner.create c g (if OnClub.isLeader c guid then c.owner else guid) := by
          simp only [not_or] at accepted
          rw [OnClub.addPartner, if_neg accepted.1, if_neg accepted.2.1, if_neg accepted.2.2.1,
            if_neg accepted.2.2.2]
        rw [given]
        refine ⟨partnerOf_hset _ _ _, rfl, fun x boss => ?_⟩
        have boss : (c.clubRole.hset g .partner).hget x = some .boss := boss
        rw [hget_hset] at boss
        split at boss
        · cases boss
        · exact boss
  | _ => cases place

/-! ### Runs -/

/-- The invariant: a forest, the groups the same by group and by team, without a boss, and
nowhere a team and one below it. -/
structure Grouped (b : BlockClub) : Prop where
  rooted : BlockClub.Rooted b.club
  inverse : ∀ group team, team ∈ b.groupTeams group ↔ group ∈ b.teamGroups team
  boss : ∀ group team, team ∈ b.groupTeams group → b.club.clubRole.hget team ≠ some .boss
  apart : BlockClub.Apart b

variable {b b' : BlockClub} {group : Nat} {q t : Guid}

/-- A player can be put under another: it is no boss, the other is not itself or below it, and
no group has a team of the branch that moves and one of the branch it comes to. -/
structure FreePlace (b : BlockClub) (g q : Guid) : Prop where
  boss : b.club.clubRole.hget g ≠ some .boss
  other : q ≠ g
  outside : ¬ Above b.club.parent q g
  groups : ∀ group s t, s ∈ b.groupTeams group → t ∈ b.groupTeams group →
    s = g ∨ Above b.club.parent s g → ¬ (t = q ∨ Above b.club.parent q t)

/-- The guard of a run: whoever is put under somebody has a free place there. -/
def Unblocked (b : BlockClub) : BlockRequest → Prop
  | .club office request => ∀ g q, puts b.club (office, request) = some (g, q) → FreePlace b g q
  | _ => True

theorem createdBlock_grouped (h : CreatedBlock b) : Grouped b := by
  obtain ⟨⟨owner, type, playerData, created⟩, -, teams, groups⟩ := h
  have parent : ∀ x, b.club.parent x = none := by
    intro x
    rw [created]
    rfl
  refine ⟨⟨fun a => ⟨[], ?_⟩, ?_, fun guid _ => parent guid⟩, ?_, ?_, ?_⟩
  · rw [parent]
    exact .top
  · rw [created]
    rfl
  · intro group team
    rw [teams, groups]
    exact iff_of_false (Finset.notMem_empty _) (Finset.notMem_empty _)
  · intro group team member
    rw [teams] at member
    exact absurd member (Finset.notMem_empty _)
  · intro group s t member
    rw [teams] at member
    exact absurd member (Finset.notMem_empty _)

theorem Grouped.prunes (inv : Grouped b) (h : Prunes b.club c') : Grouped { b with club := c' } := by
  refine ⟨⟨inv.rooted.grounded.prune h.parent, h.view, fun guid boss => ?_⟩, inv.inverse, ?_, ?_⟩
  · have root := inv.rooted.boss guid (h.boss guid boss)
    cases up : c'.parent guid with
    | none => rfl
    | some y =>
        rw [h.parent guid y up] at root
        cases root
  · intro group team member boss
    exact inv.boss group team member (h.boss team boss)
  · intro group s t hs ht above
    exact inv.apart group s t hs ht (above.prune h.parent)

theorem Grouped.puts (inv : Grouped b) (free : FreePlace b g q)
    (parent : c'.parent = Function.update b.club.parent g (nonzero (some q)))
    (view : c'.memberPartnerView = c'.clubMemberPartner)
    (boss : ∀ x, c'.clubRole.hget x = some .boss → b.club.clubRole.hget x = some .boss) :
    Grouped { b with club := c' } := by
  by_cases nobody : q = 0
  · -- nobody stands under the player 0
    refine inv.prunes ⟨fun x y up => ?_, view, boss⟩
    rw [parent, nobody] at up
    by_cases here : x = g
    · rw [here, Function.update_self] at up
      cases up
    · rwa [Function.update_of_ne here] at up
  · have put : nonzero (some q) = some q := by simp [nonzero, nobody]
    rw [put] at parent
    refine ⟨⟨?_, view, fun guid role => ?_⟩, inv.inverse, ?_, ?_⟩
    · rw [parent]
      exact inv.rooted.grounded.reparent free.outside free.other
    · have role := boss guid role
      have other : guid ≠ g := fun same => free.boss (same ▸ role)
      rw [parent, Function.update_of_ne other]
      exact inv.rooted.boss guid role
    · intro group team member role
      exact inv.boss group team member (boss team role)
    · intro group s t hs ht above
      have above : Above c'.parent s t := above
      rw [parent] at above
      cases above_reparent free.outside free.other above with
      | inl before => exact inv.apart group s t hs ht before
      | inr through => exact free.groups group s t hs ht through.1 through.2

/-- The check of a new team looks at every pair that it makes. -/
theorem relatedTo_spec (rooted : BlockClub.Rooted b.club) (group : Nat) (team : Guid) :
    ∃ related, b.relatedTo group team = some related ∧ (related = false →
      ∀ gtid ∈ b.groupTeams group, ∀ bteam branch, b.blockTeamBranch team = some bteam →
        b.teamBranch gtid = some branch → gtid ∉ bteam ∧ team ∉ branch) := by
  obtain ⟨bteam, walk, -⟩ := BlockClub.blockTeamBranch_spec rooted team
  have walks : ∀ gtid ∈ ascending (b.groupTeams group), ∃ found,
      ((b.teamBranch gtid).map fun branch => decide (gtid ∈ bteam ∨ team ∈ branch)) = some found := by
    intro gtid _
    obtain ⟨branch, walk, -⟩ := BlockClub.teamBranch_spec rooted gtid
    exact ⟨_, by rw [walk]; rfl⟩
  obtain ⟨found, checked, all⟩ := BlockClub.mapM_total walks
  refine ⟨_, by rw [BlockClub.relatedTo, walk, Option.bind_some, checked]; rfl, ?_⟩
  intro unrelated gtid member bteam' branch walk' up
  rw [walk] at walk'
  cases walk'
  have listed := (all (decide (gtid ∈ bteam ∨ team ∈ branch))).2
    ⟨gtid, mem_ascending.2 member, by rw [up]; rfl⟩
  have clear := List.any_eq_false.1 unrelated _ listed
  simp only [id, decide_eq_true_eq, not_or] at clear
  exact clear

/-- A new team of a group has no team of it above it and none below it. -/
theorem relatedTo_apart (inv : Grouped b) (unrelated : b.relatedTo group t = some false) :
    ∀ s ∈ b.groupTeams group, ¬ Above b.club.parent t s ∧ ¬ Above b.club.parent s t := by
  intro s member
  obtain ⟨related, checked, clear⟩ := relatedTo_spec inv.rooted group t
  rw [unrelated] at checked
  obtain ⟨bteam, walk, higher, -⟩ := BlockClub.blockTeamBranch_spec inv.rooted t
  obtain ⟨branch, walk', covers⟩ := BlockClub.teamBranch_spec inv.rooted s
  have away := clear (Option.some.inj checked).symm s member bteam branch walk walk'
  constructor
  · intro above
    exact away.1 ((higher s).2 (.inr ⟨above, inv.boss group s member⟩))
  · intro above
    exact away.2 (covers t above)

theorem Grouped.insertTeam (inv : Grouped b) (role : b.club.clubRole.hget t = some .partner)
    (unrelated : b.relatedTo group t = some false) :
    Grouped { b with
      groupTeams := Function.update b.groupTeams group (insert t (b.groupTeams group))
      teamGroups := Function.update b.teamGroups t (insert group (b.teamGroups t)) } := by
  have among : ∀ other s, s ∈ Function.update b.groupTeams group (insert t (b.groupTeams group)) other →
      other = group ∧ s = t ∨ s ∈ b.groupTeams other := by
    intro other s member
    by_cases here : other = group
    · rw [here, Function.update_self, Finset.mem_insert] at member
      rw [here]
      exact member.imp (fun same => ⟨rfl, same⟩) id
    · rw [Function.update_of_ne here] at member
      exact .inr member
  have away := relatedTo_apart inv unrelated
  refine ⟨inv.rooted, fun other s => ?_, fun other s member => ?_, fun other s u hs hu above => ?_⟩
  · show s ∈ Function.update b.groupTeams group (insert t (b.groupTeams group)) other ↔
      other ∈ Function.update b.teamGroups t (insert group (b.teamGroups t)) s
    by_cases here : other = group
    · by_cases same : s = t
      · rw [here, same, Function.update_self, Function.update_self]
        exact iff_of_true (Finset.mem_insert_self _ _) (Finset.mem_insert_self _ _)
      · rw [here, Function.update_self, Function.update_of_ne same, Finset.mem_insert, ← inv.inverse]
        exact or_iff_right same
    · by_cases same : s = t
      · rw [same, Function.update_self, Function.update_of_ne here, Finset.mem_insert, inv.inverse]
        exact (or_iff_right here).symm
      · rw [Function.update_of_ne here, Function.update_of_ne same]
        exact inv.inverse other s
  · cases among other s member with
    | inl new =>
        show b.club.clubRole.hget s ≠ _
        rw [new.2, role]
        decide
    | inr old => exact inv.boss other s old
  · have above : Above b.club.parent s u := above
    cases among other s hs with
    | inl new =>
        cases among other u hu with
        | inl also =>
            rw [new.2, also.2] at above
            exact inv.rooted.grounded.not_self above
        | inr old =>
            rw [new.1] at old
            rw [new.2] at above
            exact (away u old).1 above
    | inr old =>
        cases among other u hu with
        | inl new =>
            rw [new.1] at old
            rw [new.2] at above
            exact (away s old).2 above
        | inr also => exact inv.apart other s u old also above

theorem Grouped.addTeam {guid : Guid} {r : BlockClub.Result × BlockClub} (inv : Grouped b)
    (h : b.addTeam guid group t = some r) : Grouped r.2 := by
  rw [BlockClub.addTeam] at h
  split at h
  · cases h; exact inv
  · split at h
    · cases h; exact inv
    · split at h
      · cases h; exact inv
      · split at h
        · cases h; exact inv
        · rename_i partner
          split at h
          · cases h; exact inv
          · obtain ⟨related, checked, rfl⟩ := Option.map_eq_some_iff.1 h
            have role := of_decide_eq_true (Bool.eq_true_of_not_eq_false partner)
            cases related with
            | true => exact inv
            | false => exact inv.insertTeam role checked

/-- Taking teams off groups keeps the invariant. -/
theorem Grouped.fewer (inv : Grouped b) (club : b'.club = b.club)
    (fewer : ∀ group team, team ∈ b'.groupTeams group → team ∈ b.groupTeams group)
    (inverse : ∀ group team, team ∈ b'.groupTeams group ↔ group ∈ b'.teamGroups team) :
    Grouped b' := by
  refine ⟨?_, inverse, fun group team member => ?_, fun group s t hs ht => ?_⟩
  · rw [club]
    exact inv.rooted
  · rw [club]
    exact inv.boss group team (fewer group team member)
  · rw [club]
    exact inv.apart group s t (fewer group s hs) (fewer group t ht)

theorem Grouped.newGroup {guid : Guid} (inv : Grouped b) : Grouped (b.newGroup guid).2 := by
  rw [BlockClub.newGroup]
  split
  · exact inv
  · exact inv.fewer rfl (fun _ _ member => member) inv.inverse

theorem Grouped.delGroup {guid : Guid} (inv : Grouped b) : Grouped (b.delGroup guid group).2 := by
  rw [BlockClub.delGroup]
  split
  · exact inv
  · refine inv.fewer rfl (fun other team member => ?_) fun other team => ?_
    · by_cases here : other = group
      · rw [here] at member
        simp at member
      · simpa [Function.update_of_ne here] using member
    · by_cases here : other = group
      · rw [here]
        by_cases listed : team ∈ b.groupTeams group
        · simp [listed]
        · simp [listed, ← inv.inverse]
      · by_cases listed : team ∈ b.groupTeams group
        · simp [listed, here, inv.inverse]
        · simp [Function.update_of_ne here, listed, inv.inverse]

theorem Grouped.removeTeam {guid : Guid} (inv : Grouped b) : Grouped (b.removeTeam guid group t).2 := by
  rw [BlockClub.removeTeam]
  split
  · exact inv
  · split
    · exact inv
    · split
      · exact inv
      · refine inv.fewer rfl (fun other team member => ?_) fun other team => ?_
        · by_cases here : other = group
          · rw [here] at member ⊢
            simp only [Function.update_self] at member
            exact Finset.mem_of_mem_erase member
          · simpa [Function.update_of_ne here] using member
        · by_cases here : other = group <;> by_cases same : team = t <;>
            simp [here, same, Function.update_of_ne, inv.inverse]

theorem handleBlock_grouped {r : BlockRequest} (inv : Grouped b) (ok : Unblocked b r)
    (h : handleBlock b r = some b') : Grouped b' := by
  cases r with
  | club office request =>
      obtain ⟨club, handled, rfl⟩ := Option.map_eq_some_iff.1 h
      cases place : puts b.club (office, request) with
      | none => exact inv.prunes (handle_prunes inv.rooted.view place handled)
      | some put =>
          obtain ⟨g, q⟩ := put
          obtain ⟨parent, view, boss⟩ := handle_puts place handled
          exact inv.puts (ok g q place) parent view boss
  | newGroup guid => cases h; exact inv.newGroup
  | delGroup guid group => cases h; exact inv.delGroup
  | addTeam guid group team =>
      obtain ⟨r, added, rfl⟩ := Option.map_eq_some_iff.1 h
      exact inv.addTeam added
  | removeTeam guid group team => cases h; exact inv.removeTeam

/-- In every club reached by requests that meet the guard the groups are apart, and the test
says for every player and all seated players what the plain definition says. -/
theorem block_groups_apart (reached : BlockReaches Unblocked b) :
    BlockClub.Apart b ∧ ∀ players guid, ∃ blocked,
      b.isBlockInBlockTeamGroup players guid = some blocked ∧
        (blocked = true ↔ BlockClub.PairBlocked b players guid) := by
  have inv : Grouped b :=
    reached.invariant (fun _ => createdBlock_grouped) fun _ _ _ => handleBlock_grouped
  exact ⟨inv.apart, BlockClub.isBlock_iff inv.rooted inv.inverse inv.apart⟩

/-- Nobody has a commission or a seat; members are met in ascending order. -/
def blockOffice : OnClub.Office where
  commission := fun _ => 0
  agentLevel := fun _ => none
  agentLevelLimit := none
  gaming := fun _ => false
  pairs := ascending
  mem_pairs := fun _ _ => mem_ascending
  nodup_pairs := fun _ => List.nodup_range.filter _

/-- A new club of the player 1, whom every player number knows. -/
def newBlockClub : BlockClub where
  club := BaseClub.create 1 .union fun _ => true
  groupId := 0
  groupAll := ∅
  groupTeams := fun _ => ∅
  teamGroups := fun _ => ∅

/-- The players 2 and 3 join under the owner, become partners and come into one group. -/
def twoTeams : List BlockRequest :=
  [.club blockOffice (.fullJoin 2 (some 1) none), .club blockOffice (.addPartner 1 2),
    .club blockOffice (.fullJoin 3 (some 1) none), .club blockOffice (.addPartner 1 3),
    .newGroup 1, .addTeam 1 1 2, .addTeam 1 1 3]

theorem freePlace_root (boss : b.club.clubRole.hget g ≠ some .boss) (other : q ≠ g)
    (root : b.club.parent q = none) (empty : ∀ group, b.groupTeams group = ∅) : FreePlace b g q := by
  refine ⟨boss, other, not_above_of_root root, fun group s t hs => ?_⟩
  rw [empty] at hs
  exact absurd hs (Finset.notMem_empty _)

theorem two_teams_blocked :
    ∃ b, twoTeams.foldlM handleBlock newBlockClub = some b ∧
      b.isBlockInBlockTeamGroup [2] 3 = some true ∧ BlockClub.Apart b ∧
      ∀ players guid, ∃ blocked, b.isBlockInBlockTeamGroup players guid = some blocked ∧
        (blocked = true ↔ BlockClub.PairBlocked b players guid) := by
  refine ⟨_, rfl, by decide, block_groups_apart ?_⟩
  have created : BlockReaches Unblocked newBlockClub :=
    .start ⟨⟨1, .union, fun _ => true, rfl⟩, rfl, fun _ => rfl, fun _ => rfl⟩
  have joined := Runs.Reaches.next (.club blockOffice (.fullJoin 2 (some 1) none)) created
    (by
      intro g q place
      cases place
      exact freePlace_root (by decide) (by decide) rfl fun _ => rfl) rfl
  have promoted := Runs.Reaches.next (.club blockOffice (.addPartner 1 2)) joined
    (by
      intro g q place
      cases place
      exact freePlace_root (by decide) (by decide) rfl fun _ => rfl) rfl
  have joined' := Runs.Reaches.next (.club blockOffice (.fullJoin 3 (some 1) none)) promoted
    (by
      intro g q place
      cases place
      exact freePlace_root (by decide) (by decide) rfl fun _ => rfl) rfl
  have promoted' := Runs.Reaches.next (.club blockOffice (.addPartner 1 3)) joined'
    (by
      intro g q place
      cases place
      exact freePlace_root (by decide) (by decide) rfl fun _ => rfl) rfl
  have group := Runs.Reaches.next (BlockRequest.newGroup 1) promoted' True.intro rfl
  have first := Runs.Reaches.next (BlockRequest.addTeam 1 1 2) group True.intro rfl
  exact Runs.Reaches.next (BlockRequest.addTeam 1 1 3) first True.intro rfl

/-- The team 3 is dismissed, leaves, comes back under the team 2 and becomes a partner there. -/
def comesBackBelow : List BlockRequest :=
  twoTeams ++ [.club blockOffice (.removePartner 1 3), .club blockOffice (.kickout 1 3),
    .club blockOffice (.fullJoin 3 (some 2) none), .club blockOffice (.addPartner 2 3)]

/-- The group still has both, and the test misses the pair of 2 and 3. -/
theorem dismissed_team_stays_in_group :
    ¬ ∀ b, BlockReaches (fun _ _ => True) b →
      BlockClub.Apart b ∧ ∀ players guid, ∃ blocked,
        b.isBlockInBlockTeamGroup players guid = some blocked ∧
          (blocked = true ↔ BlockClub.PairBlocked b players guid) := by
  intro claim
  have created : BlockReaches (fun _ _ => True) newBlockClub :=
    .start ⟨⟨1, .union, fun _ => true, rfl⟩, rfl, fun _ => rfl, fun _ => rfl⟩
  obtain ⟨b, run, second, third, under⟩ :
      ∃ b, comesBackBelow.foldlM handleBlock newBlockClub = some b ∧
        2 ∈ b.groupTeams 1 ∧ 3 ∈ b.groupTeams 1 ∧ b.club.parent 3 = some 2 :=
    ⟨_, rfl, by decide, by decide, by decide⟩
  have apart := (claim b (Runs.reachable_of_foldlM created run)).1
  exact apart 1 3 2 third second (.single under)

end FkServer
