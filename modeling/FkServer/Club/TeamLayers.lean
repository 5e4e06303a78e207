import FkServer.Club.Handlers
import FkServer.Club.TeamBranches

/-!
Same-team blocking within two layers. `is_block_in_2_team_layer` means to leave the club owner
out of both branches it compares, but takes the first team out of the joining player's branch
when it is the seated player's branch that starts with the owner, and each such player takes
one more.
-/
namespace FkServer
open RedisHash Hash ParentForest

/-- A partner forest with the club owner, who is under nobody and is no partner. -/
structure OwnedForest extends PartnerForest where
  ownerTop : partnerOf club.memberPartnerView club.owner = none
  ownerRole : OnClub.isPartner club club.owner = false

namespace BaseClub

/-- The loop of `team_parents_within_layer`. -/
def parentsWithinLayer (c : Club) : Nat → Guid → List Guid
  | 0, _ => []
  | layer + 1, pid =>
      match partnerOf c.memberPartnerView pid with
      | none => []
      | some parent => parent :: parentsWithinLayer c layer parent

def teamParentsWithinLayer (c : Club) (guid : Guid) (layer : Nat) : List Guid :=
  (if OnClub.isPartner c guid then [guid] else []) ++ parentsWithinLayer c layer guid

/-- `if other_pids[1] == self.owner`: the nearest team of a player is the owner's. -/
def nextToOwner (c : Club) (p : Guid) : Bool :=
  (teamParentsWithinLayer c p 2).head? = some c.owner

/-- The loop over the seated players, which share the one list `pids`. -/
def sharesTeam (c : Club) (pids : List Guid) : List Guid → Bool
  | [] => false
  | p :: players =>
      let otherPids := teamParentsWithinLayer c p 2
      let pids := if nextToOwner c p then pids.tail else pids
      let inter := pids.filter (· ∈ otherPids)
      if 0 < inter.length then true else sharesTeam c pids players

/-- The list with which the loop starts: the joining player's teams from the top. -/
def joiningTeams (c : Club) (guid : Guid) : List Guid :=
  let pids := (teamParentsWithinLayer c guid 2).reverse
  if pids.head? = some c.owner then pids.tail else pids

def isBlockIn2TeamLayer (c : Club) (blockPartnerPlayer2Layer : Bool) (players : List Guid)
    (guid : Guid) : Bool :=
  if blockPartnerPlayer2Layer then sharesTeam c (joiningTeams c guid) players else false

/-! ### Teams within two layers -/

/-- `team` is the player's own, the one above or the one above that, and not the owner's. -/
def WithinTwoLayers (c : Club) (guid team : Guid) : Prop :=
  team ≠ c.owner ∧ (team = guid ∧ OnClub.isPartner c guid = true ∨
    partnerOf c.memberPartnerView guid = some team ∨
      ∃ parent, partnerOf c.memberPartnerView guid = some parent ∧
        partnerOf c.memberPartnerView parent = some team)

/-- A seated player shares a team with the joining one. -/
def SharesTeam (c : Club) (players : List Guid) (guid : Guid) : Prop :=
  ∃ p ∈ players, ∃ team, WithinTwoLayers c guid team ∧ WithinTwoLayers c p team

/-- A seated player shares a team that is not among the first of the joining player's teams
from the top, one for each player seated before him who is next to the owner. -/
def SharesLeftTeam (c : Club) (players : List Guid) (guid : Guid) : Prop :=
  ∃ before p after, players = before ++ p :: after ∧
    ∃ team ∈ (joiningTeams c guid).drop (before.countP (nextToOwner c)), WithinTwoLayers c p team

variable {c : Club} {forest : OwnedForest} {guid p team : Guid} {l pids players : List Guid}

theorem parents_top {layer : Nat} (top : partnerOf c.memberPartnerView guid = none) :
    parentsWithinLayer c layer guid = [] := by
  cases layer with
  | zero => rfl
  | succ layer => simp [parentsWithinLayer, top]

theorem parents_up {layer : Nat} (up : partnerOf c.memberPartnerView guid = some p) :
    parentsWithinLayer c (layer + 1) guid = p :: parentsWithinLayer c layer p := by
  simp [parentsWithinLayer, up]

theorem mem_within_two : team ∈ teamParentsWithinLayer c guid 2 ↔
    team = guid ∧ OnClub.isPartner c guid = true ∨
      partnerOf c.memberPartnerView guid = some team ∨
        ∃ parent, partnerOf c.memberPartnerView guid = some parent ∧
          partnerOf c.memberPartnerView parent = some team := by
  have own : team ∈ (if OnClub.isPartner c guid then [guid] else []) ↔
      team = guid ∧ OnClub.isPartner c guid = true := by
    by_cases partner : OnClub.isPartner c guid = true
    · simp [partner]
    · simp [partner]
  rw [teamParentsWithinLayer, List.mem_append, own]
  refine or_congr Iff.rfl ?_
  cases above : partnerOf c.memberPartnerView guid with
  | none => simp [parents_top above]
  | some parent =>
      rw [parents_up above]
      cases higher : partnerOf c.memberPartnerView parent with
      | none => simp [parents_top higher, higher, eq_comm]
      | some grand => simp [parentsWithinLayer, higher, eq_comm]

/-- A list is without the owner but for its end, if it ends where the walk meets him. -/
theorem owner_last_cons {first : Guid} (other : first ≠ forest.club.owner)
    (rest : forest.club.owner ∉ l.dropLast) : forest.club.owner ∉ (first :: l).dropLast := by
  cases l with
  | nil => simp
  | cons next l =>
      rw [List.dropLast_cons_cons, List.mem_cons, not_or]
      exact ⟨other.symm, rest⟩

instance : Decidable (WithinTwoLayers c guid team) :=
  decidable_of_iff (team ≠ c.owner ∧ team ∈ teamParentsWithinLayer c guid 2) (by
    rw [mem_within_two, WithinTwoLayers])

/-- Nobody stands above the owner, so the walk meets him last. -/
theorem owner_last (layer : Nat) (guid : Guid) :
    forest.club.owner ∉ (parentsWithinLayer forest.club layer guid).dropLast := by
  induction layer generalizing guid with
  | zero => simp [parentsWithinLayer]
  | succ layer ih =>
      cases above : partnerOf forest.club.memberPartnerView guid with
      | none => simp [parents_top above]
      | some parent =>
          rw [parents_up above]
          by_cases top : parent = forest.club.owner
          · simp [parents_top (top ▸ forest.ownerTop)]
          · exact owner_last_cons top (ih parent)

theorem owner_last_within (guid : Guid) :
    forest.club.owner ∉ (teamParentsWithinLayer forest.club guid 2).dropLast := by
  rw [teamParentsWithinLayer]
  by_cases partner : OnClub.isPartner forest.club guid = true
  · rw [if_pos partner, List.singleton_append]
    refine owner_last_cons (fun same => ?_) (owner_last 2 guid)
    rw [same, forest.ownerRole] at partner
    cases partner
  · rw [if_neg partner, List.nil_append]
    exact owner_last 2 guid

theorem mem_joiningTeams : team ∈ joiningTeams forest.club guid ↔
    WithinTwoLayers forest.club guid team := by
  have last := @owner_last_within forest guid
  rw [WithinTwoLayers, ← mem_within_two, joiningTeams]
  rcases List.eq_nil_or_concat (teamParentsWithinLayer forest.club guid 2) with
    none | ⟨lower, top, split⟩
  · simp [none]
  · rw [List.concat_eq_append] at split
    rw [split] at last ⊢
    rw [List.dropLast_concat] at last
    rw [List.reverse_append, List.reverse_singleton, List.singleton_append, List.head?_cons,
      List.tail_cons, List.mem_append, List.mem_singleton]
    by_cases owner : top = forest.club.owner
    · rw [if_pos (congrArg some owner), List.mem_reverse]
      refine ⟨fun member => ⟨fun same => last (same ▸ member), .inl member⟩, fun h => ?_⟩
      exact h.2.resolve_right fun same => h.1 (same.trans owner)
    · rw [if_neg fun same => owner (Option.some.inj same), List.mem_cons, List.mem_reverse, or_comm]
      refine ⟨fun member => ⟨fun same => ?_, member⟩, And.right⟩
      cases member with
      | inl inner => exact last (same ▸ inner)
      | inr here => exact owner (here.symm.trans same)

/-! ### The loop -/

theorem shares_here : 0 < (pids.filter (· ∈ teamParentsWithinLayer c p 2)).length ↔
    ∃ team ∈ pids, team ∈ teamParentsWithinLayer c p 2 := by
  rw [List.length_pos_iff_exists_mem]
  simp

/-- Each player next to the owner takes one team off the list for himself and those after. -/
theorem sharesTeam_iff : sharesTeam c pids players = true ↔ ∃ before p after,
    players = before ++ p :: after ∧
      ∃ team ∈ pids.drop ((before ++ [p]).countP (nextToOwner c)),
        team ∈ teamParentsWithinLayer c p 2 := by
  induction players generalizing pids with
  | nil => simp [sharesTeam]
  | cons first players ih =>
      -- what the first player leaves on the list for the loop after him
      have left : (if nextToOwner c first then pids.tail else pids) =
          pids.drop ([first].countP (nextToOwner c)) := by
        cases next : nextToOwner c first with
        | true => simp [next]
        | false => simp [next]
      rw [sharesTeam, left]
      by_cases here : ∃ team ∈ pids.drop ([first].countP (nextToOwner c)),
          team ∈ teamParentsWithinLayer c first 2
      · rw [if_pos (shares_here.2 here)]
        exact iff_of_true rfl ⟨[], first, players, rfl, here⟩
      · rw [if_neg fun some => here (shares_here.1 some), ih]
        constructor
        · rintro ⟨before, p, after, rfl, shared⟩
          refine ⟨first :: before, p, after, rfl, ?_⟩
          rwa [List.drop_drop, ← List.countP_append] at shared
        · rintro ⟨before, p, after, split, shared⟩
          cases before with
          | nil =>
              cases split
              exact absurd shared here
          | cons p' before =>
              cases split
              refine ⟨before, p, after, rfl, ?_⟩
              rwa [List.drop_drop, ← List.countP_append]

/-- Who is next to the owner has no other team within the layers. -/
theorem no_team_next_to_owner (next : nextToOwner forest.club p = true) :
    ¬ WithinTwoLayers forest.club p team := by
  rw [WithinTwoLayers, ← mem_within_two, not_and]
  intro other member
  have last := @owner_last_within forest p
  rw [nextToOwner, decide_eq_true_eq] at next
  cases list : teamParentsWithinLayer forest.club p 2 with
  | nil => simp [list] at member
  | cons top higher =>
      rw [list] at member next last
      cases Option.some.inj next
      cases higher with
      | nil => exact other (List.mem_singleton.1 member)
      | cons grand higher => exact last (by simp)

theorem sharesTeam_joining : sharesTeam forest.club (joiningTeams forest.club guid) players = true ↔
    SharesLeftTeam forest.club players guid := by
  rw [sharesTeam_iff, SharesLeftTeam]
  refine exists_congr fun before => exists_congr fun p => exists_congr fun after =>
    and_congr_right fun _ => ?_
  rw [List.countP_append]
  have team_of : ∀ team ∈ joiningTeams forest.club guid,
      (team ∈ teamParentsWithinLayer forest.club p 2 ↔ WithinTwoLayers forest.club p team) := by
    intro team member
    rw [WithinTwoLayers, ← mem_within_two]
    exact (and_iff_right (mem_joiningTeams.1 member).1).symm
  cases next : nextToOwner forest.club p with
  | false =>
      have none : [p].countP (nextToOwner forest.club) = 0 := by simp [next]
      rw [none, Nat.add_zero]
      exact exists_congr fun team => and_congr_right fun member =>
        team_of team (List.mem_of_mem_drop member)
  | true =>
      refine iff_of_false ?_ ?_
      · rintro ⟨team, member, shared⟩
        exact no_team_next_to_owner next ((team_of team (List.mem_of_mem_drop member)).1 shared)
      · rintro ⟨team, _, shared⟩
        exact no_team_next_to_owner next shared

/-- The answer is the pairwise one just when there is nobody to block for, or a shared team is
still on the list when its player's turn comes. -/
theorem is_block_in_2_team_layer_iff (forest : OwnedForest) (players : List Guid) (guid : Guid) :
    (isBlockIn2TeamLayer forest.club true players guid = true ↔ SharesTeam forest.club players guid) ↔
      (SharesTeam forest.club players guid → SharesLeftTeam forest.club players guid) := by
  have answer : isBlockIn2TeamLayer forest.club true players guid = true ↔
      SharesLeftTeam forest.club players guid := sharesTeam_joining
  rw [answer]
  refine ⟨Iff.mpr, fun left => ⟨?_, left⟩⟩
  rintro ⟨before, p, after, rfl, team, member, shared⟩
  exact ⟨p, by simp, team, mem_joiningTeams.1 (List.mem_of_mem_drop member), shared⟩

/-- The owner 1, the team 2 under it with the players 3 and 4, and the player 5 under the owner. -/
def teamOfTwo : Club :=
  { BaseClub.create 1 .union (fun _ => true) with
    clubRole := ⟨[(1, .boss), (2, .partner)]⟩
    clubMemberPartner := ⟨[(2, 1), (3, 2), (4, 2), (5, 1)]⟩ }

theorem teamOfTwo_smaller (guid parent : Guid)
    (up : partnerOf teamOfTwo.memberPartnerView guid = some parent) : parent < guid := by
  have stored := (partnerOf_eq_some.1 up).1
  rw [Hash.hget, List.lookup_eq_some_iff] at stored
  obtain ⟨before, after, split, -⟩ := stored
  have member : (guid, parent) ∈ [(2, 1), (3, 2), (4, 2), (5, 1)] := by
    rw [show [(2, 1), (3, 2), (4, 2), (5, 1)] = before ++ (guid, parent) :: after from split]
    simp
  simp only [List.mem_cons, Prod.mk.injEq, List.not_mem_nil, or_false] at member
  rcases member with ⟨rfl, rfl⟩ | ⟨rfl, rfl⟩ | ⟨rfl, rfl⟩ | ⟨rfl, rfl⟩ <;> decide

def ownedTeamOfTwo : OwnedForest where
  club := teamOfTwo
  grounded := .of_smaller teamOfTwo_smaller
  noPartner := rfl
  noRole := rfl
  ownerTop := rfl
  ownerRole := rfl

/-- Player 3 may not join team mate 4, unless player 5 has sat down before. -/
theorem passer_by_unblocks : ¬ ∀ (forest : OwnedForest) (players : List Guid) (guid : Guid),
    isBlockIn2TeamLayer forest.club true players guid = true ↔
      SharesTeam forest.club players guid := by
  intro pairwise
  have shared : SharesTeam teamOfTwo [5, 4] 3 := ⟨4, by decide, 2, by decide, by decide⟩
  have blocked := (pairwise ownedTeamOfTwo [5, 4] 3).2 shared
  have passed : isBlockIn2TeamLayer teamOfTwo true [5, 4] 3 = false := by decide
  exact Bool.false_ne_true (passed.symm.trans blocked)

end BaseClub
end FkServer
