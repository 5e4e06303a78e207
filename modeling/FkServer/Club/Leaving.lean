import FkServer.Club.PartnerTree
import Mathlib.Algebra.Ring.Int.Defs

/-!
Leaving a club takes the balance away: `on_cs_club_exit`, `on_cs_club_kickout`,
`on_cs_club_partner` with `REMOVE_PARTNER`, and `dismiss_club`. Each asks something else
about the money, and only about some of the commissions.
-/
namespace FkServer
open RedisHash Hash ParentForest

namespace OnClub

/-- What dismissing a club reads besides: its own money and commission, and the clubs below it. -/
structure DismissOffice extends Office where
  clubMoney : Int
  clubCommission : Int
  teams : Finset Nat
  teamsGaming : Bool

def memberMoneySum (c : Club) : Int := ∑ guid ∈ c.memberView, c.playerMoney.number guid

/-- `deep_member_money_sum`: for a club below, `team or ..` adds the table of the club to a
number or indexes a missing one, and either is a Lua error. -/
def deepMemberMoneySum (o : DismissOffice) (c : Club) : Option Int :=
  if o.teams = ∅ then some (memberMoneySum c + o.clubMoney + o.clubCommission) else none

/-- `base_club:dismiss`; the key of the member set is misspelt, so the set stays. -/
def dismiss (c : Club) : Club :=
  { c with
    clubMemberPartner := .empty
    clubRole := .empty
    playerMoney := c.playerMoney.hdels c.memberView }

/-- `dismiss_club` -/
def dismissClub (o : DismissOffice) (c : Club) : Option (Result × Club) :=
  if (∃ guid ∈ c.memberView, o.gaming guid = true) ∨ o.teamsGaming = true then
    some (.playerInGame, c)
  else
    (deepMemberMoneySum o c).map fun memberMoney =>
      if 0 < memberMoney then (.moreMaxLimit, c) else (.none, dismiss c)

/-- The requests by which members leave. -/
inductive Leaving
  | exit (guid exitGuid : Guid)
  | kickout (guid target : Guid)
  | removePartner (guid target : Guid)
  | dismiss

def leave (o : DismissOffice) (c : Club) : Leaving → Option (Result × Club)
  | .exit guid exitGuid => OnClub.exit c guid exitGuid
  | .kickout guid target => OnClub.kickout o.toOffice c guid target
  | .removePartner guid target => OnClub.removePartner o.toOffice c guid target
  | .dismiss => dismissClub o c

/-- Whom a request takes the club and the balance from. -/
def taken (c : Club) (r : Leaving) (out : Result × Club) : Finset Guid :=
  match r with
  | .dismiss => if out.1 = .none then c.memberView else ∅
  | _ => c.clubMember \ out.2.clubMember

end OnClub

open OnClub

variable {c c' c'' : Club} {o : DismissOffice} {g p : Guid}

/-! ### Taking a branch off -/

theorem Forested.grounded (inv : Forested c) : Grounded c.clubMemberPartner.hget := by
  intro a
  cases up : c.clubMemberPartner.hget a with
  | none => exact ⟨[], .top⟩
  | some q =>
      have other : a ≠ c.owner := by
        intro same
        rw [same, inv.root] at up
        cases up
      rw [← up]
      exact Climb.of_above_root inv.root (inv.reaches a (inv.record a q up) other)

/-- The club without some members, below whom nobody is left; whoever stays has the same place. -/
structure Cuts (c c' : Club) (gone : Guid → Prop) : Prop where
  forest : Forested c'
  owner : c'.owner = c.owner
  members : ∀ g, g ∈ c'.clubMember ↔ g ∈ c.clubMember ∧ ¬ gone g
  partner : ∀ g, g ∈ c'.clubMember → c'.clubMemberPartner.hget g = c.clubMemberPartner.hget g

variable {gone gone' : Guid → Prop}

theorem Cuts.refl (inv : Forested c) : Cuts c c fun _ => False :=
  ⟨inv, rfl, fun _ => (and_iff_left not_false).symm, fun _ _ => rfl⟩

theorem Cuts.trans (first : Cuts c c' gone) (second : Cuts c' c'' gone') :
    Cuts c c'' fun g => gone g ∨ gone' g := by
  refine ⟨second.forest, second.owner.trans first.owner, fun g => ?_, fun g member => ?_⟩
  · rw [second.members, first.members, not_or, and_assoc]
  · have before := ((second.members g).1 member).1
    rw [second.partner g member, first.partner g before]

theorem Cuts.congr (cuts : Cuts c c' gone) (same : ∀ g ∈ c.clubMember, gone g ↔ gone' g) :
    Cuts c c' gone' := by
  refine ⟨cuts.forest, cuts.owner, fun g => ?_, cuts.partner⟩
  rw [cuts.members]
  exact and_congr_right fun member => not_congr (same g member)

theorem Cuts.fewer (cuts : Cuts c c' gone) (x y : Guid)
    (under : c'.clubMemberPartner.hget x = some y) : c.clubMemberPartner.hget x = some y := by
  rw [← cuts.partner x (cuts.forest.record x y under)]
  exact under

theorem fullExit_cuts (inv : Forested c) (under : c.clubMemberPartner.hget g = some p)
    (leaf : ∀ x, c.clubMemberPartner.hget x ≠ some g) :
    ∃ r, BaseClub.fullExit c g = some r ∧ Cuts c r.2 (· = g) := by
  obtain ⟨teams, walk⟩ := (inv.grounded.prune fun x y up => (partnerOf_eq_some.1 up).1).climb
    (nonzero (some p))
  have walk : Climb (partnerOf c.memberPartnerView) (nonzero (some p)) teams := by
    rw [inv.view]
    exact walk
  have here : g ∈ c.readMemberPartner.clubPartnerMember p := (inv.listed g p).1 under
  have ends : ∃ r, BaseClub.fullExit c g = some r ∧ r.2.clubMember = c.clubMember.erase g ∧
      r.2.clubMemberPartner = c.clubMemberPartner.hdel g := by
    rw [BaseClub.fullExit, inv.view, under]
    dsimp only
    rw [ClubPartner.exit, if_neg (not_not.2 here)]
    exact ⟨_, Option.map_eq_some_iff.2 ⟨_, Option.map_eq_some_iff.2
      ⟨teams, Club.teamsFrom_complete walk, rfl⟩, rfl⟩, rfl, rfl⟩
  obtain ⟨r, exits, member, partner⟩ := ends
  obtain ⟨forest, owner, -, -⟩ := inv.fullExit leaf exits
  refine ⟨r, exits, forest, owner, fun x => ?_, fun x stays => ?_⟩
  · rw [member, Finset.mem_erase, and_comm]
  · rw [member, Finset.mem_erase] at stays
    rw [partner, hget_hdel, if_neg stays.1]

theorem dismiss_cuts (inv : Forested c) (other : p ≠ c.owner) (empty : c.clubPartnerMember p = ∅) :
    Cuts c (ClubPartner.dismiss c p) fun _ => False := by
  refine ⟨inv.dismiss other empty, rfl, fun _ => (and_iff_left not_false).symm, fun x _ => ?_⟩
  show (c.clubMemberPartner.hdels (c.clubPartnerMember p)).hget x = _
  rw [hget_hdels, empty, if_neg (Finset.notMem_empty x)]

/-- Who is below a member that stays was below it before, and is no more than that. -/
theorem Cuts.below_subset (cuts : Cuts c c' gone) (p : Guid) :
    below c'.clubMemberPartner.hget c'.clubMember p ⊆ below c.clubMemberPartner.hget c.clubMember p := by
  intro x member
  rw [mem_below] at member ⊢
  exact ⟨((cuts.members x).1 member.1).1, member.2.prune cuts.fewer⟩

/-- The loop over the members of a partner: `rest` with all that is below is still there. -/
structure Looping (c : Club) (p : Guid) (rest : List Guid) (c' : Club) : Prop where
  cuts : Cuts c c' fun g => Above c.clubMemberPartner.hget g p ∧
    ¬ ∃ mem ∈ rest, g = mem ∨ Above c.clubMemberPartner.hget g mem
  distinct : rest.Nodup
  children : ∀ mem ∈ rest, c.clubMemberPartner.hget mem = some p

variable {mem : Guid} {rest : List Guid}

theorem Looping.start (inv : Forested c) (o : Office) (p : Guid) :
    Looping c p (o.pairs (c.clubPartnerMember p)) c := by
  have children : ∀ mem, mem ∈ o.pairs (c.clubPartnerMember p) ↔
      c.clubMemberPartner.hget mem = some p := fun mem => by
    rw [o.mem_pairs, inv.listed]
  refine ⟨(Cuts.refl inv).congr fun g _ => ?_, o.nodup_pairs _, fun mem => (children mem).1⟩
  refine ⟨False.elim, fun gone => gone.2 ?_⟩
  obtain ⟨mem, up, here⟩ := above_tail.1 gone.1
  exact ⟨mem, (children mem).2 up, here⟩

theorem Looping.here (inv : Forested c) (loop : Looping c p (mem :: rest) c') :
    mem ∈ c'.clubMember ∧ c'.clubMemberPartner.hget mem = some p := by
  have under := loop.children mem List.mem_cons_self
  have here : mem ∈ c'.clubMember := (loop.cuts.members mem).2
    ⟨inv.record mem p under, fun gone => gone.2 ⟨mem, List.mem_cons_self, .inl rfl⟩⟩
  exact ⟨here, by rw [loop.cuts.partner mem here, under]⟩

/-- One turn of the loop: all below the member is gone, and the member goes. -/
theorem Looping.next (inv : Forested c) (loop : Looping c p (mem :: rest) c')
    (emptied : Cuts c' c'' fun g => Above c'.clubMemberPartner.hget g mem) :
    ∃ r, BaseClub.fullExit c'' mem = some r ∧ Looping c p rest r.2 := by
  have under := loop.children mem List.mem_cons_self
  obtain ⟨here, up⟩ := loop.here inv
  have stays : mem ∈ c''.clubMember :=
    (emptied.members mem).2 ⟨here, loop.cuts.forest.grounded.not_self⟩
  have leaf : ∀ x, c''.clubMemberPartner.hget x ≠ some mem := by
    intro x below
    have member := emptied.forest.record x mem below
    exact ((emptied.members x).1 member).2 (.single (emptied.fewer x mem below))
  obtain ⟨r, exits, last⟩ :=
    fullExit_cuts emptied.forest ((emptied.partner mem stays).trans up) leaf
  obtain ⟨fresh, distinct⟩ := List.nodup_cons.1 loop.distinct
  refine ⟨r, exits, ((loop.cuts.trans emptied).trans last).congr fun g _ => ?_, distinct,
    fun x later => loop.children x (List.mem_cons_of_mem _ later)⟩
  -- whoever is below the member is below no other one
  have only : g = mem ∨ Above c.clubMemberPartner.hget g mem →
      Above c.clubMemberPartner.hget g p ∧
        ¬ ∃ x ∈ rest, g = x ∨ Above c.clubMemberPartner.hget g x := by
    intro below
    refine ⟨above_tail.2 ⟨mem, under, below⟩, fun other => ?_⟩
    obtain ⟨x, later, below'⟩ := other
    have sibling := loop.children x (List.mem_cons_of_mem _ later)
    have same := inv.grounded.siblings_apart under sibling below below'
    rw [← same] at later
    exact fresh later
  constructor
  · intro goes
    cases goes with
    | inl before =>
        cases before with
        | inl gone =>
            refine ⟨gone.1, fun later => gone.2 ?_⟩
            obtain ⟨x, later, below⟩ := later
            exact ⟨x, List.mem_cons_of_mem _ later, below⟩
        | inr below => exact only (.inr (below.prune loop.cuts.fewer))
    | inr same => exact only (.inl same)
  · intro goes
    by_cases below : g = mem ∨ Above c.clubMemberPartner.hget g mem
    · cases below with
      | inl same => exact .inr same
      | inr above =>
          refine .inl (.inr (above.keep fun x higher => ?_))
          obtain ⟨y, up, -⟩ := above_iff.1 higher
          exact loop.cuts.partner x ((loop.cuts.members x).2 ⟨inv.record x y up,
            fun gone => gone.2 ⟨mem, List.mem_cons_self, .inr higher⟩⟩)
    · refine .inl (.inl ⟨goes.1, fun other => ?_⟩)
      obtain ⟨x, later, below'⟩ := other
      cases List.mem_cons.1 later with
      | inl same => exact below (same ▸ below')
      | inr later => exact goes.2 ⟨x, later, below'⟩

/-- The branch below a partner goes, and the partner stays. -/
theorem recursiveDismiss_cuts (o : Office) {fuel : Nat} (inv : Forested c)
    (role : c.clubRole.hget p = some .partner)
    (enough : (below c.clubMemberPartner.hget c.clubMember p).card < fuel) :
    ∃ c', recursiveDismiss o fuel c p = some c' ∧
      Cuts c c' fun g => Above c.clubMemberPartner.hget g p := by
  induction fuel generalizing c p with
  | zero => cases enough
  | succ fuel ih =>
      have emptied : ∃ left, (o.pairs (c.clubPartnerMember p)).foldlM
          (fun c mem =>
            (if isPartner c mem then recursiveDismiss o fuel c mem else some c).bind fun c =>
              (BaseClub.fullExit c mem).map Prod.snd) c = some left ∧ Looping c p [] left := by
        refine Runs.foldlM_total (Looping c p) ?_ (.start inv o p)
        intro mem rest t loop
        obtain ⟨here, up⟩ := loop.here inv
        have dismissed : ∃ u, (if isPartner t mem then recursiveDismiss o fuel t mem else some t) =
            some u ∧ Cuts t u fun g => Above t.clubMemberPartner.hget g mem := by
          split <;> rename_i partner
          · refine ih loop.cuts.forest (of_decide_eq_true partner) ?_
            have smaller := Finset.card_lt_card
              (below_ssubset loop.cuts.forest.grounded here up)
            have fewer := Finset.card_le_card (loop.cuts.below_subset p)
            omega
          · have other : mem ≠ t.owner := by
              intro same
              rw [same, loop.cuts.forest.root] at up
              cases up
            have leaf := loop.cuts.forest.leaf other (not_isPartner partner)
            exact ⟨t, rfl, (Cuts.refl loop.cuts.forest).congr fun g _ =>
              ⟨False.elim, fun above => not_above_leaf leaf above⟩⟩
        obtain ⟨u, run, branch⟩ := dismissed
        obtain ⟨r, exits, loop'⟩ := loop.next inv branch
        exact ⟨r.2, by rw [run, Option.bind_some, exits]; rfl, loop'⟩
      obtain ⟨left, run, loop⟩ := emptied
      have cuts : Cuts c left fun g => Above c.clubMemberPartner.hget g p :=
        loop.cuts.congr fun g _ => and_iff_left (by simp)
      have other : p ≠ left.owner := by
        rw [cuts.owner]
        exact inv.not_owner (by rw [role]; decide)
      have empty : left.clubPartnerMember p = ∅ := by
        refine Finset.eq_empty_of_forall_notMem fun x listed => ?_
        have under := (cuts.forest.listed x p).2 listed
        exact ((cuts.members x).1 (cuts.forest.record x p under)).2 (.single (cuts.fewer x p under))
      refine ⟨_, by rw [recursiveDismiss, run]; rfl, ?_⟩
      exact (cuts.trans (dismiss_cuts cuts.forest other empty)).congr fun g _ => or_iff_left not_false

/-! ### The sum over a branch -/

/-- What the sum counts of a member below. -/
def worth (o : Office) (c : Club) (g : Guid) : Int :=
  c.playerMoney.number g + if isPartner c g then o.commission g else 0

/-- Nobody below `p` has money. -/
def Clear (c : Club) (p : Guid) : Prop :=
  ∀ g ∈ below c.clubMemberPartner.hget c.clubMember p, c.playerMoney.number g = 0

theorem Forested.clear_iff (inv : Forested c) (o : Office) (p : Guid) :
    Clear c p ↔ ∀ m ∈ o.pairs (c.clubPartnerMember p), c.playerMoney.number m = 0 ∧ Clear c m := by
  unfold Clear
  rw [below_children (fun m => (inv.listed m p).symm) fun m child =>
    inv.record m p ((inv.listed m p).2 child)]
  simp only [Finset.mem_biUnion, Finset.mem_insert, o.mem_pairs]
  constructor
  · intro clear m child
    exact ⟨clear m ⟨m, child, .inl rfl⟩, fun g member => clear g ⟨m, child, .inr member⟩⟩
  · intro clear g member
    obtain ⟨m, child, here⟩ := member
    cases here with
    | inl same => exact same ▸ (clear m child).1
    | inr lower => exact (clear m child).2 g lower

/-- What a member adds: its own worth and that of all below it. -/
noncomputable def share (o : Office) (c : Club) (m : Guid) : Int :=
  worth o c m + total c.clubMemberPartner.hget c.clubMember (worth o c) m

theorem Forested.total_eq (inv : Forested c) (o : Office) (p : Guid) :
    total c.clubMemberPartner.hget c.clubMember (worth o c) p =
      ((o.pairs (c.clubPartnerMember p)).map (share o c)).sum := by
  rw [total_children inv.grounded (fun m => (inv.listed m p).symm) (fun m child =>
    inv.record m p ((inv.listed m p).2 child)), ← List.sum_toFinset _ (o.nodup_pairs _)]
  refine Finset.sum_congr ?_ fun _ _ => rfl
  ext m
  rw [List.mem_toFinset, o.mem_pairs]

/-- The loop of the sum, with the members `rest` to come. -/
structure Summing (o : Office) (c : Club) (p : Guid) (rest : List Guid) (sum : Int × Bool) : Prop where
  paid : sum.1 + (rest.map (share o c)).sum =
    o.commission p + total c.clubMemberPartner.hget c.clubMember (worth o c) p
  clear : (sum.2 = true ∧ ∀ m ∈ rest, c.playerMoney.number m = 0 ∧ Clear c m) ↔ Clear c p
  listed : ∀ m ∈ rest, m ∈ c.clubPartnerMember p

theorem recursiveSum_spec (o : Office) {fuel : Nat} (inv : Forested c)
    (enough : (below c.clubMemberPartner.hget c.clubMember p).card < fuel) :
    ∃ empty, recursiveSum o c fuel p =
        some (o.commission p + total c.clubMemberPartner.hget c.clubMember (worth o c) p, empty) ∧
      (empty = true ↔ Clear c p) := by
  induction fuel generalizing p with
  | zero => cases enough
  | succ fuel ih =>
      -- each turn adds the member's money and what the members below it come to
      have turn : ∀ mem, mem ∈ c.clubPartnerMember p → ∃ sum empty,
          (if isPartner c mem then recursiveSum o c fuel mem else some (0, true)) = some (sum, empty) ∧
            sum + c.playerMoney.number mem = share o c mem ∧ (empty = true ↔ Clear c mem) := by
        intro mem child
        have up := (inv.listed mem p).2 child
        split <;> rename_i partner
        · have smaller := Finset.card_lt_card
            (below_ssubset inv.grounded (inv.record mem p up) up)
          obtain ⟨empty, run, clear⟩ := @ih mem (by omega)
          refine ⟨_, empty, run, ?_, clear⟩
          rw [share, worth, if_pos partner]
          omega
        · have other : mem ≠ c.owner := by
            intro same
            rw [same, inv.root] at up
            cases up
          have leaf := inv.leaf other (not_isPartner partner)
          have nobody : below c.clubMemberPartner.hget c.clubMember mem = ∅ :=
            Finset.eq_empty_of_forall_notMem fun g member => not_above_leaf leaf (mem_below.1 member).2
          refine ⟨0, true, rfl, ?_, ?_⟩
          · rw [share, worth, if_neg partner, total, nobody, Finset.sum_empty]
            omega
          · rw [Clear, nobody]
            simp
      have summed : ∃ sum, (o.pairs (c.clubPartnerMember p)).foldlM
          (fun (sum : Int × Bool) mem =>
            let money := c.playerMoney.number mem
            (if isPartner c mem then recursiveSum o c fuel mem else some (0, true)).map fun below =>
              (sum.1 + below.1 + money, sum.2 && below.2 && decide (money = 0)))
          (o.commission p, true) = some sum ∧ Summing o c p [] sum := by
        refine Runs.foldlM_total (Summing o c p) ?_ ?_
        · intro mem rest sum state
          obtain ⟨value, empty, run, adds, clear⟩ := turn mem (state.listed mem List.mem_cons_self)
          refine ⟨_, by rw [run]; rfl, ?_, ?_, fun m later =>
            state.listed m (List.mem_cons_of_mem _ later)⟩
          · have paid := state.paid
            rw [List.map_cons, List.sum_cons] at paid
            dsimp only
            omega
          · rw [← state.clear, List.forall_mem_cons, ← clear]
            simp only [Bool.and_eq_true, decide_eq_true_eq]
            tauto
        · refine ⟨?_, ?_, fun m => (o.mem_pairs _ m).1⟩
          · rw [inv.total_eq]
          · rw [inv.clear_iff o]
            exact and_iff_right rfl
      obtain ⟨sum, run, paid, clear, -⟩ := summed
      refine ⟨sum.2, ?_, ?_⟩
      · rw [recursiveSum, run, ← paid]
        simp
      · rw [← clear]
        simp

/-! ### The handlers -/

/-- The commissions that the sum over a branch counts. -/
noncomputable def branchCommission (o : Office) (c : Club) (p : Guid) : Int :=
  o.commission p + total c.clubMemberPartner.hget c.clubMember
    (fun g => if isPartner c g then o.commission g else 0) p

theorem total_of_clear {o : Office} (clear : Clear c p) :
    o.commission p + total c.clubMemberPartner.hget c.clubMember (worth o c) p =
      branchCommission o c p := by
  rw [branchCommission, total, total]
  congr 1
  refine Finset.sum_congr rfl fun g member => ?_
  rw [worth, clear g member, zero_add]

theorem Forested.below_card (inv : Forested c) (p : Guid) :
    (below c.clubMemberPartner.hget c.clubMember p).card < depth c := by
  have keys : below c.clubMemberPartner.hget c.clubMember p ⊆
      (c.memberPartnerView.fields.map Prod.fst).toFinset := by
    intro g member
    obtain ⟨q, up, -⟩ := above_iff.1 (mem_below.1 member).2
    rw [List.mem_toFinset, inv.view]
    exact mem_keys_of_hget up
  have fewer := (Finset.card_le_card keys).trans (List.toFinset_card_le _)
  rw [List.length_map] at fewer
  rw [depth]
  omega

theorem Forested.searchPartner (inv : Forested c) (pguid guid : Guid) :
    ∃ found, Transfer.searchPartner c pguid guid = some found ∧
      (found.isNone = true ↔ ¬ Above c.clubMemberPartner.hget guid pguid) := by
  obtain ⟨l, h⟩ := inv.grounded guid
  have short : l.length ≤ c.memberPartnerView.fields.length + 1 := by
    rw [inv.view]
    simpa using h.length_le fun x y up => mem_keys_of_hget up
  refine ⟨l.find? fun partner => partner = pguid, ?_, ?_⟩
  · rw [Transfer.searchPartner, inv.view] at *
    exact seek_of_climb h short
  · rw [← h.mem_above, Option.isNone_iff_eq_none, List.find?_eq_none]
    simp only [decide_eq_true_eq]
    exact ⟨fun away member => away pguid member rfl, fun away x member same => away (same ▸ member)⟩

def RefusesExit (c : Club) (guid exitGuid : Guid) : Prop :=
  (c.playerData guid = false ∨ (isLeader c guid || isPartner c guid) = false ∨
    isLeader c exitGuid = true) ∨ isPartner c exitGuid = true ∨ c.playerData exitGuid = false

def RefusesKickout (o : Office) (c : Club) (guid target : Guid) : Prop :=
  c.playerData guid = false ∨ (isLeader c guid || isPartner c guid) = false ∨
    (isLeader c target || isPartner c target) = true ∨ c.playerData target = false ∨
    target ∉ c.memberView ∨ o.gaming target = true ∨ c.playerMoney.number target ≠ 0

def RefusesRemoval (c : Club) (guid target : Guid) : Prop :=
  target ∉ c.memberView ∨ (isLeader c guid || isPartner c guid) = false ∨
    isPartner c target = false ∨
    isPartner c guid = true ∧ ¬ Above c.clubMemberPartner.hget target guid

theorem exit_of_refuses {guid exitGuid : Guid} (refuses : RefusesExit c guid exitGuid) :
    ∃ result, exit c guid exitGuid = some (result, c) := by
  rw [OnClub.exit]
  split
  · exact ⟨_, rfl⟩
  · rename_i right
    have refuses := refuses.resolve_left right
    split
    · exact ⟨_, rfl⟩
    · rename_i partner
      rw [if_neg (by simp [refuses.resolve_left partner])]
      exact ⟨_, rfl⟩

theorem exit_of_accepts {guid exitGuid : Guid} (accepts : ¬ RefusesExit c guid exitGuid) :
    exit c guid exitGuid = (BaseClub.fullExit c exitGuid).map fun r => (.none, r.2) := by
  obtain ⟨right, other⟩ := not_or.1 accepts
  obtain ⟨partner, known⟩ := not_or.1 other
  rw [OnClub.exit, if_neg right, if_neg partner, if_pos (Bool.eq_true_of_not_eq_false known)]

theorem exit_spec (inv : Forested c) {guid exitGuid : Guid} (accepts : ¬ RefusesExit c guid exitGuid) :
    c.clubMemberPartner.hget exitGuid = none ∧ exit c guid exitGuid = none ∨
      exitGuid ∈ c.clubMember ∧ c.clubMemberPartner.hget exitGuid ≠ none ∧
        ∃ c', exit c guid exitGuid = some (.none, c') ∧ Cuts c c' (· = exitGuid) := by
  rw [exit_of_accepts accepts]
  cases under : c.clubMemberPartner.hget exitGuid with
  | none =>
      refine .inl ⟨rfl, ?_⟩
      rw [BaseClub.fullExit, inv.view, under]
      rfl
  | some p =>
      have other : exitGuid ≠ c.owner := by
        intro same
        rw [same, inv.root] at under
        cases under
      have leaf := inv.leaf other (not_isPartner fun partner => accepts (.inr (.inl partner)))
      obtain ⟨r, exits, cuts⟩ := fullExit_cuts inv under leaf
      exact .inr ⟨inv.record _ _ under, Option.some_ne_none p, r.2, by rw [exits]; rfl, cuts⟩

theorem kickout_of_refuses {o : Office} {guid target : Guid} (union : c.type = .union)
    (refuses : RefusesKickout o c guid target) :
    ∃ result, result ≠ .none ∧ kickout o c guid target = some (result, c) := by
  rw [OnClub.kickout]
  rw [RefusesKickout] at refuses
  repeat' split
  all_goals first
    | exact ⟨_, by decide, rfl⟩
    | exfalso; tauto

theorem kickout_spec (inv : Forested c) {o : Office} {guid target : Guid}
    (accepts : ¬ RefusesKickout o c guid target) :
    target ∈ c.clubMember ∧ c.playerMoney.number target = 0 ∧
      ∃ c', kickout o c guid target = some (.none, c') ∧ Cuts c c' (· = target) := by
  simp only [RefusesKickout, not_or, not_not] at accepts
  obtain ⟨known, right, ordinary, known', member, idle, money⟩ := accepts
  have role := ordinary
  rw [Bool.not_eq_true, Bool.or_eq_false_iff] at role
  have here : target ∈ c.clubMember := by
    rw [← inv.members]
    exact member
  have other : target ≠ c.owner := inv.not_owner (not_isLeader (by simp [role.1]))
  obtain ⟨p, under, -⟩ := above_iff.1 (inv.reaches target here other)
  obtain ⟨r, exits, cuts⟩ := fullExit_cuts inv under
    (inv.leaf other (not_isPartner (by simp [role.2])))
  refine ⟨here, money, r.2, ?_, cuts⟩
  rw [OnClub.kickout, if_neg known, if_neg right, if_neg ordinary, if_neg known',
    if_neg (not_not.2 member), if_neg idle, if_neg fun owes => owes.2 money, exits]
  rfl

theorem removePartner_of_refuses (inv : Forested c) (o : Office) {guid target : Guid}
    (refuses : RefusesRemoval c guid target) :
    ∃ result, result ≠ .none ∧ removePartner o c guid target = some (result, c) := by
  rw [OnClub.removePartner]
  split
  · exact ⟨_, by decide, rfl⟩
  · rename_i member
    split
    · exact ⟨_, by decide, rfl⟩
    · rename_i right
      split
      · exact ⟨_, by decide, rfl⟩
      · rename_i partner
        obtain ⟨operator, away⟩ :=
          ((refuses.resolve_left member).resolve_left right).resolve_left partner
        obtain ⟨found, search, none⟩ := inv.searchPartner guid target
        rw [if_pos operator, search, Option.bind_some, if_pos (none.2 away)]
        exact ⟨_, by decide, rfl⟩

/-- What is left of a removal that the first checks let through. -/
theorem removePartner_of_accepts (inv : Forested c) (o : Office) {guid target : Guid}
    (accepts : ¬ RefusesRemoval c guid target) :
    c.clubRole.hget target = some .partner ∧ removePartner o c guid target =
      (recursiveSum o c (depth c) target).bind fun sum =>
        if 0 < sum.1 ∨ sum.2 = false then some (.moreMaxLimit, c)
        else (recursiveDismiss o (depth c) c target).map fun c => (.none, c) := by
  simp only [RefusesRemoval, not_or, not_not, not_and] at accepts
  obtain ⟨member, right, partner, above⟩ := accepts
  refine ⟨of_decide_eq_true (Bool.eq_true_of_not_eq_false partner), ?_⟩
  rw [OnClub.removePartner, if_neg (not_not.2 member), if_neg right, if_neg partner]
  split
  · rename_i operator
    obtain ⟨found, search, none⟩ := inv.searchPartner guid target
    rw [search, Option.bind_some, if_neg fun away => none.1 away (above operator)]
  · rw [Option.bind_some, if_neg (by simp)]

theorem removePartner_spec (inv : Forested c) (o : Office) {guid target : Guid}
    (accepts : ¬ RefusesRemoval c guid target) :
    (¬ Clear c target ∨ 0 < branchCommission o c target) ∧
        removePartner o c guid target = some (.moreMaxLimit, c) ∨
      Clear c target ∧ ¬ 0 < branchCommission o c target ∧
        ∃ c', removePartner o c guid target = some (.none, c') ∧
          Cuts c c' fun g => Above c.clubMemberPartner.hget g target := by
  obtain ⟨role, runs⟩ := removePartner_of_accepts inv o accepts
  obtain ⟨empty, sums, clear⟩ := recursiveSum_spec o inv (inv.below_card target)
  rw [runs, sums, Option.bind_some]
  by_cases owes : Clear c target
  · rw [total_of_clear owes, clear.2 owes]
    by_cases commission : 0 < branchCommission o c target
    · exact .inl ⟨.inr commission, if_pos (.inl commission)⟩
    · obtain ⟨c', dismissed, cuts⟩ := recursiveDismiss_cuts o inv role (inv.below_card target)
      refine .inr ⟨owes, commission, c', ?_, cuts⟩
      rw [if_neg (by simp [commission]), dismissed]
      rfl
  · refine .inl ⟨.inl owes, if_pos (.inr ?_)⟩
    cases empty with
    | true => exact absurd (clear.1 rfl) owes
    | false => rfl

/-- The club is dismissed, unless a check or a Lua error stops it. -/
def RefusesDismissal (o : DismissOffice) (c : Club) : Prop :=
  (∃ g ∈ c.clubMember, o.gaming g = true) ∨ o.teamsGaming = true ∨ o.teams ≠ ∅ ∨
    0 < ∑ g ∈ c.clubMember, c.playerMoney.number g + o.clubMoney + o.clubCommission

theorem dismissClub_spec (inv : Forested c) (o : DismissOffice) :
    RefusesDismissal o c ∧ (∀ out, dismissClub o c = some out → out.1 ≠ .none ∧ out.2 = c) ∨
      ¬ RefusesDismissal o c ∧ dismissClub o c = some (.none, dismiss c) := by
  have members : c.memberView = c.clubMember := inv.members
  rw [dismissClub, deepMemberMoneySum, memberMoneySum, members]
  split
  · rename_i gaming
    refine .inl ⟨gaming.imp id .inl, fun out run => ?_⟩
    cases run
    exact ⟨fun done => Result.noConfusion done, rfl⟩
  · rename_i idle
    split
    · rename_i alone
      rw [Option.map_some]
      split
      · rename_i money
        refine .inl ⟨.inr (.inr (.inr money)), fun out run => ?_⟩
        cases run
        exact ⟨fun done => Result.noConfusion done, rfl⟩
      · rename_i money
        refine .inr ⟨fun refuses => ?_, rfl⟩
        rw [RefusesDismissal, ← or_assoc] at refuses
        cases refuses.resolve_left idle with
        | inl teams => exact teams alone
        | inr owes => exact money owes
    · rename_i teams
      refine .inl ⟨.inr (.inr (.inl teams)), fun out run => ?_⟩
      cases run

/-! ### What a removal takes away -/

/-- Nothing is lost with the account: no money and no commission to be exchanged. -/
def Settled (o : Office) (c : Club) (g : Guid) : Prop :=
  c.playerMoney.number g = 0 ∧ o.commission g = 0

/-- Whoever a request removes has nothing to lose, and a refused request changes nothing. -/
def KeepsBalances (o : DismissOffice) (c : Club) (r : Leaving) (out : Result × Club) : Prop :=
  (∀ g ∈ taken c r out, Settled o.toOffice c g) ∧ (out.1 ≠ .none → out.2 = c)

/-- When a request keeps the balances. An exit asks for none; a kickout asks for the money alone;
the removal of a partner asks for the money of all below and for the sum of the partners'
commissions; the dismissal asks for one sum over all. -/
def Balanced (o : DismissOffice) (c : Club) : Leaving → Prop
  | .exit guid exitGuid =>
      RefusesExit c guid exitGuid ∨ c.clubMemberPartner.hget exitGuid = none ∨
        Settled o.toOffice c exitGuid
  | .kickout guid target => RefusesKickout o.toOffice c guid target ∨ o.commission target = 0
  | .removePartner guid target =>
      RefusesRemoval c guid target ∨ ¬ Clear c target ∨ 0 < branchCommission o.toOffice c target ∨
        ∀ g ∈ below c.clubMemberPartner.hget c.clubMember target, o.commission g = 0
  | .dismiss => RefusesDismissal o c ∨ ∀ g ∈ c.clubMember, Settled o.toOffice c g

variable {r : Leaving}

theorem taken_of_ne (other : r ≠ .dismiss) (out : Result × Club) :
    taken c r out = c.clubMember \ out.2.clubMember := by
  cases r with
  | dismiss => exact absurd rfl other
  | exit guid exitGuid => rfl
  | kickout guid target => rfl
  | removePartner guid target => rfl

theorem keeps_of_same (other : r ≠ .dismiss) (result : Result) : KeepsBalances o c r (result, c) := by
  refine ⟨fun g member => ?_, fun _ => rfl⟩
  rw [taken_of_ne other, Finset.sdiff_self] at member
  exact absurd member (Finset.notMem_empty g)

theorem keeps_of_cuts (cuts : Cuts c c' gone) (other : r ≠ .dismiss) :
    KeepsBalances o c r (.none, c') ↔ ∀ g ∈ c.clubMember, gone g → Settled o.toOffice c g := by
  have who : ∀ g, g ∈ taken c r (.none, c') ↔ g ∈ c.clubMember ∧ gone g := by
    intro g
    rw [taken_of_ne other, Finset.mem_sdiff, cuts.members, not_and_not_right]
    exact ⟨fun goes => ⟨goes.1, goes.2 goes.1⟩, fun goes => ⟨goes.1, fun _ => goes.2⟩⟩
  constructor
  · intro keeps g member goes
    exact keeps.1 g ((who g).2 ⟨member, goes⟩)
  · intro settled
    exact ⟨fun g taken => settled g ((who g).1 taken).1 ((who g).1 taken).2,
      fun refused => absurd rfl refused⟩

/-- The request as a property of all that it may return: at most one outcome. -/
def Keeps (o : DismissOffice) (c : Club) (r : Leaving) : Prop :=
  ∀ out, leave o c r = some out → KeepsBalances o c r out

theorem keeps_iff_of_run {run : Result × Club} (runs : leave o c r = some run) :
    Keeps o c r ↔ KeepsBalances o c r run := by
  rw [Keeps, runs]
  simp only [Option.some.injEq, forall_eq']

theorem keeps_of_stop (stops : leave o c r = none) : Keeps o c r := by
  intro out runs
  rw [stops] at runs
  cases runs

theorem exit_keeps_iff (inv : Forested c) (guid exitGuid : Guid) :
    Keeps o c (.exit guid exitGuid) ↔ Balanced o c (.exit guid exitGuid) := by
  have other : Leaving.exit guid exitGuid ≠ .dismiss := Leaving.noConfusion
  by_cases refuses : RefusesExit c guid exitGuid
  · obtain ⟨result, runs⟩ := exit_of_refuses refuses
    have runs : leave o c (.exit guid exitGuid) = some (result, c) := runs
    rw [keeps_iff_of_run runs]
    exact iff_of_true (keeps_of_same other result) (.inl refuses)
  · cases exit_spec inv refuses with
    | inl stops => exact iff_of_true (keeps_of_stop stops.2) (.inr (.inl stops.1))
    | inr leaves =>
        obtain ⟨member, placed, c', runs, cuts⟩ := leaves
        have runs : leave o c (.exit guid exitGuid) = some (.none, c') := runs
        rw [keeps_iff_of_run runs, keeps_of_cuts cuts other, Balanced, or_iff_right refuses,
          or_iff_right placed]
        constructor
        · intro settled
          exact settled exitGuid member rfl
        · intro settled g _ same
          rw [same]
          exact settled

theorem kickout_keeps_iff (inv : Forested c) (union : c.type = .union) (guid target : Guid) :
    Keeps o c (.kickout guid target) ↔ Balanced o c (.kickout guid target) := by
  have other : Leaving.kickout guid target ≠ .dismiss := Leaving.noConfusion
  by_cases refuses : RefusesKickout o.toOffice c guid target
  · obtain ⟨result, -, runs⟩ := kickout_of_refuses union refuses
    have runs : leave o c (.kickout guid target) = some (result, c) := runs
    rw [keeps_iff_of_run runs]
    exact iff_of_true (keeps_of_same other result) (.inl refuses)
  · obtain ⟨member, money, c', runs, cuts⟩ := kickout_spec inv refuses
    have runs : leave o c (.kickout guid target) = some (.none, c') := runs
    rw [keeps_iff_of_run runs, keeps_of_cuts cuts other, Balanced, or_iff_right refuses]
    constructor
    · intro settled
      exact (settled target member rfl).2
    · intro commission g _ same
      rw [same]
      exact ⟨money, commission⟩

theorem removePartner_keeps_iff (inv : Forested c) (guid target : Guid) :
    Keeps o c (.removePartner guid target) ↔ Balanced o c (.removePartner guid target) := by
  have other : Leaving.removePartner guid target ≠ .dismiss := Leaving.noConfusion
  by_cases refuses : RefusesRemoval c guid target
  · obtain ⟨result, -, runs⟩ := removePartner_of_refuses inv o.toOffice refuses
    have runs : leave o c (.removePartner guid target) = some (result, c) := runs
    rw [keeps_iff_of_run runs]
    exact iff_of_true (keeps_of_same other result) (.inl refuses)
  · cases removePartner_spec inv o.toOffice refuses with
    | inl owes =>
        have runs : leave o c (.removePartner guid target) = some (.moreMaxLimit, c) := owes.2
        rw [keeps_iff_of_run runs]
        refine iff_of_true (keeps_of_same other _) (.inr ?_)
        exact owes.1.imp id .inl
    | inr goes =>
        obtain ⟨clear, commission, c', runs, cuts⟩ := goes
        have runs : leave o c (.removePartner guid target) = some (.none, c') := runs
        rw [keeps_iff_of_run runs, keeps_of_cuts cuts other, Balanced, or_iff_right refuses,
          or_iff_right (not_not.2 clear), or_iff_right commission]
        constructor
        · intro settled g below
          obtain ⟨member, above⟩ := mem_below.1 below
          exact (settled g member above).2
        · intro none g member above
          have below := mem_below.2 ⟨member, above⟩
          exact ⟨clear g below, none g below⟩

theorem dismiss_keeps_iff (inv : Forested c) : Keeps o c .dismiss ↔ Balanced o c .dismiss := by
  cases dismissClub_spec inv o with
  | inl refused =>
      refine iff_of_true (fun out runs => ?_) (.inl refused.1)
      obtain ⟨error, same⟩ := refused.2 out runs
      refine ⟨fun g member => ?_, fun _ => same⟩
      rw [taken, if_neg error] at member
      exact absurd member (Finset.notMem_empty g)
  | inr done =>
      have runs : leave o c .dismiss = some (.none, dismiss c) := done.2
      rw [keeps_iff_of_run runs, Balanced, or_iff_right done.1, KeepsBalances, taken, if_pos rfl,
        inv.members]
      exact and_iff_left fun error => absurd rfl error

/-- In every state of a union club reached by requests that keep the partner tree, a request
keeps the balances of all whom it removes exactly if it meets the condition. -/
theorem leaving_keeps_balances_iff (reached : HandledReaches Placing c) (union : c.type = .union)
    (o : DismissOffice) (r : Leaving) : Keeps o c r ↔ Balanced o c r := by
  have inv : Forested c :=
    reached.invariant (fun _ => created_forested) fun _ _ _ => handle_forested
  cases r with
  | exit guid exitGuid => exact exit_keeps_iff inv guid exitGuid
  | kickout guid target => exact kickout_keeps_iff inv union guid target
  | removePartner guid target => exact removePartner_keeps_iff inv guid target
  | dismiss => exact dismiss_keeps_iff inv

/-- A Lua error stops a request only before it has written anything. -/
theorem leave_stops (inv : Forested c) (union : c.type = .union) (stops : leave o c r = none) :
    (∃ guid exitGuid, r = .exit guid exitGuid ∧ c.clubMemberPartner.hget exitGuid = none) ∨
      r = .dismiss ∧ RefusesDismissal o c := by
  cases r with
  | exit guid exitGuid =>
      refine .inl ⟨guid, exitGuid, rfl, ?_⟩
      have stops : exit c guid exitGuid = none := stops
      by_cases refuses : RefusesExit c guid exitGuid
      · obtain ⟨result, runs⟩ := exit_of_refuses refuses
        rw [runs] at stops
        cases stops
      · cases exit_spec inv refuses with
        | inl unplaced => exact unplaced.1
        | inr leaves =>
            obtain ⟨-, -, c', runs, -⟩ := leaves
            rw [runs] at stops
            cases stops
  | kickout guid target =>
      have stops : kickout o.toOffice c guid target = none := stops
      by_cases refuses : RefusesKickout o.toOffice c guid target
      · obtain ⟨result, -, runs⟩ := kickout_of_refuses union refuses
        rw [runs] at stops
        cases stops
      · obtain ⟨-, -, c', runs, -⟩ := kickout_spec inv refuses
        rw [runs] at stops
        cases stops
  | removePartner guid target =>
      have stops : removePartner o.toOffice c guid target = none := stops
      by_cases refuses : RefusesRemoval c guid target
      · obtain ⟨result, -, runs⟩ := removePartner_of_refuses inv o.toOffice refuses
        rw [runs] at stops
        cases stops
      · cases removePartner_spec inv o.toOffice refuses with
        | inl owes =>
            rw [owes.2] at stops
            cases stops
        | inr goes =>
            obtain ⟨-, -, c', runs, -⟩ := goes
            rw [runs] at stops
            cases stops
  | dismiss =>
      have stops : dismissClub o c = none := stops
      cases dismissClub_spec inv o with
      | inl refused => exact .inr ⟨rfl, refused.1⟩
      | inr done =>
          rw [done.2] at stops
          cases stops

/-- Nobody has a commission or a seat, and the club has nothing of its own. -/
def quietDismissOffice : DismissOffice where
  toOffice := quietOffice
  clubMoney := 0
  clubCommission := 0
  teams := ∅
  teamsGaming := false

theorem kickout_of_member_without_money :
    ∃ c, handle (BaseClub.create 1 .union fun _ => true)
        (quietOffice, .fullJoin 2 (some 1) none) = some c ∧
      ∀ out, leave quietDismissOffice c (.kickout 1 2) = some out →
        KeepsBalances quietDismissOffice c (.kickout 1 2) out := by
  refine ⟨_, rfl, (leaving_keeps_balances_iff ?_ rfl quietDismissOffice (.kickout 1 2)).2 (.inr rfl)⟩
  exact Runs.Reaches.next (quietOffice, Request.fullJoin 2 (some 1) none)
    (.start ⟨1, .union, fun _ => true, rfl⟩) (.inr (.inr ⟨by decide, .inl rfl, .inl rfl⟩)) rfl

/-- The boss lets the player 2 exit, who has 100. -/
theorem exit_takes_the_money : ¬ ∀ c, HandledReaches (fun _ _ => True) c → c.type = .union →
    ∀ o r, Keeps o c r := by
  intro claim
  have created : HandledReaches (fun _ _ => True) (BaseClub.create 1 .union fun _ => true) :=
    .start ⟨1, .union, fun _ => true, rfl⟩
  obtain ⟨c, run, union, left, exits, was, is, money⟩ :
      ∃ c, [(quietOffice, Request.fullJoin 2 (some 1) none),
          (quietOffice, .incrMemberMoney 2 100)].foldlM handle
          (BaseClub.create 1 .union fun _ => true) = some c ∧ c.type = .union ∧
        ∃ left, leave quietDismissOffice c (.exit 1 2) = some (.none, left) ∧
          2 ∈ c.clubMember ∧ 2 ∉ left.clubMember ∧ c.playerMoney.number 2 = 100 :=
    ⟨_, rfl, rfl, _, rfl, by decide, by decide, by decide⟩
  have keeps := claim c (Runs.reachable_of_foldlM created run) union quietDismissOffice (.exit 1 2)
    _ exits
  have settled := (keeps.1 2 (Finset.mem_sdiff.2 ⟨was, is⟩)).1
  rw [money] at settled
  exact absurd settled (by decide)

end FkServer
