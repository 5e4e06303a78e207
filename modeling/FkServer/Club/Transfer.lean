import FkServer.Club.BaseClub

/-!
`transfer_money_player2player`, by which money goes from one member of a club to another.
Its checks look at the roles of the two players and at their places in the partner forest,
but not at the place of the operator.
-/
namespace FkServer
open RedisHash Hash ParentForest

namespace Transfer

inductive Result
  | none
  | notMember
  | playerNoRight
  | playerNotExist
  | inGame
  | parameterError
  | membersNotFound
  | clubTeamIsLocked
deriving DecidableEq

/-- What the request reads besides the club: who is at a table of it, `credit_block_score`
and the `credit` of a partner. -/
structure Conf where
  gaming : Guid → Bool
  creditBlockScore : Bool
  credit : Guid → Int

inductive Why
  | rechage
  | cash
deriving DecidableEq

/-- `transfer_whies` -/
def whies : ClubRole → ClubRole → Option Why
  | .boss, .boss => .none
  | .boss, _ => some .rechage
  | .partner, .partner => .none
  | .partner, .boss => some .cash
  | .partner, _ => some .rechage
  | .player, .player => .none
  | .player, _ => some .cash
  | .admin, .admin => .none
  | .admin, .boss => some .cash
  | .admin, _ => some .rechage

/-- `club_role[club_id][guid] or enum.CRT_PLAYER` -/
def roleOf (c : Club) (guid : Guid) : ClubRole := (c.clubRole.hget guid).getD .player

/-- `recursive_search_partner`: `pguid` if it stands above `guid`. -/
def searchPartner (c : Club) (pguid guid : Guid) : Option (Option Guid) :=
  seek c.memberPartnerView.hget (fun partner => partner = pguid)
    (c.memberPartnerView.fields.length + 1) (c.memberPartnerView.hget guid)

def isCreditLess (x : Conf) (c : Club) (pid : Guid) : Bool :=
  c.teamMoney.number pid + c.playerMoney.number pid < x.credit pid

def canTransfer (x : Conf) (c : Club) (partnerId : Guid) : Option Result :=
  if partnerId ∉ c.memberView then
    some .membersNotFound
  else if roleOf c partnerId ≠ .partner ∧ roleOf c partnerId ≠ .boss then
    some .playerNoRight
  else if x.creditBlockScore then
    (seek (partnerOf c.memberPartnerView) (isCreditLess x c)
      (c.memberPartnerView.fields.length + 1) (nonzero (some partnerId))).map fun less =>
        if less.isSome then .clubTeamIsLocked else .none
  else
    some .none

/-- The checks that depend on the roles of the two players. -/
def rolesAllow (x : Conf) (c : Club) (fromGuid toGuid : Guid) : Option Result :=
  match roleOf c fromGuid, roleOf c toGuid with
  | .partner, .player =>
      (searchPartner c fromGuid toGuid).bind fun found =>
        if found.isNone then some .playerNoRight else canTransfer x c fromGuid
  | .player, .partner =>
      (canTransfer x c toGuid).bind fun can =>
        if can ≠ .none then some can
        else
          (searchPartner c toGuid fromGuid).map fun found =>
            if found.isNone then .playerNoRight else .none
  | .partner, .partner =>
      (canTransfer x c fromGuid).bind fun can =>
        if can ≠ .none then some can
        else
          (searchPartner c fromGuid toGuid).bind fun found =>
            if found.isSome then some .none
            else
              (searchPartner c toGuid fromGuid).map fun found =>
                if found.isNone then .playerNoRight else .none
  | _, _ => some .none

/-- Who must not be at a table: the one who gets the money if that is a recharge. -/
def gamingGuid (c : Club) (fromGuid toGuid : Guid) : Guid :=
  if whies (roleOf c fromGuid) (roleOf c toGuid) = some .rechage then toGuid else fromGuid

def hasRight (c : Club) (guid : Guid) : Bool :=
  c.clubRole.hget guid = some .admin ∨ c.clubRole.hget guid = some .boss ∨
    c.clubRole.hget guid = some .partner

/-- `transfer_money_player2player`; `none` when a loop over the partners never ends. -/
def transferMoneyPlayer2player (x : Conf) (c : Club) (fromGuid toGuid : Guid) (money : Int)
    (guid : Guid) : Option (Result × Club) :=
  if fromGuid ∉ c.memberView ∨ toGuid ∉ c.memberView then
    some (.notMember, c)
  else if hasRight c guid = false then
    some (.playerNoRight, c)
  else if c.playerData fromGuid = false ∨ c.playerData toGuid = false then
    some (.playerNotExist, c)
  else if x.gaming (gamingGuid c fromGuid toGuid) then
    some (.inGame, c)
  else
    (rolesAllow x c fromGuid toGuid).bind fun result =>
      if result ≠ .none then
        some (result, c)
      else if c.playerMoney.number fromGuid < money then
        some (.parameterError, c)
      else
        (BaseClub.incrMemberRedisMoney c fromGuid (-money)).bind fun c =>
          (BaseClub.incrMemberRedisMoney c toGuid money).map fun c => (.none, c)

/-! ### The searches in a partner forest -/

/-- The partner table is a forest of players, and a reader sees it as it is stored. -/
structure PartnerForest (c : Club) : Prop where
  grounded : Grounded c.parent
  view : c.memberPartnerView = c.clubMemberPartner
  players : ∀ guid, c.clubMemberPartner.hget guid ≠ some 0

section
variable {x : Conf} {c c' : Club} {guid pguid source target operator : Guid} {money delta : Int}

theorem PartnerForest.partnerOf_view (forest : PartnerForest c) :
    partnerOf c.memberPartnerView = c.parent := by
  rw [forest.view]
  rfl

theorem PartnerForest.hget_view (forest : PartnerForest c) :
    c.memberPartnerView.hget = c.parent := by
  funext guid
  have nonnull := forest.players guid
  rw [forest.view, Club.parent, partnerOf]
  cases found : c.clubMemberPartner.hget guid with
  | none => rfl
  | some partner =>
      have other : partner ≠ 0 := fun null => nonnull (by rw [found, null])
      rw [nonzero, Option.filter_some, if_pos (decide_eq_true other)]

/-- The bound on the turns is no restriction. -/
theorem PartnerForest.length_le (forest : PartnerForest c) {o : Option Guid} {l : List Guid}
    (h : Climb c.parent o l) : l.length ≤ c.memberPartnerView.fields.length + 1 := by
  have cover : ∀ guid partner, c.parent guid = some partner →
      guid ∈ c.memberPartnerView.fields.map Prod.fst := by
    intro guid partner above
    rw [← forest.hget_view] at above
    exact mem_keys_of_hget above
  simpa using h.length_le cover

/-- The search ends, and finds `pguid` exactly if it stands above `guid`. -/
theorem searchPartner_spec (forest : PartnerForest c) (pguid guid : Guid) :
    ∃ found, searchPartner c pguid guid = some found ∧
      (found.isSome = true ↔ Above c.parent guid pguid) := by
  obtain ⟨l, h⟩ := forest.grounded guid
  refine ⟨l.find? fun partner => partner = pguid, ?_, ?_⟩
  · rw [searchPartner, forest.hget_view, seek_of_climb h (forest.length_le h)]
  · rw [List.find?_isSome, ← h.mem_above]
    simp

theorem canTransfer_isSome (forest : PartnerForest c) (x : Conf) (guid : Guid) :
    ∃ result, canTransfer x c guid = some result := by
  rw [canTransfer]
  split
  · exact ⟨_, rfl⟩
  · split
    · exact ⟨_, rfl⟩
    · split
      · obtain ⟨l, h⟩ := forest.grounded.climb (nonzero (some guid))
        rw [forest.partnerOf_view, seek_of_climb h (forest.length_le h)]
        exact ⟨_, rfl⟩
      · exact ⟨_, rfl⟩

/-! ### When a request is refused -/

/-- The roles and places of the two players that the code refuses. -/
def RoleRefuses (x : Conf) (c : Club) (source target : Guid) : Prop :=
  match roleOf c source, roleOf c target with
  | .partner, .player => ¬ Above c.parent target source ∨ canTransfer x c source ≠ some .none
  | .player, .partner => ¬ Above c.parent source target ∨ canTransfer x c target ≠ some .none
  | .partner, .partner =>
      canTransfer x c source ≠ some .none ∨
        ¬ Above c.parent target source ∧ ¬ Above c.parent source target
  | _, _ => False

theorem rolesAllow_spec (forest : PartnerForest c) (x : Conf) (source target : Guid) :
    ∃ result, rolesAllow x c source target = some result ∧
      (result = .none ↔ ¬ RoleRefuses x c source target) := by
  obtain ⟨canSource, sourceEq⟩ := canTransfer_isSome forest x source
  obtain ⟨canTarget, targetEq⟩ := canTransfer_isSome forest x target
  obtain ⟨below, belowEq, belowIff⟩ := searchPartner_spec forest source target
  obtain ⟨above, aboveEq, aboveIff⟩ := searchPartner_spec forest target source
  rw [rolesAllow, RoleRefuses]
  rw [belowEq, aboveEq, sourceEq, targetEq, ← belowIff, ← aboveIff]
  split
  · cases below <;> simp
  · cases above <;> by_cases can : canTarget = .none <;> simp [can]
  · cases below <;> cases above <;> by_cases can : canSource = .none <;> simp [can]
  · exact ⟨.none, rfl, by simp⟩

/-- A check of `transfer_money_player2player` refuses the request. -/
def Refuses (x : Conf) (c : Club) (source target : Guid) (money : Int) (operator : Guid) : Prop :=
  source ∉ c.memberView ∨ target ∉ c.memberView ∨ hasRight c operator = false ∨
    c.playerData source = false ∨ c.playerData target = false ∨
    x.gaming (gamingGuid c source target) = true ∨ RoleRefuses x c source target ∨
    c.playerMoney.number source < money

theorem transfer_of_refuses (forest : PartnerForest c)
    (refuses : Refuses x c source target money operator) :
    ∃ result, result ≠ .none ∧
      transferMoneyPlayer2player x c source target money operator = some (result, c) := by
  obtain ⟨result, allowed, fits⟩ := rolesAllow_spec forest x source target
  rw [transferMoneyPlayer2player]
  by_cases members : source ∉ c.memberView ∨ target ∉ c.memberView
  · exact ⟨.notMember, by decide, if_pos members⟩
  · rw [if_neg members]
    by_cases right : hasRight c operator = false
    · exact ⟨.playerNoRight, by decide, if_pos right⟩
    · rw [if_neg right]
      by_cases known : c.playerData source = false ∨ c.playerData target = false
      · exact ⟨.playerNotExist, by decide, if_pos known⟩
      · rw [if_neg known]
        by_cases gaming : x.gaming (gamingGuid c source target) = true
        · exact ⟨.inGame, by decide, if_pos gaming⟩
        · rw [if_neg gaming, allowed, Option.bind_some]
          by_cases ok : result = .none
          · have poor : c.playerMoney.number source < money := by
              rw [not_or] at members known
              rcases refuses with
                absent | absent | denied | unknown | unknown | playing | refused | poor
              · exact absurd absent members.1
              · exact absurd absent members.2
              · exact absurd denied right
              · exact absurd unknown known.1
              · exact absurd unknown known.2
              · exact absurd playing gaming
              · exact absurd refused (fits.1 ok)
              · exact poor
            rw [if_neg (not_not.2 ok), if_pos poor]
            exact ⟨.parameterError, by decide, rfl⟩
          · exact ⟨result, ok, if_pos ok⟩

/-! ### The money -/

/-- What a player gains or loses leaves the forest and the list of members as they are. -/
theorem incrMemberRedisMoney_spec (forest : PartnerForest c) (known : c.playerData guid = true)
    (member : guid ∈ c.memberView) (delta : Int) :
    ∃ c', BaseClub.incrMemberRedisMoney c guid delta = some c' ∧ PartnerForest c' ∧
      c'.playerData = c.playerData ∧ c'.memberView = c.memberView ∧
      ∀ other, c'.playerMoney.number other =
        c.playerMoney.number other + if other = guid then delta else 0 := by
  obtain ⟨l, h⟩ := forest.grounded.climb (c.parent guid)
  have walk : Climb (partnerOf c.memberPartnerView) (nonzero (c.memberPartnerView.hget guid)) l := by
    rw [forest.partnerOf_view, forest.view]
    exact h
  have ends := Club.teamsFrom_complete walk
  refine ⟨{ ({ c with playerMoney := c.playerMoney.hincrby guid delta } : Club).readMember.readMemberPartner with
    teamMoney := l.foldl (fun h p => h.hincrby p delta) c.teamMoney }, ?_,
    ⟨forest.grounded, forest.view, forest.players⟩, rfl, rfl, ?_⟩
  · rw [BaseClub.incrMemberRedisMoney, if_neg (by simp [known]), if_neg (not_not.2 member)]
    exact congrArg (Option.map _) ends
  · intro other
    exact number_hincrby c.playerMoney guid other delta

/-- The source has the amount less, the target the amount more, and nobody else a change. -/
def Moved (c c' : Club) (source target : Guid) (money : Int) : Prop :=
  c'.playerMoney.number source = c.playerMoney.number source - money ∧
    c'.playerMoney.number target = c.playerMoney.number target + money ∧
    ∀ other, other ≠ source → other ≠ target →
      c'.playerMoney.number other = c.playerMoney.number other

theorem transfer_of_not_refuses (forest : PartnerForest c)
    (accepted : ¬ Refuses x c source target money operator) :
    ∃ c', transferMoneyPlayer2player x c source target money operator = some (.none, c') ∧
      (Moved c c' source target money ↔ source ≠ target ∨ money = 0) := by
  obtain ⟨result, allowed, fits⟩ := rolesAllow_spec forest x source target
  unfold Refuses at accepted
  push Not at accepted
  obtain ⟨fromMember, toMember, right, fromKnown, toKnown, free, roles, rich⟩ := accepted
  have ok := fits.2 roles
  obtain ⟨c₁, paid, forest₁, known₁, members₁, money₁⟩ :=
    incrMemberRedisMoney_spec forest (Bool.eq_true_of_not_eq_false fromKnown) fromMember (-money)
  obtain ⟨c₂, got, -, -, -, money₂⟩ := incrMemberRedisMoney_spec forest₁ (by rw [known₁]; exact Bool.eq_true_of_not_eq_false toKnown)
      (by rw [members₁]; exact toMember) money
  refine ⟨c₂, ?_, ?_⟩
  · rw [transferMoneyPlayer2player, if_neg (not_or.2 ⟨not_not.2 fromMember, not_not.2 toMember⟩),
      if_neg right, if_neg (not_or.2 ⟨fromKnown, toKnown⟩), if_neg free, allowed, Option.bind_some,
      if_neg (not_not.2 ok), if_neg (by omega), paid, Option.bind_some, got]
    rfl
  · constructor
    · intro moved
      have less := moved.1
      rw [money₂, money₁, if_pos rfl] at less
      by_cases same : source = target
      · rw [if_pos same] at less
        exact .inr (by omega)
      · exact .inl same
    · intro distinct
      have balance : ∀ other, c₂.playerMoney.number other = c.playerMoney.number other +
          (if other = source then -money else 0) + if other = target then money else 0 := by
        intro other
        rw [money₂, money₁]
      refine ⟨?_, ?_, fun other noSource noTarget => ?_⟩
      · rw [balance, if_pos rfl]
        split <;> rename_i same
        · have := distinct.resolve_left (not_not.2 same)
          omega
        · omega
      · rw [balance, if_pos rfl]
        split <;> rename_i same
        · have := distinct.resolve_left (not_not.2 same.symm)
          omega
        · omega
      · rw [balance, if_neg noSource, if_neg noTarget]
        omega

/-! ### Who may move money -/

/-- A partner's own team: itself and everyone below it. -/
def InTeam (c : Club) (partner guid : Guid) : Prop := guid = partner ∨ Above c.parent guid partner

def Leads (c : Club) (guid : Guid) : Prop := roleOf c guid = .boss ∨ roleOf c guid = .admin

structure Justified (c : Club) (source target : Guid) (money : Int) (operator : Guid) : Prop where
  operator : Leads c operator ∨
    roleOf c operator = .partner ∧ InTeam c operator source ∧ InTeam c operator target
  related : Above c.parent source target ∨ Above c.parent target source ∨ Leads c source ∨
    Leads c target
  held : money ≤ c.playerMoney.number source

/-- Money moves only when that is justified, and then from the source to the target;
otherwise no balance changes. -/
def Meets (c : Club) (source target : Guid) (money : Int) (operator : Guid) :
    Option (Result × Club) → Prop
  | none => False
  | some (.none, c') => Justified c source target money operator ∧ Moved c c' source target money
  | some (_, c') => c'.playerMoney = c.playerMoney

/-- A partner moves money only within its own team, and between two ordinary players only if
one stands below the other. -/
structure Proper (c : Club) (source target : Guid) (money : Int) (operator : Guid) : Prop where
  distinct : source ≠ target ∨ money = 0
  team : roleOf c operator = .partner → InTeam c operator source ∧ InTeam c operator target
  players : roleOf c source = .player → roleOf c target = .player →
    Above c.parent source target ∨ Above c.parent target source

theorem leads_or_partner (right : hasRight c operator = true) :
    Leads c operator ∨ roleOf c operator = .partner := by
  rw [hasRight, decide_eq_true_iff] at right
  rw [Leads, roleOf]
  cases right with
  | inl admin => exact .inl (.inr (by rw [admin]; rfl))
  | inr right =>
      cases right with
      | inl boss => exact .inl (.inl (by rw [boss]; rfl))
      | inr partner => exact .inr (by rw [partner]; rfl)

/-- But for two ordinary players, the checks of the roles see to it that one is below the other. -/
theorem related_of_roles (roles : ¬ RoleRefuses x c source target) :
    Above c.parent source target ∨ Above c.parent target source ∨ Leads c source ∨
      Leads c target ∨ roleOf c source = .player ∧ roleOf c target = .player := by
  rw [RoleRefuses] at roles
  rw [Leads, Leads]
  cases fromRole : roleOf c source with
  | boss | admin => simp
  | partner =>
      cases toRole : roleOf c target with
      | boss | admin => simp
      | partner =>
          simp only [fromRole, toRole, not_or, not_and, not_not] at roles
          by_cases below : Above c.parent target source
          · exact .inr (.inl below)
          · exact .inl (roles.2 below)
      | player =>
          simp only [fromRole, toRole, not_or, not_not] at roles
          exact .inr (.inl roles.1)
  | player =>
      cases toRole : roleOf c target with
      | boss | admin => simp
      | partner =>
          simp only [fromRole, toRole, not_or, not_not] at roles
          exact .inl roles.1
      | player => simp

/-- A transfer does as it should exactly when a check refuses it or it is a proper one. -/
theorem transfer_meets_iff (x : Conf) (c : Club) (source target : Guid) (money : Int)
    (operator : Guid) (forest : PartnerForest c) :
    Meets c source target money operator
        (transferMoneyPlayer2player x c source target money operator) ↔
      Refuses x c source target money operator ∨ Proper c source target money operator := by
  by_cases refuses : Refuses x c source target money operator
  · obtain ⟨result, failed, eq⟩ := transfer_of_refuses forest refuses
    rw [eq, iff_true_right (.inl refuses)]
    cases result with
    | none => exact absurd rfl failed
    | _ => exact rfl
  · obtain ⟨c', eq, moved⟩ := transfer_of_not_refuses forest refuses
    rw [eq, or_iff_right refuses]
    show Justified c source target money operator ∧ Moved c c' source target money ↔ _
    rw [moved]
    unfold Refuses at refuses
    push Not at refuses
    obtain ⟨-, -, right, -, -, -, roles, rich⟩ := refuses
    have allowed := leads_or_partner (Bool.eq_true_of_not_eq_false right)
    have related := related_of_roles roles
    constructor
    · intro h
      refine ⟨h.2, fun partner => ?_, fun fromRole toRole => ?_⟩
      · have leads : ¬ Leads c operator := by
          rw [Leads, partner]
          decide
        exact (h.1.operator.resolve_left leads).2
      · have idle : ¬ Leads c source ∧ ¬ Leads c target := by
          rw [Leads, Leads, fromRole, toRole]
          decide
        rcases h.1.related with below | above | leads | leads
        · exact .inl below
        · exact .inr above
        · exact absurd leads idle.1
        · exact absurd leads idle.2
    · intro proper
      refine ⟨⟨?_, ?_, rich⟩, proper.distinct⟩
      · cases allowed with
        | inl leads => exact .inl leads
        | inr partner => exact .inr ⟨partner, proper.team partner⟩
      · rcases related with below | above | leads | leads | ⟨fromRole, toRole⟩
        · exact .inl below
        · exact .inr (.inl above)
        · exact .inr (.inr (.inl leads))
        · exact .inr (.inr (.inr leads))
        · exact (proper.players fromRole toRole).imp_right .inl

/-- The boss 1, the partner 2 and the players 3 and 4 under the boss; 3 has ten. -/
def clubOfFour : Club where
  owner := 1
  type := .union
  playerData := fun _ => true
  clubMember := {1, 2, 3, 4}
  clubMemberCache := none
  clubMemberPartner := ⟨[(2, 1), (3, 1), (4, 1)]⟩
  clubMemberPartnerCache := none
  clubPartnerMember := Function.update (fun _ => ∅) 1 {2, 3, 4}
  clubRole := ⟨[(1, .boss), (2, .partner)]⟩
  teamPlayerCount := ⟨[(1, 3)]⟩
  teamMoney := ⟨[(1, 10)]⟩
  playerMoney := ⟨[(3, 10)]⟩

theorem clubOfFour_parent (guid : Guid) :
    clubOfFour.clubMemberPartner.hget guid = none ∨ clubOfFour.clubMemberPartner.hget guid = some 1 := by
  have listed : ∀ fields : List (Nat × Guid), (∀ field ∈ fields, field.2 = 1) →
      (Hash.mk fields).hget guid = none ∨ (Hash.mk fields).hget guid = some 1 := by
    intro fields ones
    cases found : (Hash.mk fields).hget guid with
    | none => exact .inl rfl
    | some partner =>
        obtain ⟨before, after, split, -⟩ := List.lookup_eq_some_iff.1 found
        have member : (guid, partner) ∈ fields := by
          rw [show fields = before ++ (guid, partner) :: after from split]
          simp
        exact .inr (congrArg some (ones (guid, partner) member))
  exact listed _ (by decide)

theorem clubOfFour_forest : PartnerForest clubOfFour where
  grounded := by
    intro guid
    cases clubOfFour_parent guid with
    | inl root =>
        refine ⟨[], ?_⟩
        rw [Club.parent, partnerOf, root]
        exact .top
    | inr under =>
        refine ⟨[1], ?_⟩
        rw [Club.parent, partnerOf, under]
        exact .up .top
  view := rfl
  players := by
    intro guid null
    cases clubOfFour_parent guid with
    | inl root => rw [root] at null; cases null
    | inr under => rw [under] at null; cases null

/-- The boss takes five from the player 3. -/
theorem boss_takes_five : PartnerForest clubOfFour ∧
    Meets clubOfFour 3 1 5 1
      (transferMoneyPlayer2player ⟨fun _ => false, false, fun _ => 0⟩ clubOfFour 3 1 5 1) := by
  refine ⟨clubOfFour_forest, (transfer_meets_iff _ _ _ _ _ _ clubOfFour_forest).2 (.inr ?_)⟩
  exact ⟨.inl (by decide), fun partner => absurd partner (by decide),
    fun _ player => absurd player (by decide)⟩

/-- A partner moves money between two players who are not of its team, neither being below
the other. -/
theorem outsider_moves_money :
    ¬ ∀ x c source target money operator, PartnerForest c → 0 < money →
      Meets c source target money operator
        (transferMoneyPlayer2player x c source target money operator) := by
  intro claim
  have moved := claim ⟨fun _ => false, false, fun _ => 0⟩ clubOfFour 3 4 5 2 clubOfFour_forest
    (by decide)
  have executed : ∃ c', transferMoneyPlayer2player ⟨fun _ => false, false, fun _ => 0⟩
      clubOfFour 3 4 5 2 = some (.none, c') := ⟨_, rfl⟩
  obtain ⟨c', executed⟩ := executed
  rw [executed] at moved
  have justified : Justified clubOfFour 3 4 5 2 := moved.1
  cases justified.operator with
  | inl leads => exact absurd leads (by unfold Leads; decide)
  | inr partner =>
      cases partner.2.1 with
      | inl same => exact absurd same (by decide)
      | inr above =>
          obtain ⟨q, up, rest⟩ := above_iff.1 above
          cases up
          cases rest with
          | inl same => exact absurd same (by decide)
          | inr higher => exact not_above_of_root rfl higher

end

end Transfer
end FkServer
