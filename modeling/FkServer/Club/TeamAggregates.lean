import FkServer.Club.BaseClub

/-!
The team aggregates: for every partner the stored `team_player_count` and
`team_money` against the members whose chain of partners passes through it.
`Orderly` says of each operation when it keeps them right; every other call is
one of the defects of the incremental walks.
-/
namespace FkServer
open RedisHash Hash ParentForest

variable {c c' : Club} {g p team : Guid}

/-- The claim of the two stored aggregates. -/
structure Aggregated (c : Club) : Prop where
  count : ∀ p, c.teamPlayerCount.number p = (below c.parent c.clubMember p).card
  money : ∀ p, c.teamMoney.number p = total c.parent c.clubMember c.playerMoney.number p

/-- A player who can be put under a partner: under nobody yet, nobody under him,
and without money that the teams would have to count. -/
def Fresh (c : Club) (g : Guid) : Prop :=
  c.clubMemberPartner.hget g = none ∧ (∀ x, c.parent x ≠ some g) ∧ c.playerMoney.number g = 0

/-- A player who can be taken off his partner. -/
def Leaves (c : Club) (g : Guid) : Prop :=
  (∀ x, c.parent x ≠ some g) ∧ c.playerMoney.number g = 0

/-- The condition under which an operation keeps the aggregates right. -/
def Orderly (c : Club) : ClubOp → Prop
  | .partnerCreate guid parent => c.clubMemberPartner.hget guid = some parent
  | .partnerJoin team guid => Fresh c guid ∧ guid ∈ c.clubMember ∧ team ≠ guid
  | .partnerExit team mem => mem ∈ c.clubPartnerMember team → Leaves c mem
  | .partnerDismiss team => c.parent team = none ∨ c.clubPartnerMember team = ∅
  | .fullJoin guid inviter teamId =>
      BaseClub.inviterHasNoRight c inviter = true ∨
        c.playerData (BaseClub.joinTeam c inviter teamId) = false ∨
        Fresh c guid ∧ BaseClub.joinTeam c inviter teamId ≠ guid
  | .exit guid => c.parent guid = none
  | .fullExit guid => Leaves c guid
  | .incrMemberMoney guid _ => guid ∈ c.memberView ∨ c.parent guid = none
  | .join _ | .incrMemberRedisMoney _ _ | .read | .expire => True

/-- What the operations keep besides the aggregates: chains of partners end, a
cached partner table is the stored one, both partner tables say the same, and
who stands under a partner is a member. -/
structure Coherent (c : Club) : Prop where
  grounded : Grounded c.parent
  view : c.memberPartnerView = c.clubMemberPartner
  listed : ∀ g p, c.clubMemberPartner.hget g = some p ↔ g ∈ c.clubPartnerMember p
  record : ∀ g p, c.parent g = some p → g ∈ c.clubMember
  aggregated : Aggregated c

theorem created_coherent (h : Created c) : Coherent c := by
  obtain ⟨owner, type, playerData, rfl⟩ := h
  have root : ∀ g, (BaseClub.create owner type playerData).parent g = none := fun _ => rfl
  have nobody : ∀ p, below (BaseClub.create owner type playerData).parent {owner} p = ∅ := by
    intro p
    ext a
    simp [mem_below, not_above_of_root (root a)]
  refine ⟨fun a => ⟨[], ?_⟩, rfl, ?_, ?_, ?_, ?_⟩
  · rw [root]
    exact .top
  · simp [BaseClub.create]
  · simp [root]
  · intro p
    show (0 : Int) = (below _ {owner} p).card
    simp [nobody]
  · intro p
    show (0 : Int) = ∑ a ∈ below _ {owner} p, _
    simp [nobody]

section Walks

/-- A walk that meets a table just written at a leaf is the walk of the old one. -/
private theorem Coherent.climb_of_written (inv : Coherent c) {o v : Option Guid}
    {l : List Guid} (leaf : ∀ x, c.parent x ≠ some g) (other : o ≠ some g)
    (view : partnerOf c'.memberPartnerView = c.parent ∨
      partnerOf c'.memberPartnerView = Function.update c.parent g v)
    (h : Climb (partnerOf c'.memberPartnerView) o l) : Climb c.parent o l := by
  rcases view with view | view
  · rwa [view] at h
  · obtain ⟨l₀, h₀⟩ := inv.grounded.climb o
    rw [view] at h
    rwa [h.unique (h₀.update_leaf leaf v other)]

private theorem Coherent.written_view (inv : Coherent c) (c' : Club) (partners : Hash Guid)
    (view : c'.clubMemberPartnerCache = c.clubMemberPartnerCache)
    (stored : c'.clubMemberPartner = partners) :
    partnerOf c'.memberPartnerView = c.parent ∨
      partnerOf c'.memberPartnerView = partnerOf partners := by
  have same := inv.view
  simp only [Club.memberPartnerView, view, stored] at same ⊢
  cases hc : c.clubMemberPartnerCache with
  | none => exact .inr rfl
  | some cached =>
      left
      rw [hc, Option.getD_some] at same
      rw [Option.getD_some, same]
      rfl

end Walks

section Steps

/-- An operation that leaves both partner tables alone. -/
private theorem Coherent.frame (inv : Coherent c)
    (partner : c'.clubMemberPartner = c.clubMemberPartner)
    (members : c'.clubPartnerMember = c.clubPartnerMember)
    (view : c'.memberPartnerView = c'.clubMemberPartner)
    (record : ∀ g p, c.parent g = some p → g ∈ c'.clubMember)
    (aggregated : Aggregated c') : Coherent c' := by
  have parent : c'.parent = c.parent := by simp only [Club.parent, partner]
  refine ⟨parent ▸ inv.grounded, view, ?_, parent ▸ record, aggregated⟩
  rw [partner, members]
  exact inv.listed

theorem Coherent.readMemberPartner (inv : Coherent c) : Coherent c.readMemberPartner :=
  inv.frame rfl rfl inv.view inv.record ⟨inv.aggregated.count, inv.aggregated.money⟩

theorem Coherent.readMember (inv : Coherent c) : Coherent c.readMember :=
  inv.frame rfl rfl inv.view inv.record ⟨inv.aggregated.count, inv.aggregated.money⟩

theorem Coherent.expire (inv : Coherent c) : Coherent c.expire :=
  inv.frame rfl rfl rfl inv.record ⟨inv.aggregated.count, inv.aggregated.money⟩

/-- The state after a player was put under `team`, as a member of the club. -/
theorem Coherent.attach {teams : List Guid} (inv : Coherent c) (fresh : Fresh c g)
    (other : team ≠ g) (walk : Climb c.parent (nonzero (some team)) teams)
    (partner : c'.clubMemberPartner = c.clubMemberPartner.hset g team)
    (members : c'.clubPartnerMember =
      Function.update c.clubPartnerMember team (insert g (c.clubPartnerMember team)))
    (view : c'.memberPartnerView = c'.clubMemberPartner)
    (member : c'.clubMember = insert g c.clubMember)
    (count : c'.teamPlayerCount = teams.foldl (fun h p => h.hincrby p 1) c.teamPlayerCount)
    (money : c'.teamMoney = c.teamMoney ∧ c'.playerMoney = c.playerMoney) :
    Coherent c' := by
  obtain ⟨unplaced, leaf, poor⟩ := fresh
  have root : c.parent g = none := by simp [Club.parent, partnerOf, nonzero, unplaced]
  have above : nonzero (some team) ≠ some g := by
    simp [nonzero, Option.filter_eq_some_iff, other]
  have parent : c'.parent = Function.update c.parent g (nonzero (some team)) := by
    rw [Club.parent, partner, partnerOf_hset]
    rfl
  refine ⟨?_, view, ?_, ?_, ?_, ?_⟩
  · rw [parent]
    exact inv.grounded.update_leaf leaf above
  · intro x q
    rw [partner, members, hget_hset]
    by_cases hx : x = g
    · subst hx
      have : ∀ q, x ∉ c.clubPartnerMember q := fun q hq => by
        have := (inv.listed x q).2 hq
        simp [unplaced] at this
      by_cases hq : q = team
      · simp [hq]
      · simp [hq, this q, Ne.symm hq]
    · by_cases hq : q = team
      · simp [hq, hx, inv.listed]
      · simp [hq, hx, inv.listed]
  · intro x q hq
    rw [parent] at hq
    rw [member]
    by_cases hx : x = g
    · simp [hx]
    · rw [Function.update_of_ne hx] at hq
      exact Finset.mem_insert_of_mem (inv.record x q hq)
  · intro q
    rw [count, number_foldl_hincrby _ _ _ _ walk.nodup, parent, member, ← total_one,
      total_attach leaf root above walk, total_one, inv.aggregated.count]
  · intro q
    rw [money.1, money.2, parent, member, total_attach leaf root above walk, poor, ite_self,
      add_zero, inv.aggregated.money]

/-- The state after a player was taken off `team`, still a member or not. -/
theorem Coherent.detach {teams : List Guid} (inv : Coherent c) (leaves : Leaves c g)
    (placed : g ∈ c.clubPartnerMember team)
    (walk : Climb c.parent (nonzero (some team)) teams)
    (partner : c'.clubMemberPartner = c.clubMemberPartner.hdel g)
    (members : c'.clubPartnerMember =
      Function.update c.clubPartnerMember team ((c.clubPartnerMember team).erase g))
    (view : c'.memberPartnerView = c'.clubMemberPartner)
    (kept : c.clubMember.erase g ⊆ c'.clubMember) (sub : c'.clubMember ⊆ c.clubMember)
    (count : c'.teamPlayerCount =
      teams.foldl (fun h p => h.hincrby p (-1)) c.teamPlayerCount)
    (money : c'.teamMoney = c.teamMoney)
    (balance : ∀ x, c'.playerMoney.number x = c.playerMoney.number x) :
    Coherent c' := by
  obtain ⟨leaf, poor⟩ := leaves
  have under : c.clubMemberPartner.hget g = some team := (inv.listed g team).2 placed
  have up : c.parent g = nonzero (some team) := by simp [Club.parent, partnerOf, under]
  have parent : c'.parent = Function.update c.parent g none := by
    rw [Club.parent, partner, partnerOf_hdel]
    rfl
  rw [← up] at walk
  -- a player under partner 0 may have been removed from the club before
  have teamless : g ∉ c.clubMember → teams = [] := by
    intro out
    cases hp : c.parent g with
    | none => rw [hp] at walk; cases walk; rfl
    | some q => exact absurd (inv.record g q hp) out
  have removed : ∀ (f : Guid → Int) (q : Guid),
      total c'.parent c'.clubMember f q =
        total c.parent c.clubMember f q - if q ∈ teams then f g else 0 := by
    intro f q
    rw [parent]
    by_cases mem : g ∈ c.clubMember
    · exact total_detach leaf kept sub mem walk q
    · have gone : g ∉ below c.parent c.clubMember q := fun h => mem (mem_below.1 h).1
      rw [teamless mem, total, below_detach leaf kept sub, Finset.erase_eq_of_notMem gone]
      simp [total]
  refine ⟨?_, view, ?_, ?_, ?_, ?_⟩
  · rw [parent]
    exact inv.grounded.update_leaf leaf (by simp)
  · intro x q
    rw [partner, members, hget_hdel]
    by_cases hx : x = g
    · subst hx
      have only : ∀ q, x ∈ c.clubPartnerMember q → q = team := fun q hq => by
        have := (inv.listed x q).2 hq
        simpa [under] using this.symm
      by_cases hq : q = team
      · simp [hq]
      · simpa [hq] using fun h => hq (only q h)
    · by_cases hq : q = team
      · simp [hq, hx, inv.listed]
      · simp [hq, hx, inv.listed]
  · intro x q hq
    rw [parent] at hq
    by_cases hx : x = g
    · simp [hx] at hq
    · rw [Function.update_of_ne hx] at hq
      exact kept (Finset.mem_erase.2 ⟨hx, inv.record x q hq⟩)
  · intro q
    rw [count, number_foldl_hincrby _ _ _ _ walk.nodup, ← total_one, removed, total_one,
      inv.aggregated.count]
    split <;> omega
  · intro q
    rw [money, total_congr (fun x _ => balance x), removed, poor, ite_self, sub_zero,
      inv.aggregated.money]

/-- Money added to a player together with the walk over the teams above. -/
theorem Coherent.pay {teams : List Guid} (inv : Coherent c) (d : Int)
    (walk : Climb c.parent (c.parent g) teams)
    (partner : c'.clubMemberPartner = c.clubMemberPartner)
    (members : c'.clubPartnerMember = c.clubPartnerMember)
    (view : c'.memberPartnerView = c'.clubMemberPartner)
    (member : c'.clubMember = c.clubMember)
    (count : c'.teamPlayerCount = c.teamPlayerCount)
    (money : c'.teamMoney = teams.foldl (fun h p => h.hincrby p d) c.teamMoney)
    (balance : c'.playerMoney = c.playerMoney.hincrby g d) : Coherent c' := by
  have parent : c'.parent = c.parent := by simp only [Club.parent, partner]
  refine inv.frame partner members view (member ▸ inv.record) ⟨?_, ?_⟩
  · rw [parent, member, count]
    exact inv.aggregated.count
  · intro q
    rw [money, balance, number_foldl_hincrby _ _ _ _ walk.nodup, parent, member,
      inv.aggregated.money]
    symm
    by_cases mem : g ∈ c.clubMember
    · refine total_change mem walk ?_ ?_ q
      · simp [number_hincrby]
      · intro x hx
        simp [number_hincrby, hx]
    · have root : c.parent g = none := by
        cases hp : c.parent g with
        | none => rfl
        | some q => exact absurd (inv.record g q hp) mem
      rw [root] at walk
      cases walk
      rw [if_neg (List.not_mem_nil), add_zero]
      refine total_congr (fun x hx => ?_) q
      have : x ≠ g := fun e => mem (e ▸ hx)
      simp [number_hincrby, this]

theorem partnerCreate_coherent {parent : Guid} (inv : Coherent c)
    (ok : c.clubMemberPartner.hget g = some parent) :
    Coherent (ClubPartner.create c g parent) := by
  have same : ∀ x, (c.clubMemberPartner.hset g parent).hget x = c.clubMemberPartner.hget x := by
    intro x
    by_cases hx : x = g
    · simp [hget_hset, hx, ok]
    · simp [hget_hset, hx]
  have up : (ClubPartner.create c g parent).parent = c.parent := by
    funext x
    simp only [Club.parent, partnerOf, ClubPartner.create, same]
  refine ⟨up ▸ inv.grounded, rfl, ?_, up ▸ inv.record, ⟨?_, ?_⟩⟩
  · intro x q
    show (c.clubMemberPartner.hset g parent).hget x = some q ↔ x ∈ c.clubPartnerMember q
    rw [same, inv.listed]
  · rw [up]
    exact inv.aggregated.count
  · rw [up]
    exact inv.aggregated.money

/-- What `club_partner:join` does when the player is not above the team. -/
theorem partnerJoin_spec (inv : Coherent c) (fresh : Fresh c g) (other : team ≠ g)
    (h : ClubPartner.join c team g = some c') :
    ∃ teams, Climb c.parent (nonzero (some team)) teams ∧
      c' = { c with
        clubMemberPartner := c.clubMemberPartner.hset g team
        clubPartnerMember :=
          Function.update c.clubPartnerMember team (insert g (c.clubPartnerMember team))
        teamPlayerCount := teams.foldl (fun h p => h.hincrby p 1) c.teamPlayerCount
        clubMemberPartnerCache := none } := by
  obtain ⟨teams, walk, rfl⟩ := Option.map_eq_some_iff.1 h
  refine ⟨teams, ?_, rfl⟩
  have above : nonzero (some team) ≠ some g := by
    simp [nonzero, Option.filter_eq_some_iff, other]
  have view := inv.written_view
    { c with
      clubMemberPartner := c.clubMemberPartner.hset g team
      clubPartnerMember :=
        Function.update c.clubPartnerMember team (insert g (c.clubPartnerMember team)) }
    (c.clubMemberPartner.hset g team) rfl rfl
  rw [partnerOf_hset] at view
  exact inv.climb_of_written fresh.2.1 above view (Club.teamsFrom_sound walk)

theorem partnerExit_spec (inv : Coherent c) (leaves : Leaves c g)
    (placed : g ∈ c.clubPartnerMember team) {result : ErrorCode × Club}
    (h : ClubPartner.exit c team g = some result) :
    ∃ teams, Climb c.parent (nonzero (some team)) teams ∧
      result = (.none, { c with
        clubMemberPartner := c.clubMemberPartner.hdel g
        clubPartnerMember :=
          Function.update c.clubPartnerMember team ((c.clubPartnerMember team).erase g)
        teamPlayerCount := teams.foldl (fun h p => h.hincrby p (-1)) c.teamPlayerCount
        clubMemberPartnerCache := none }) := by
  rw [ClubPartner.exit, if_neg (not_not.2 placed)] at h
  obtain ⟨teams, walk, rfl⟩ := Option.map_eq_some_iff.1 h
  refine ⟨teams, ?_, rfl⟩
  have under : c.clubMemberPartner.hget g = some team := (inv.listed g team).2 placed
  have above : nonzero (some team) ≠ some g := by
    have up : c.parent g = nonzero (some team) := by simp [Club.parent, partnerOf, under]
    exact up ▸ leaves.1 g
  have view := inv.written_view
    { c with
      clubMemberPartner := c.clubMemberPartner.hdel g
      clubPartnerMember :=
        Function.update c.clubPartnerMember team ((c.clubPartnerMember team).erase g) }
    (c.clubMemberPartner.hdel g) rfl rfl
  rw [partnerOf_hdel] at view
  exact inv.climb_of_written leaves.1 above view (Club.teamsFrom_sound walk)

theorem partnerJoin_coherent (inv : Coherent c) (fresh : Fresh c g)
    (mem : g ∈ c.clubMember) (other : team ≠ g) (h : ClubPartner.join c team g = some c') :
    Coherent c' := by
  obtain ⟨teams, walk, rfl⟩ := partnerJoin_spec inv fresh other h
  exact inv.attach fresh other walk rfl rfl rfl (Finset.insert_eq_self.2 mem).symm rfl ⟨rfl, rfl⟩

theorem partnerExit_coherent (inv : Coherent c)
    (ok : g ∈ c.clubPartnerMember team → Leaves c g) {result : ErrorCode × Club}
    (h : ClubPartner.exit c team g = some result) : Coherent result.2 := by
  by_cases placed : g ∈ c.clubPartnerMember team
  · obtain ⟨teams, walk, rfl⟩ := partnerExit_spec inv (ok placed) placed h
    exact inv.detach (ok placed) placed walk rfl rfl rfl (Finset.erase_subset _ _) subset_rfl
      rfl rfl fun _ => rfl
  · rw [ClubPartner.exit, if_pos placed] at h
    cases h
    exact inv

theorem partnerDismiss_coherent (inv : Coherent c)
    (ok : c.parent p = none ∨ c.clubPartnerMember p = ∅) :
    Coherent (ClubPartner.dismiss c p) := by
  have parent : (ClubPartner.dismiss c p).parent = cut c.parent p := by
    funext x
    have listed := inv.listed x p
    by_cases hx : x ∈ c.clubPartnerMember p
    · have under : c.parent x = nonzero (some p) := by
        simp [Club.parent, partnerOf, listed.2 hx]
      have cleared : (ClubPartner.dismiss c p).parent x = none := by
        simp [Club.parent, ClubPartner.dismiss, partnerOf, hget_hdels, hx, nonzero]
      rw [cleared, cut, under]
      by_cases zero : p = 0
      · simp [nonzero, zero, Option.filter]
      · simp [nonzero, zero]
    · have elsewhere : c.parent x ≠ some p := fun e => hx (listed.1 (partnerOf_eq_some.1 e).1)
      rw [cut, if_neg elsewhere]
      simp [Club.parent, ClubPartner.dismiss, partnerOf, hget_hdels, hx]
  have gone : ∀ q, below (cut c.parent p) c.clubMember q =
      if q = p then ∅ else below c.parent c.clubMember q := by
    intro q
    rcases ok with root | leaf
    · exact below_cut root q
    · -- without members there is nothing to cut, and nobody is below
      have childless : ∀ x, c.parent x ≠ some p := fun x e => by
        simpa [leaf] using (inv.listed x p).1 (partnerOf_eq_some.1 e).1
      have uncut : cut c.parent p = c.parent := by
        funext x
        rw [cut, if_neg (childless x)]
      rw [uncut]
      split
      · rename_i same
        ext x
        simp [mem_below, same, not_above_leaf childless]
      · rfl
  refine ⟨?_, rfl, ?_, ?_, ?_, ?_⟩
  · rw [parent]
    exact inv.grounded.cut p
  · intro x q
    simp only [ClubPartner.dismiss, hget_hdels]
    have listed := inv.listed x
    by_cases hx : x ∈ c.clubPartnerMember p
    · have under := (listed p).2 hx
      by_cases hq : q = p
      · simp [hx, hq]
      · simp [hx, hq, ← listed, under, Ne.symm hq]
    · by_cases hq : q = p
      · simp [hq, listed, hx]
      · simp [hx, hq, listed]
  · intro x q hq
    rw [parent, cut] at hq
    split at hq
    · cases hq
    · exact inv.record x q hq
  · intro q
    rw [parent]
    simp only [ClubPartner.dismiss, number_hdel, gone, inv.aggregated.count]
    split <;> simp
  · intro q
    rw [parent, total]
    simp only [ClubPartner.dismiss, number_hdel, gone, inv.aggregated.money, total]
    split <;> simp

theorem join_coherent (inv : Coherent c) (g : Guid) : Coherent (BaseClub.join c g) := by
  by_cases mem : g ∈ c.clubMember
  · refine inv.frame rfl rfl inv.view ?_ ?_
    all_goals simp only [BaseClub.join, Finset.insert_eq_self.2 mem]
    · exact inv.record
    · exact ⟨inv.aggregated.count, inv.aggregated.money⟩
  · -- a stranger stands under nobody, so no team counts the new member
    have root : ∀ p, ¬ Above c.parent g p := fun p h => by
      obtain ⟨q, hq, _⟩ := above_iff.1 h
      exact mem (inv.record g q hq)
    have same : ∀ p, below c.parent (insert g c.clubMember) p = below c.parent c.clubMember p := by
      intro p
      ext x
      by_cases hx : x = g
      · simp [mem_below, hx, root]
      · simp [mem_below, hx]
    refine inv.frame rfl rfl inv.view
      (fun x q hx => Finset.mem_insert_of_mem (inv.record x q hx)) ⟨fun p => ?_, fun p => ?_⟩
    · exact (inv.aggregated.count p).trans (congrArg (fun s => (s.card : Int)) (same p).symm)
    · exact (inv.aggregated.money p).trans
        (congrArg (fun s => ∑ x ∈ s, c.playerMoney.number x) (same p).symm)

theorem fullJoin_coherent {inviter teamId : Option Guid} {result : ErrorCode × Club}
    (inv : Coherent c) (ok : Orderly c (.fullJoin g inviter teamId))
    (h : BaseClub.fullJoin c g inviter teamId = some result) : Coherent result.2 := by
  rw [BaseClub.fullJoin] at h
  split at h
  · cases h; exact inv
  · rename_i right
    split at h
    · cases h; exact inv
    · rename_i known
      obtain ⟨c₁, joined, rfl⟩ := Option.map_eq_some_iff.1 h
      obtain ⟨fresh, other⟩ := (ok.resolve_left right).resolve_left known
      have fresh' : Fresh c.readMemberPartner g := fresh
      obtain ⟨teams, walk, rfl⟩ :=
        partnerJoin_spec inv.readMemberPartner fresh' other joined
      exact inv.attach fresh other walk rfl rfl rfl rfl rfl ⟨rfl, rfl⟩

theorem exit_coherent (inv : Coherent c) (root : c.parent g = none) :
    Coherent (BaseClub.exit c g) := by
  have outside : ∀ p, g ∉ below c.parent c.clubMember p := fun p h =>
    not_above_of_root root (mem_below.1 h).2
  have same : ∀ p, below c.parent (c.clubMember.erase g) p = below c.parent c.clubMember p := by
    intro p
    ext x
    by_cases hx : x = g
    · have := outside p
      rw [← hx] at this
      simp [mem_below, hx, not_above_of_root root]
    · simp [mem_below, hx]
  refine inv.frame rfl rfl inv.view (fun x q hx => ?_) ⟨fun p => ?_, fun p => ?_⟩
  · have : x ≠ g := fun e => by simp [← e, hx] at root
    exact Finset.mem_erase.2 ⟨this, inv.record x q hx⟩
  · exact (inv.aggregated.count p).trans (congrArg (fun s => (s.card : Int)) (same p).symm)
  · refine (inv.aggregated.money p).trans ?_
    show _ = ∑ x ∈ below c.parent (c.clubMember.erase g) p, (c.playerMoney.hdel g).number x
    rw [same, total]
    refine Finset.sum_congr rfl fun x hx => ?_
    have : x ≠ g := fun e => outside p (e ▸ hx)
    simp [number_hdel, this]

theorem fullExit_coherent (inv : Coherent c) (leaves : Leaves c g)
    {result : ErrorCode × Club} (h : BaseClub.fullExit c g = some result) :
    Coherent result.2 := by
  rw [BaseClub.fullExit, inv.view] at h
  split at h
  · cases h
  · rename_i partner under
    obtain ⟨r, exited, rfl⟩ := Option.map_eq_some_iff.1 h
    have placed := (inv.listed g partner).1 under
    obtain ⟨teams, walk, rfl⟩ :=
      partnerExit_spec inv.readMemberPartner leaves placed exited
    refine inv.detach leaves placed walk rfl rfl rfl subset_rfl (Finset.erase_subset _ _)
      rfl rfl fun x => ?_
    show (c.playerMoney.hdel g).number x = _
    rw [number_hdel]
    split
    · rename_i same
      rw [same, leaves.2]
    · rfl

/-- Both money operations end in this walk, the player's money already changed. -/
private theorem paid_coherent {d : Int} {members : Option (Finset Guid)} (inv : Coherent c)
    (h : BaseClub.incrTeamMoney
      { c with playerMoney := c.playerMoney.hincrby g d, clubMemberCache := members } g d =
        some c') : Coherent c' := by
  obtain ⟨teams, walk, rfl⟩ := Option.map_eq_some_iff.1 h
  have climb := Club.teamsFrom_sound walk
  have view : c.memberPartnerView = c.clubMemberPartner := inv.view
  have up : Climb c.parent (c.parent g) teams := by
    have : Climb (partnerOf c.memberPartnerView) (nonzero (c.memberPartnerView.hget g)) teams :=
      climb
    rwa [view] at this
  exact inv.pay d up rfl rfl view rfl rfl rfl rfl

theorem incrMemberMoney_coherent {d : Int} (inv : Coherent c)
    (ok : g ∈ c.memberView ∨ c.parent g = none)
    (h : BaseClub.incrMemberMoney c g d = some c') : Coherent c' := by
  rw [BaseClub.incrMemberMoney] at h
  split at h
  · cases h; exact inv
  · dsimp only at h
    split at h
    · rename_i unseen
      cases h
      -- no walk: right only because nobody is above
      have root : c.parent g = none := ok.resolve_left unseen
      exact inv.pay d (root ▸ Climb.top) rfl rfl inv.view rfl rfl rfl rfl
    · exact paid_coherent inv h

theorem incrMemberRedisMoney_coherent {d : Int} (inv : Coherent c)
    (h : BaseClub.incrMemberRedisMoney c g d = some c') : Coherent c' := by
  rw [BaseClub.incrMemberRedisMoney] at h
  split at h
  · cases h; exact inv
  · split at h
    · cases h; exact inv.readMember
    · exact paid_coherent inv h

end Steps

/-- One operation that meets the condition keeps the club coherent. -/
theorem clubStep_coherent {op : ClubOp} (inv : Coherent c) (ok : Orderly c op)
    (h : clubStep c op = some c') : Coherent c' := by
  cases op with
  | partnerCreate guid parent => cases h; exact partnerCreate_coherent inv ok
  | partnerJoin team guid => exact partnerJoin_coherent inv ok.1 ok.2.1 ok.2.2 h
  | partnerExit team mem =>
      obtain ⟨result, exited, rfl⟩ := Option.map_eq_some_iff.1 h
      exact partnerExit_coherent inv ok exited
  | partnerDismiss team => cases h; exact partnerDismiss_coherent inv ok
  | join guid => cases h; exact join_coherent inv guid
  | fullJoin guid inviter teamId =>
      obtain ⟨result, joined, rfl⟩ := Option.map_eq_some_iff.1 h
      exact fullJoin_coherent inv ok joined
  | exit guid => cases h; exact exit_coherent inv ok
  | fullExit guid =>
      obtain ⟨result, exited, rfl⟩ := Option.map_eq_some_iff.1 h
      exact fullExit_coherent inv ok exited
  | incrMemberMoney guid d => exact incrMemberMoney_coherent inv ok h
  | incrMemberRedisMoney guid d => exact incrMemberRedisMoney_coherent inv h
  | read => cases h; exact inv.readMember.readMemberPartner
  | expire => cases h; exact inv.expire

theorem reaches_coherent (reached : ClubReaches Orderly c) : Coherent c :=
  reached.invariant (fun _ => created_coherent) fun _ _ _ => clubStep_coherent

/-- In every club reached by such operations the stored aggregates are right. -/
theorem reaches_aggregated (reached : ClubReaches Orderly c) : Aggregated c :=
  (reaches_coherent reached).aggregated

theorem paid_member_aggregated :
    ∃ c, [ClubOp.fullJoin 2 (some 1) none, .incrMemberMoney 2 5].foldlM clubStep
        (BaseClub.create 1 .default fun _ => true) = some c ∧
      c.teamPlayerCount.number 1 = 1 ∧ c.teamMoney.number 1 = 5 ∧ Aggregated c := by
  refine ⟨_, rfl, by decide, by decide, reaches_aggregated ?_⟩
  refine .next (.incrMemberMoney 2 5) (.next (.fullJoin 2 (some 1) none)
    (.start ⟨1, .default, fun _ => true, rfl⟩) (.inr (.inr ⟨⟨rfl, ?_, rfl⟩, ?_⟩)) rfl) ?_ rfl
  · intro x
    show none ≠ some 2
    simp
  · decide
  · exact .inl (by decide)

/-- A player who leaves the club with money stays in the `team_money` of the
partners above, so the aggregates are not right in every reachable club. -/
theorem left_with_money_counted :
    ¬ ∀ c, ClubReaches (fun _ _ => True) c → Aggregated c := by
  intro claim
  have created : ClubReaches (fun _ _ => True) (BaseClub.create 1 .default fun _ => true) :=
    .start ⟨1, .default, fun _ => true, rfl⟩
  obtain ⟨c, run, money, member, root⟩ :
      ∃ c, [ClubOp.fullJoin 2 (some 1) none, .incrMemberMoney 2 5, .fullExit 2].foldlM clubStep
          (BaseClub.create 1 .default fun _ => true) = some c ∧
        c.teamMoney.number 1 = 5 ∧ c.clubMember = {1} ∧ c.parent 1 = none :=
    ⟨_, rfl, by decide, by decide, by decide⟩
  have sum := (claim c (Runs.reachable_of_foldlM created run)).money 1
  have nobody : below c.parent c.clubMember 1 = ∅ := by
    rw [member]
    ext x
    simp only [mem_below, Finset.mem_singleton, Finset.notMem_empty, iff_false, not_and]
    rintro rfl
    exact not_above_of_root root
  rw [money, total, nobody] at sum
  simp at sum

end FkServer
