import FkServer.Club.Handlers
import Mathlib.Data.Finset.Sort

/-!
The partner table and the sets of members as one tree under the owner. The handlers keep
it as long as nobody is put under a second partner: `create` writes the partner table
alone, and `full_join` asks neither whether the player has a place already nor whether the
team is one.
-/
namespace FkServer
open RedisHash Hash ParentForest

variable {c c' : Club} {g p team : Guid}

/-- Who may have members: the owner and the partners. -/
def Heads (c : Club) (p : Guid) : Prop := p = c.owner ∨ c.clubRole.hget p = some .partner

/-- Both partner tables say the same, every other member than the owner stands under one
player, who may have members, and the partners above it lead to the owner. -/
structure PartnerTree (c : Club) : Prop where
  inverse : ∀ m p, m ∈ c.clubPartnerMember p ↔ c.clubMemberPartner.hget m = some p
  parent : ∀ m, m ∈ c.clubMember → m ≠ c.owner → ∃ p, Heads c p ∧
    c.clubMemberPartner.hget m = some p ∧ ∀ q, m ∈ c.clubPartnerMember q → q = p
  reaches : ∀ m, m ∈ c.clubMember → m = c.owner ∨ Above c.clubMemberPartner.hget m c.owner

/-- The invariant: besides the tree, that nobody else has a place in it and that the two
cached tables are the stored ones. -/
structure Forested (c : Club) : Prop where
  listed : ∀ g p, c.clubMemberPartner.hget g = some p ↔ g ∈ c.clubPartnerMember p
  view : c.memberPartnerView = c.clubMemberPartner
  members : c.memberView = c.clubMember
  owner : c.owner ∈ c.clubMember
  root : c.clubMemberPartner.hget c.owner = none
  boss : c.clubRole.hget c.owner = some .boss
  heads : ∀ g p, c.clubMemberPartner.hget g = some p → Heads c p
  record : ∀ g p, c.clubMemberPartner.hget g = some p → g ∈ c.clubMember
  partners : ∀ g, c.clubRole.hget g = some .partner → g ∈ c.clubMember
  reaches : ∀ g, g ∈ c.clubMember → g ≠ c.owner → Above c.clubMemberPartner.hget g c.owner

theorem Forested.tree (inv : Forested c) : PartnerTree c where
  inverse := fun m p => (inv.listed m p).symm
  parent := by
    intro m member other
    obtain ⟨p, under, -⟩ := above_iff.1 (inv.reaches m member other)
    refine ⟨p, inv.heads m p under, under, fun q listed => ?_⟩
    have same := (inv.listed m q).2 listed
    rw [under] at same
    exact (Option.some.inj same).symm
  reaches := by
    intro m member
    by_cases other : m = c.owner
    · exact .inl other
    · exact .inr (inv.reaches m member other)

theorem created_forested (h : Created c) : Forested c := by
  obtain ⟨owner, type, playerData, rfl⟩ := h
  refine ⟨?_, rfl, rfl, Finset.mem_singleton_self owner, rfl, ?_, ?_, ?_, ?_, ?_⟩
  · simp [BaseClub.create]
  · simp [BaseClub.create, hget_hset]
  · simp [BaseClub.create]
  · simp [BaseClub.create]
  · intro g partner
    simp only [BaseClub.create, hget_hset] at partner
    split at partner
    · cases partner
    · cases partner
  · intro g member other
    exact absurd (Finset.mem_singleton.1 member) other

/-- Whoever is neither the owner nor a partner has nobody below. -/
theorem Forested.leaf (inv : Forested c) (other : g ≠ c.owner)
    (role : c.clubRole.hget g ≠ some .partner) (x : Guid) : c.clubMemberPartner.hget x ≠ some g := by
  intro under
  cases inv.heads x g under with
  | inl same => exact other same
  | inr partner => exact role partner

theorem Forested.not_owner (inv : Forested c) (role : c.clubRole.hget g ≠ some .boss) :
    g ≠ c.owner := by
  intro same
  exact role (same ▸ inv.boss)

/-- What leaves the members, the roles and both partner tables alone. -/
theorem Forested.frame (inv : Forested c) (owner : c'.owner = c.owner)
    (member : c'.clubMember = c.clubMember) (partner : c'.clubMemberPartner = c.clubMemberPartner)
    (children : c'.clubPartnerMember = c.clubPartnerMember) (role : c'.clubRole = c.clubRole)
    (view : c'.memberPartnerView = c.memberPartnerView) (members : c'.memberView = c.memberView) :
    Forested c' := by
  have heads : ∀ p, Heads c p → Heads c' p := by
    intro p h
    unfold Heads at h ⊢
    rwa [owner, role]
  refine ⟨?_, ?_, ?_, ?_, ?_, ?_, ?_, ?_, ?_, ?_⟩
  · rw [partner, children]
    exact inv.listed
  · rw [view, partner]
    exact inv.view
  · rw [members, member]
    exact inv.members
  · rw [owner, member]
    exact inv.owner
  · rw [owner, partner]
    exact inv.root
  · rw [owner, role]
    exact inv.boss
  · rw [partner]
    exact fun g p under => heads p (inv.heads g p under)
  · rw [partner, member]
    exact inv.record
  · rw [role, member]
    exact inv.partners
  · rw [partner, member, owner]
    exact inv.reaches

/-! ### Roles -/

/-- A role is given to an ordinary member, or an administrator's is taken away; a new
partner has the place that it had. -/
theorem Forested.roles (inv : Forested c) (guid : Guid) (roles : Hash ClubRole)
    (ordinary : guid ≠ c.owner)
    (kept : ∀ g, g ≠ guid → roles.hget g = c.clubRole.hget g)
    (partner : c.clubRole.hget guid ≠ some .partner)
    (member : roles.hget guid = some .partner → guid ∈ c.clubMember) :
    Forested { c with clubRole := roles } := by
  refine ⟨inv.listed, inv.view, inv.members, inv.owner, inv.root, ?_, ?_, inv.record, ?_, inv.reaches⟩
  · show roles.hget c.owner = _
    rw [kept c.owner (Ne.symm ordinary)]
    exact inv.boss
  · intro g p under
    cases inv.heads g p under with
    | inl same => exact .inl same
    | inr role =>
        have other : p ≠ guid := fun same => partner (same ▸ role)
        exact .inr ((kept p other).trans role)
  · intro g role
    by_cases same : g = guid
    · rw [same] at role ⊢
      exact member role
    · exact inv.partners g ((kept g same).symm.trans role)

/-- `create` for a member that stands under `parent` already. -/
theorem Forested.create (inv : Forested c) {guid parent : Guid}
    (under : c.clubMemberPartner.hget guid = some parent)
    (role : c.clubRole.hget guid ≠ some .partner) :
    Forested (ClubPartner.create c guid parent) := by
  have other : guid ≠ c.owner := fun same => by
    rw [same, inv.root] at under
    cases under
  have ranked := inv.roles guid (c.clubRole.hset guid .partner) other
    (fun g different => by rw [hget_hset, if_neg different]) role
    fun _ => inv.record guid parent under
  have same : (c.clubMemberPartner.hset guid parent).hget = c.clubMemberPartner.hget := by
    funext x
    rw [hget_hset]
    split <;> rename_i here
    · rw [here, under]
    · rfl
  refine ⟨?_, rfl, inv.members, inv.owner, ?_, ranked.boss, ?_, ?_, ranked.partners, ?_⟩
  · intro g p
    show (c.clubMemberPartner.hset guid parent).hget g = some p ↔ _
    rw [same]
    exact inv.listed g p
  · show (c.clubMemberPartner.hset guid parent).hget c.owner = none
    rw [same]
    exact inv.root
  · intro g p h
    have h : (c.clubMemberPartner.hset guid parent).hget g = some p := h
    rw [same] at h
    exact ranked.heads g p h
  · intro g p h
    have h : (c.clubMemberPartner.hset guid parent).hget g = some p := h
    rw [same] at h
    exact inv.record g p h
  · intro g member different
    show Above (c.clubMemberPartner.hset guid parent).hget g c.owner
    rw [same]
    exact inv.reaches g member different

/-! ### Joining -/

theorem Forested.join (inv : Forested c) (head : Heads c team) (other : g ≠ c.owner)
    (free : c.clubMemberPartner.hget g = none ∨ c.clubMemberPartner.hget g = some team)
    (owner : c'.owner = c.owner) (member : c'.clubMember = insert g c.clubMember)
    (partner : c'.clubMemberPartner = c.clubMemberPartner.hset g team)
    (children : c'.clubPartnerMember =
      Function.update c.clubPartnerMember team (insert g (c.clubPartnerMember team)))
    (role : c'.clubRole = c.clubRole) (view : c'.memberPartnerView = c'.clubMemberPartner)
    (members : c'.memberView = c'.clubMember) : Forested c' := by
  have heads : ∀ p, Heads c p → Heads c' p := by
    intro p h
    unfold Heads at h ⊢
    rwa [owner, role]
  have higher : ∀ x y, c.clubMemberPartner.hget x = some y → c'.clubMemberPartner.hget x = some y := by
    intro x y under
    rw [partner, hget_hset]
    split <;> rename_i same
    · rw [same] at under
      cases free with
      | inl none => rw [none] at under; cases under
      | inr some => rw [← some, under]
    · exact under
  have climb : ∀ x, Above c.clubMemberPartner.hget x c.owner →
      Above c'.clubMemberPartner.hget x c'.owner := by
    intro x h
    rw [owner]
    exact Relation.TransGen.mono higher _ _ h
  refine ⟨?_, view, members, ?_, ?_, ?_, ?_, ?_, ?_, ?_⟩
  · intro x q
    rw [partner, children, hget_hset]
    have listed := inv.listed x
    by_cases hx : x = g
    · rw [if_pos hx, hx]
      by_cases hq : q = team
      · rw [hq, Function.update_self]
        exact iff_of_true rfl (Finset.mem_insert_self _ _)
      · rw [Function.update_of_ne hq, ← inv.listed g q]
        cases free with
        | inl none => rw [none]; simp [Ne.symm hq]
        | inr some => rw [some]
    · rw [if_neg hx, listed]
      by_cases hq : q = team
      · rw [hq, Function.update_self, Finset.mem_insert]
        exact ⟨.inr, fun h => h.resolve_left hx⟩
      · rw [Function.update_of_ne hq]
  · rw [owner, member]
    exact Finset.mem_insert_of_mem inv.owner
  · rw [owner, partner, hget_hset, if_neg (Ne.symm other)]
    exact inv.root
  · rw [owner, role]
    exact inv.boss
  · intro x q under
    rw [partner, hget_hset] at under
    split at under
    · cases under
      exact heads team head
    · exact heads q (inv.heads x q under)
  · intro x q under
    rw [partner, hget_hset] at under
    rw [member]
    split at under <;> rename_i hx
    · rw [hx]
      exact Finset.mem_insert_self _ _
    · exact Finset.mem_insert_of_mem (inv.record x q under)
  · intro x partner
    rw [role] at partner
    rw [member]
    exact Finset.mem_insert_of_mem (inv.partners x partner)
  · intro x mem different
    rw [owner] at different
    by_cases hx : x = g
    · have under : c'.clubMemberPartner.hget x = some team := by
        rw [partner, hget_hset, if_pos hx]
      by_cases top : team = c.owner
      · rw [owner, ← top]
        exact .single under
      · have known := inv.partners team (head.resolve_left top)
        exact .head under (climb team (inv.reaches team known top))
    · rw [member] at mem
      exact climb x (inv.reaches x ((Finset.mem_insert.1 mem).resolve_left hx) different)

/-! ### Leaving -/

/-- No member is put under anyone by a handler that takes members off. -/
def Shrinks (c c' : Club) : Prop := ∀ p, c'.clubPartnerMember p ⊆ c.clubPartnerMember p

/-- `full_exit` of someone who has nobody below. -/
theorem Forested.fullExit {r : ErrorCode × Club} (inv : Forested c)
    (leaf : ∀ x, c.clubMemberPartner.hget x ≠ some g) (h : BaseClub.fullExit c g = some r) :
    Forested r.2 ∧ r.2.owner = c.owner ∧ Shrinks c r.2 ∧ ∀ p, g ∉ r.2.clubPartnerMember p := by
  rw [BaseClub.fullExit, inv.view] at h
  cases under : c.clubMemberPartner.hget g with
  | none => rw [under] at h; cases h
  | some partner =>
      rw [under] at h
      obtain ⟨left, exited, rfl⟩ := Option.map_eq_some_iff.1 h
      have listed := (inv.listed g partner).1 under
      have here : g ∈ c.readMemberPartner.clubPartnerMember partner := listed
      rw [ClubPartner.exit, if_neg (not_not.2 here)] at exited
      obtain ⟨teams, -, rfl⟩ := Option.map_eq_some_iff.1 exited
      have other : g ≠ c.owner := fun same => by
        rw [same, inv.root] at under
        cases under
      have gone : ∀ x, (c.clubMemberPartner.hdel g).hget x =
          Function.update c.clubMemberPartner.hget g none x := by
        intro x
        rw [hget_hdel]
        by_cases hx : x = g
        · rw [hx, if_pos rfl, Function.update_self]
        · rw [if_neg hx, Function.update_of_ne hx]
      have under_of : ∀ x q, (c.clubMemberPartner.hdel g).hget x = some q →
          x ≠ g ∧ c.clubMemberPartner.hget x = some q := by
        intro x q h
        rw [hget_hdel] at h
        split at h <;> rename_i hx
        · cases h
        · exact ⟨hx, h⟩
      refine ⟨⟨?_, rfl, rfl, ?_, ?_, ?_, ?_, ?_, ?_, ?_⟩, rfl, ?_, ?_⟩
      · intro x q
        show (c.clubMemberPartner.hdel g).hget x = some q ↔
          x ∈ Function.update c.clubPartnerMember partner ((c.clubPartnerMember partner).erase g) q
        rw [hget_hdel]
        by_cases hx : x = g
        · rw [if_pos hx, hx]
          by_cases hq : q = partner
          · rw [hq, Function.update_self]
            simp
          · rw [Function.update_of_ne hq, ← inv.listed g q, under]
            simp [Ne.symm hq]
        · rw [if_neg hx, inv.listed x q]
          by_cases hq : q = partner
          · rw [hq, Function.update_self]
            simp [hx]
          · rw [Function.update_of_ne hq]
      · exact Finset.mem_erase.2 ⟨Ne.symm other, inv.owner⟩
      · show (c.clubMemberPartner.hdel g).hget c.owner = none
        rw [hget_hdel, if_neg (Ne.symm other)]
        exact inv.root
      · show (c.clubRole.hdel g).hget c.owner = some .boss
        rw [hget_hdel, if_neg (Ne.symm other)]
        exact inv.boss
      · intro x q h
        obtain ⟨-, h⟩ := under_of x q h
        cases inv.heads x q h with
        | inl same => exact .inl same
        | inr role =>
            have higher : q ≠ g := fun same => leaf x (same ▸ h)
            refine .inr ?_
            show (c.clubRole.hdel g).hget q = some .partner
            rw [hget_hdel, if_neg higher]
            exact role
      · intro x q h
        obtain ⟨different, h⟩ := under_of x q h
        exact Finset.mem_erase.2 ⟨different, inv.record x q h⟩
      · intro x role
        have role : (c.clubRole.hdel g).hget x = some .partner := role
        rw [hget_hdel] at role
        split at role <;> rename_i hx
        · cases role
        · exact Finset.mem_erase.2 ⟨hx, inv.partners x role⟩
      · intro x member different
        obtain ⟨hx, member⟩ := Finset.mem_erase.1 member
        show Above (c.clubMemberPartner.hdel g).hget x c.owner
        rw [show (c.clubMemberPartner.hdel g).hget = _ from funext gone, above_update_leaf leaf none hx]
        exact inv.reaches x member different
      · intro q
        show Function.update c.clubPartnerMember partner _ q ⊆ _
        by_cases hq : q = partner
        · rw [hq, Function.update_self]
          exact Finset.erase_subset _ _
        · rw [Function.update_of_ne hq]
      · intro q
        show g ∉ Function.update c.clubPartnerMember partner ((c.clubPartnerMember partner).erase g) q
        by_cases hq : q = partner
        · rw [hq, Function.update_self]
          exact Finset.notMem_erase _ _
        · rw [Function.update_of_ne hq, ← inv.listed g q, under]
          simp [Ne.symm hq]

/-- `dismiss` of a partner whose members are gone. -/
theorem Forested.dismiss (inv : Forested c) (other : p ≠ c.owner)
    (empty : c.clubPartnerMember p = ∅) : Forested (ClubPartner.dismiss c p) := by
  have same : (c.clubMemberPartner.hdels (c.clubPartnerMember p)).hget = c.clubMemberPartner.hget := by
    funext x
    rw [hget_hdels, empty, if_neg (Finset.notMem_empty x)]
  have above : ∀ x q, c.clubMemberPartner.hget x = some q → q ≠ p := by
    intro x q under same
    have member := (inv.listed x q).1 under
    rw [same, empty] at member
    exact Finset.notMem_empty x member
  refine ⟨?_, rfl, inv.members, inv.owner, ?_, ?_, ?_, ?_, ?_, ?_⟩
  · intro x q
    show (c.clubMemberPartner.hdels (c.clubPartnerMember p)).hget x = some q ↔
      x ∈ Function.update c.clubPartnerMember p ∅ q
    rw [same, ← empty, Function.update_eq_self]
    exact inv.listed x q
  · show (c.clubMemberPartner.hdels (c.clubPartnerMember p)).hget c.owner = none
    rw [same]
    exact inv.root
  · show (c.clubRole.hdel p).hget c.owner = some .boss
    rw [hget_hdel, if_neg (Ne.symm other)]
    exact inv.boss
  · intro x q under
    have under : (c.clubMemberPartner.hdels (c.clubPartnerMember p)).hget x = some q := under
    rw [same] at under
    cases inv.heads x q under with
    | inl top => exact .inl top
    | inr role =>
        refine .inr ?_
        show (c.clubRole.hdel p).hget q = some .partner
        rw [hget_hdel, if_neg (above x q under)]
        exact role
  · intro x q under
    have under : (c.clubMemberPartner.hdels (c.clubPartnerMember p)).hget x = some q := under
    rw [same] at under
    exact inv.record x q under
  · intro x role
    have role : (c.clubRole.hdel p).hget x = some .partner := role
    rw [hget_hdel] at role
    split at role
    · cases role
    · exact inv.partners x role
  · intro x member different
    show Above (c.clubMemberPartner.hdels (c.clubPartnerMember p)).hget x c.owner
    rw [same]
    exact inv.reaches x member different

/-- The whole branch below a partner leaves, from its leaves up. -/
theorem Forested.recursiveDismiss {o : OnClub.Office} {fuel : Nat} (inv : Forested c)
    (role : c.clubRole.hget p = some .partner)
    (h : OnClub.recursiveDismiss o fuel c p = some c') :
    Forested c' ∧ c'.owner = c.owner ∧ Shrinks c c' ∧ c'.clubPartnerMember p = ∅ := by
  induction fuel generalizing c c' p with
  | zero => cases h
  | succ fuel ih =>
      obtain ⟨left, emptied, rfl⟩ := Option.map_eq_some_iff.1 h
      have other : p ≠ c.owner := inv.not_owner (by rw [role]; decide)
      -- of the members that the loop set out with, only those still to come are left
      have done := Runs.foldlM_invariant
        (fun rest s => Forested s ∧ s.owner = c.owner ∧ Shrinks c s ∧
          ∀ x, x ∈ s.clubPartnerMember p → x ∈ rest)
        (by
          rintro mem rest s s' ⟨forest, owner, shrinks, covered⟩ step
          obtain ⟨below, dismissed, left⟩ := Option.bind_eq_some_iff.1 step
          obtain ⟨r, exited, rfl⟩ := Option.map_eq_some_iff.1 left
          have cleared : Forested below ∧ below.owner = s.owner ∧ Shrinks s below ∧
              ∀ x, below.clubMemberPartner.hget x ≠ some mem := by
            split at dismissed <;> rename_i partner
            · obtain ⟨forest, owner, shrinks, empty⟩ := ih forest (of_decide_eq_true partner) dismissed
              refine ⟨forest, owner, shrinks, fun x under => ?_⟩
              have member := (forest.listed x mem).1 under
              rw [empty] at member
              exact Finset.notMem_empty x member
            · cases dismissed
              refine ⟨forest, rfl, fun _ => Finset.Subset.refl _, ?_⟩
              refine forest.leaf (fun same => ?_) fun role => partner (decide_eq_true role)
              rw [BaseClub.fullExit, forest.view, same, forest.root] at exited
              cases exited
          obtain ⟨forest', owner', shrinks', leaf⟩ := cleared
          obtain ⟨forest'', owner'', shrinks'', gone⟩ := forest'.fullExit leaf exited
          refine ⟨forest'', owner''.trans (owner'.trans owner), fun q => ?_, fun x member => ?_⟩
          · exact (shrinks'' q).trans ((shrinks' q).trans (shrinks q))
          · have before := covered x (shrinks' p (shrinks'' p member))
            refine (List.mem_cons.1 before).resolve_left fun same => ?_
            rw [same] at member
            exact gone p member)
        ⟨inv, rfl, fun _ => Finset.Subset.refl _, fun x => (o.mem_pairs _ x).2⟩ emptied
      obtain ⟨forest, owner, shrinks, covered⟩ := done
      have empty : left.clubPartnerMember p = ∅ :=
        Finset.eq_empty_of_forall_notMem fun x member => List.not_mem_nil (covered x member)
      refine ⟨forest.dismiss (by rw [owner]; exact other) empty, owner, fun q => ?_, ?_⟩
      · show Function.update left.clubPartnerMember p ∅ q ⊆ _
        rw [← empty, Function.update_eq_self]
        exact shrinks q
      · exact Function.update_self p ∅ left.clubPartnerMember

/-! ### The handlers -/

/-- A check of `on_cs_club_partner` refuses a new partner. -/
def RefusesPartner (o : OnClub.Office) (c : Club) (guid target : Guid) : Prop :=
  target ∉ c.memberView ∨ (OnClub.isLeader c guid || OnClub.isPartner c guid) = false ∨
    (OnClub.isLeader c target || OnClub.isPartner c target) = true ∨
    OnClub.checkCanSetPartner o c target = false

/-- The condition under which a request keeps the tree: who joins has no other place and
comes under the owner or a partner, and who becomes a partner stands under the parent that
`create` is given. -/
def Placing (c : Club) (r : OnClub.Office × Request) : Prop :=
  match r.2 with
  | .fullJoin guid inviter teamId =>
      let team := BaseClub.joinTeam c inviter teamId
      BaseClub.inviterHasNoRight c inviter = true ∨ c.playerData team = false ∨
        guid ≠ c.owner ∧ Heads c team ∧
          (c.clubMemberPartner.hget guid = none ∨ c.clubMemberPartner.hget guid = some team)
  | .addPartner guid target =>
      RefusesPartner r.1 c guid target ∨
        c.clubMemberPartner.hget target =
          some (if OnClub.isLeader c guid then c.owner else guid)
  | _ => True

theorem not_isPartner (h : ¬ OnClub.isPartner c g = true) : c.clubRole.hget g ≠ some .partner :=
  fun role => h (decide_eq_true role)

theorem not_isLeader (h : ¬ OnClub.isLeader c g = true) : c.clubRole.hget g ≠ some .boss :=
  fun role => h (decide_eq_true (.inr role))

theorem Forested.addPartner {o : OnClub.Office} {guid target : Guid} (inv : Forested c)
    (ok : Placing c (o, .addPartner guid target)) :
    Forested (OnClub.addPartner o c guid target).2 := by
  rw [OnClub.addPartner]
  split
  · exact inv
  · rename_i member
    split
    · exact inv
    · rename_i right
      split
      · exact inv
      · rename_i ordinary
        split
        · exact inv
        · rename_i level
          have accepted : ¬ RefusesPartner o c guid target := by
            unfold RefusesPartner
            tauto
          rw [Bool.not_eq_true, Bool.or_eq_false_iff] at ordinary
          exact inv.create (ok.resolve_left accepted) (not_isPartner (by simp [ordinary.2]))

theorem Forested.removePartner {o : OnClub.Office} {guid target : Guid}
    {r : OnClub.Result × Club} (inv : Forested c)
    (h : OnClub.removePartner o c guid target = some r) : Forested r.2 := by
  rw [OnClub.removePartner] at h
  split at h
  · cases h; exact inv
  · split at h
    · cases h; exact inv
    · split at h
      · cases h; exact inv
      · rename_i partner
        obtain ⟨found, -, h⟩ := Option.bind_eq_some_iff.1 h
        split at h
        · cases h; exact inv
        · obtain ⟨sum, -, h⟩ := Option.bind_eq_some_iff.1 h
          split at h
          · cases h; exact inv
          · obtain ⟨left, dismissed, rfl⟩ := Option.map_eq_some_iff.1 h
            have role := of_decide_eq_true (Bool.eq_true_of_not_eq_false partner)
            exact (inv.recursiveDismiss role dismissed).1

theorem Forested.exit {guid exitGuid : Guid} {r : OnClub.Result × Club} (inv : Forested c)
    (h : OnClub.exit c guid exitGuid = some r) : Forested r.2 := by
  rw [OnClub.exit] at h
  split at h
  · cases h; exact inv
  · rename_i right
    split at h
    · cases h; exact inv
    · rename_i partner
      split at h
      · obtain ⟨left, exited, rfl⟩ := Option.map_eq_some_iff.1 h
        have other := inv.not_owner (not_isLeader fun leader => right (.inr (.inr leader)))
        exact (inv.fullExit (inv.leaf other (not_isPartner partner)) exited).1
      · cases h; exact inv

theorem Forested.kickout {o : OnClub.Office} {guid target : Guid} {r : OnClub.Result × Club}
    (inv : Forested c) (h : OnClub.kickout o c guid target = some r) : Forested r.2 := by
  rw [OnClub.kickout] at h
  split at h
  · cases h; exact inv
  · split at h
    · cases h; exact inv
    · split at h
      · cases h; exact inv
      · rename_i ordinary
        rw [Bool.not_eq_true, Bool.or_eq_false_iff] at ordinary
        repeat' split at h
        all_goals first
          | (cases h; exact inv)
          | obtain ⟨left, exited, rfl⟩ := Option.map_eq_some_iff.1 h
            have other : target ≠ c.owner := inv.not_owner (not_isLeader (by simp [ordinary.1]))
            exact (inv.fullExit (inv.leaf other (not_isPartner (by simp [ordinary.2]))) exited).1

theorem Forested.addAdmin {guid target : Guid} (inv : Forested c) :
    Forested (OnClub.addAdmin c guid target).2 := by
  rw [OnClub.addAdmin]
  split
  · exact inv
  · split
    · exact inv
    · split
      · exact inv
      · rename_i ordinary
        rw [Bool.not_eq_true, Bool.or_eq_false_iff] at ordinary
        refine inv.roles target _ (inv.not_owner (not_isLeader (by simp [ordinary.1])))
          (fun x other => by rw [hget_hset, if_neg other]) (not_isPartner (by simp [ordinary.2])) ?_
        rw [hget_hset, if_pos rfl]
        intro role
        cases role

theorem Forested.removeAdmin {guid target : Guid} (inv : Forested c) :
    Forested (OnClub.removeAdmin c guid target).2 := by
  rw [OnClub.removeAdmin]
  split
  · exact inv
  · split
    · exact inv
    · split
      · exact inv
      · rename_i admin
        have admin := not_not.1 admin
        refine inv.roles target _ (inv.not_owner (by rw [admin]; decide))
          (fun x other => by rw [hget_hdel, if_neg other]) (by rw [admin]; decide) ?_
        rw [hget_hdel, if_pos rfl]
        intro role
        cases role

theorem Forested.fullJoin {inviter teamId : Option Guid} {r : ErrorCode × Club} {o : OnClub.Office}
    (inv : Forested c) (ok : Placing c (o, .fullJoin g inviter teamId))
    (h : BaseClub.fullJoin c g inviter teamId = some r) : Forested r.2 := by
  rw [BaseClub.fullJoin] at h
  split at h
  · cases h; exact inv
  · rename_i right
    split at h
    · cases h; exact inv
    · rename_i known
      obtain ⟨joined, walk, rfl⟩ := Option.map_eq_some_iff.1 h
      obtain ⟨teams, -, rfl⟩ := Option.map_eq_some_iff.1 walk
      obtain ⟨other, head, free⟩ := (ok.resolve_left right).resolve_left known
      exact inv.join head other free rfl rfl rfl rfl rfl rfl rfl

/-- The money operations leave the tree alone. -/
theorem Forested.incrTeamMoney {s : Club} {delta : Int} (inv : Forested s)
    (h : BaseClub.incrTeamMoney s g delta = some c') : Forested c' := by
  obtain ⟨teams, -, rfl⟩ := Option.map_eq_some_iff.1 h
  exact inv.frame rfl rfl rfl rfl rfl rfl rfl

theorem handle_forested {r : OnClub.Office × Request} (inv : Forested c) (ok : Placing c r)
    (h : handle c r = some c') : Forested c' := by
  obtain ⟨o, request⟩ := r
  cases request with
  | fullJoin guid inviter teamId =>
      obtain ⟨r, joined, rfl⟩ := Option.map_eq_some_iff.1 h
      exact inv.fullJoin ok joined
  | addPartner guid target => cases h; exact inv.addPartner ok
  | removePartner guid target =>
      obtain ⟨r, removed, rfl⟩ := Option.map_eq_some_iff.1 h
      exact inv.removePartner removed
  | exit guid exitGuid =>
      obtain ⟨r, left, rfl⟩ := Option.map_eq_some_iff.1 h
      exact inv.exit left
  | kickout guid target =>
      obtain ⟨r, kicked, rfl⟩ := Option.map_eq_some_iff.1 h
      exact inv.kickout kicked
  | addAdmin guid target => cases h; exact inv.addAdmin
  | removeAdmin guid target => cases h; exact inv.removeAdmin
  | incrMemberMoney guid delta =>
      have h : BaseClub.incrMemberMoney c guid delta = some c' := h
      rw [BaseClub.incrMemberMoney] at h
      split at h
      · cases h; exact inv
      · dsimp only at h
        split at h
        · cases h
          exact inv.frame rfl rfl rfl rfl rfl rfl rfl
        · have paid : Forested
              ({ c with playerMoney := c.playerMoney.hincrby guid delta } : Club).readMember :=
            inv.frame rfl rfl rfl rfl rfl rfl rfl
          exact paid.incrTeamMoney h
  | incrMemberRedisMoney guid delta =>
      have h : BaseClub.incrMemberRedisMoney c guid delta = some c' := h
      rw [BaseClub.incrMemberRedisMoney] at h
      split at h
      · cases h; exact inv
      · split at h
        · cases h
          exact inv.frame rfl rfl rfl rfl rfl rfl rfl
        · have paid : Forested
              ({ c with playerMoney := c.playerMoney.hincrby guid delta } : Club).readMember :=
            inv.frame rfl rfl rfl rfl rfl rfl rfl
          exact paid.incrTeamMoney h
  | read =>
      cases h
      exact inv.frame rfl rfl rfl rfl rfl rfl rfl
  | expire =>
      cases h
      exact inv.frame rfl rfl rfl rfl rfl inv.view.symm inv.members.symm

/-- In every club reached by requests that meet the condition the tables are one tree. -/
theorem handled_clubs_are_trees (reached : HandledReaches Placing c) : PartnerTree c :=
  (reached.invariant (fun _ => created_forested) fun _ _ _ => handle_forested).tree

/-- Nobody has a commission, a stored level or a seat; members are met in ascending order. -/
def quietOffice : OnClub.Office where
  commission := fun _ => 0
  agentLevel := fun _ => none
  agentLevelLimit := none
  gaming := fun _ => false
  pairs := fun members => members.sort (· ≤ ·)
  mem_pairs := fun _ _ => Finset.mem_sort _
  nodup_pairs := fun members => members.sort_nodup _

theorem partner_with_member_tree :
    ∃ c, [(quietOffice, Request.fullJoin 2 (some 1) none), (quietOffice, .addPartner 1 2),
        (quietOffice, .fullJoin 3 (some 2) none)].foldlM handle
        (BaseClub.create 1 .union fun _ => true) = some c ∧
      c.clubMemberPartner.hget 3 = some 2 ∧ PartnerTree c := by
  refine ⟨_, rfl, rfl, handled_clubs_are_trees ?_⟩
  have created : HandledReaches Placing (BaseClub.create 1 .union fun _ => true) :=
    .start ⟨1, .union, fun _ => true, rfl⟩
  have joined := Runs.Reaches.next (quietOffice, Request.fullJoin 2 (some 1) none) created
    (.inr (.inr ⟨by decide, .inl rfl, .inl rfl⟩)) rfl
  have promoted := Runs.Reaches.next (quietOffice, Request.addPartner 1 2) joined (.inr rfl) rfl
  exact Runs.Reaches.next (quietOffice, Request.fullJoin 3 (some 2) none) promoted
    (.inr (.inr ⟨by decide, .inr rfl, .inl rfl⟩)) rfl

/-- The boss promotes a member of the partner 2, which comes under the boss by the partner
table and stays in the set of 2. -/
theorem promoted_stays_listed : ¬ ∀ c, HandledReaches (fun _ _ => True) c → PartnerTree c := by
  intro claim
  have created : HandledReaches (fun _ _ => True) (BaseClub.create 1 .union fun _ => true) :=
    .start ⟨1, .union, fun _ => true, rfl⟩
  obtain ⟨c, run, listed, parent⟩ :
      ∃ c, [(quietOffice, Request.fullJoin 2 (some 1) none), (quietOffice, .addPartner 1 2),
          (quietOffice, .fullJoin 3 (some 2) none), (quietOffice, .addPartner 1 3)].foldlM handle
          (BaseClub.create 1 .union fun _ => true) = some c ∧
        3 ∈ c.clubPartnerMember 2 ∧ c.clubMemberPartner.hget 3 = some 1 :=
    ⟨_, rfl, by decide, by decide⟩
  have under := ((claim c (Runs.reachable_of_foldlM created run)).inverse 3 2).1 listed
  rw [parent] at under
  exact absurd under (by decide)

end FkServer
