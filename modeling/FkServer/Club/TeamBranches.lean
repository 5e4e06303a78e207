import FkServer.Club.ClubPartner

/-!
Branches of many players at once: `father_tree` climbs from each player only as far as the
parents are not known yet and `father_branch` reads a branch off the parents found. The
branch is the one that `team_branch` walks for the player alone.
-/
namespace FkServer
open RedisHash Hash ParentForest

/-- A club whose chains of partners end, and in which `0` stands for nobody. -/
structure PartnerForest where
  club : Club
  grounded : Grounded (partnerOf club.memberPartnerView)
  noPartner : club.memberPartnerView.hget 0 = none
  noRole : club.clubRole.hget 0 = none

namespace ClubUtils

/-- The turns any of the walks can take. -/
def turns (c : Club) : Nat := c.memberPartnerView.fields.length + 1

/-- `while f and f ~= 0 do if fathers[f] then break end .. end` of `father_tree` -/
def fatherChain (partners : Hash Guid) :
    Nat → (Guid → Option Guid) → Option Guid → Option (Guid → Option Guid)
  | _, fathers, none => some fathers
  | 0, _, some _ => none
  | fuel + 1, fathers, some f =>
      match fathers f with
      | some _ => some fathers
      | none =>
          let tf := partners.hget f
          fatherChain partners fuel (Function.update fathers f tf) (nonzero tf)

def fatherTree (c : Club) (guids : List Guid) : Option (Guid → Option Guid) :=
  guids.foldlM (fun fathers guid =>
    fatherChain c.memberPartnerView (turns c) fathers (nonzero (some guid))) fun _ => none

/-- A player who leads a team starts his own branch. -/
def leads (c : Club) (guid : Guid) : Bool :=
  c.clubRole.hget guid = some .boss ∨ c.clubRole.hget guid = some .partner

def fatherBranch (c : Club) (fathers : Guid → Option Guid) (guid : Guid) : Option (List Guid) :=
  let f := if leads c guid then some guid else fathers guid
  (climb (fun f => nonzero (fathers f)) (turns c) (nonzero f)).map List.reverse

/-- `team_branch` with each team put before the ones found, so the top one is the first. -/
def teamBranch (c : Club) (guid : Guid) : Option (List Guid) :=
  (c.teamsFrom (c.memberPartnerView.hget guid)).map fun teams =>
    (if leads c guid then guid :: teams else teams).reverse

/-! ### The parents found -/

variable {c : Club} {partners : Hash Guid} {fathers found : Guid → Option Guid} {o : Option Guid}
  {guid f p : Guid} {l : List Guid}

/-- The parents found so far: none is wrong, and the parents of a known parent are known, but
for `o`, from where the climb goes on. -/
structure Known (partners : Hash Guid) (fathers : Guid → Option Guid) (o : Option Guid) : Prop where
  right : ∀ f, fathers f = none ∨ fathers f = partners.hget f
  up : ∀ f p, nonzero (fathers f) = some p → fathers p = partners.hget p ∨ o = some p

theorem known_nothing (partners : Hash Guid) : Known partners (fun _ => none) none where
  right _ := .inl rfl
  up _ _ h := nomatch h

theorem Known.anywhere (known : Known partners fathers none) (o : Option Guid) :
    Known partners fathers o where
  right := known.right
  up f p h := .inl ((known.up f p h).resolve_right nofun)

theorem Known.stop (known : Known partners fathers (some f)) (here : fathers f = some p) :
    Known partners fathers none ∧ fathers f = partners.hget f := by
  have there : fathers f = partners.hget f := (known.right f).resolve_left (by simp [here])
  refine ⟨⟨known.right, fun g q h => ?_⟩, there⟩
  cases known.up g q h with
  | inl found => exact .inl found
  | inr same =>
      cases same
      exact .inl there

theorem Known.set (known : Known partners fathers (some f)) :
    Known partners (Function.update fathers f (partners.hget f)) (partnerOf partners f) where
  right g := by
    by_cases same : g = f
    · simp [same]
    · simpa [same] using known.right g
  up g q h := by
    by_cases top : q = f
    · simp [top]
    by_cases same : g = f
    · rw [same, Function.update_self] at h
      exact .inr h
    · rw [Function.update_of_ne same] at h
      rw [Function.update_of_ne top]
      exact .inl ((known.up g q h).resolve_right fun first => top (Option.some.inj first).symm)

/-- What a climb leaves: nothing known is lost and the parent of its start is known. -/
theorem fatherChain_spec {fuel : Nat} (climbs : Climb (partnerOf partners) o l) (enough : l.length ≤ fuel)
    (known : Known partners fathers o) :
    ∃ found, fatherChain partners fuel fathers o = some found ∧ Known partners found none ∧
      (∀ g, fathers g = partners.hget g → found g = partners.hget g) ∧
        ∀ g, o = some g → found g = partners.hget g := by
  induction climbs generalizing fuel fathers with
  | top => exact ⟨fathers, by cases fuel <;> rfl, known, fun _ same => same, fun _ h => nomatch h⟩
  | @up f l _ ih =>
      cases fuel with
      | zero => simp at enough
      | succ fuel =>
          rw [fatherChain]
          cases here : fathers f with
          | some p =>
              obtain ⟨stopped, there⟩ := known.stop here
              exact ⟨fathers, rfl, stopped, fun _ same => same, fun g h => Option.some.inj h ▸ there⟩
          | none =>
              obtain ⟨found, run, after, kept, first⟩ := @ih _ fuel (by simpa using enough) known.set
              have lasting : ∀ g, Function.update fathers f (partners.hget f) g = partners.hget g →
                  found g = partners.hget g := kept
              refine ⟨found, run, after, fun g same => lasting g ?_, fun g h => lasting g ?_⟩
              · by_cases top : g = f
                · rw [top, Function.update_self]
                · rw [Function.update_of_ne top, same]
              · cases h
                rw [Function.update_self]

theorem turns_enough (climbs : Climb (partnerOf c.memberPartnerView) o l) : l.length ≤ turns c := by
  have cover : ∀ x y, partnerOf c.memberPartnerView x = some y →
      x ∈ c.memberPartnerView.fields.map Prod.fst :=
    fun x y up => mem_keys_of_hget (partnerOf_eq_some.1 up).1
  simpa [turns] using climbs.length_le cover

/-- The parent of every player asked for is known in the end, but of nobody. -/
theorem fatherTree_spec (grounded : Grounded (partnerOf c.memberPartnerView)) {guids : List Guid}
    (known : Known c.memberPartnerView fathers none) :
    ∃ found, guids.foldlM (fun fathers guid =>
        fatherChain c.memberPartnerView (turns c) fathers (nonzero (some guid))) fathers = some found ∧
      Known c.memberPartnerView found none ∧
        (∀ g, fathers g = c.memberPartnerView.hget g → found g = c.memberPartnerView.hget g) ∧
          ∀ g ∈ guids, g ≠ 0 → found g = c.memberPartnerView.hget g := by
  induction guids generalizing fathers with
  | nil => exact ⟨fathers, rfl, known, fun _ same => same, fun _ h => nomatch h⟩
  | cons guid guids ih =>
      obtain ⟨l, climbs⟩ := grounded.climb (nonzero (some guid))
      obtain ⟨next, run, after, kept, first⟩ :=
        fatherChain_spec climbs (turns_enough climbs) (known.anywhere _)
      obtain ⟨found, rest, last, lasting, asked⟩ := ih after
      refine ⟨found, ?_, last, fun g same => lasting g (kept g same), fun g member other => ?_⟩
      · rw [List.foldlM_cons, run]
        exact rest
      · cases List.mem_cons.1 member with
        | inl same => exact lasting g (first g (by simp [nonzero, same ▸ other, same]))
        | inr later => exact asked g later other

/-- Among known parents a walk goes where it goes among all. -/
theorem Known.climb (known : Known partners fathers none) (climbs : Climb (partnerOf partners) o l)
    (start : ∀ g, o = some g → fathers g = partners.hget g) :
    Climb (fun f => nonzero (fathers f)) o l := by
  induction climbs with
  | top => exact .top
  | @up f l _ ih =>
      have here : nonzero (fathers f) = partnerOf partners f := by rw [start f rfl, partnerOf]
      refine .up ?_
      rw [here]
      exact ih fun g up => (known.up f g (here.trans up)).resolve_right (by simp)

theorem fatherBranch_of_known (known : Known c.memberPartnerView found none)
    (grounded : Grounded (partnerOf c.memberPartnerView))
    (here : found guid = c.memberPartnerView.hget guid)
    (someone : leads c guid = true → guid ≠ 0) :
    ∃ branch, fatherBranch c found guid = some branch ∧ teamBranch c guid = some branch := by
  obtain ⟨l, climbs⟩ := grounded guid
  have walk : c.teamsFrom (c.memberPartnerView.hget guid) = some l := Club.teamsFrom_complete climbs
  by_cases leader : leads c guid = true
  · have start : nonzero (some guid) = some guid := by simp [nonzero, someone leader]
    have own : Climb (partnerOf c.memberPartnerView) (some guid) (guid :: l) := .up climbs
    have same := known.climb own fun g h => by cases h; exact here
    refine ⟨(guid :: l).reverse, ?_, by simp [teamBranch, walk, leader]⟩
    simp only [fatherBranch, leader, if_true, start]
    rw [climb_complete same (turns_enough own)]
    rfl
  · have same := known.climb climbs fun g up =>
      (known.up guid g (by rw [here]; exact up)).resolve_right (by simp)
    refine ⟨l.reverse, ?_, by simp [teamBranch, walk, leader]⟩
    simp only [fatherBranch, leader, here]
    exact congrArg (Option.map List.reverse) (climb_complete same (turns_enough climbs))

/-- For every player of the list the branch read off the common parents is his own branch. -/
theorem father_branch_eq (forest : PartnerForest) (guids : List Guid) :
    ∃ fathers, fatherTree forest.club guids = some fathers ∧
      ∀ guid ∈ guids, ∃ branch, fatherBranch forest.club fathers guid = some branch ∧
        teamBranch forest.club guid = some branch := by
  obtain ⟨found, run, known, _, asked⟩ :=
    @fatherTree_spec forest.club _ forest.grounded guids (known_nothing _)
  refine ⟨found, run, fun guid member => fatherBranch_of_known known forest.grounded ?_ ?_⟩
  · by_cases nobody : guid = 0
    · cases known.right guid with
      | inl none => rw [none, nobody, forest.noPartner]
      | inr same => exact same
    · exact asked guid member nobody
  · rintro leader rfl
    simp [leads, forest.noRole] at leader

end ClubUtils
end FkServer
