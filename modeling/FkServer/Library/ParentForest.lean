import Mathlib.Algebra.BigOperators.Group.Finset.Piecewise
import Mathlib.Data.List.Perm.Subperm
import Mathlib.Logic.Relation

/-!
Forests given by a parent map, as kept by any store that records for each node
only who stands directly above it. `Above` is the chain of parents, `Climb` the
loop that visits it, `below` the part of a node set under a given node. The
results say how these change when a leaf is attached or detached and when a root
is cut off from its children; no node set is assumed finite beyond `below`.
-/
namespace ParentForest

universe u
variable {α : Type u} {parent : α → Option α} {a g p q : α}

/-- The chain of parents that starts above `a` passes through `p`. -/
def Above (parent : α → Option α) (a p : α) : Prop :=
  Relation.TransGen (fun x y => parent x = some y) a p

theorem above_iff :
    Above parent a p ↔ ∃ q, parent a = some q ∧ (q = p ∨ Above parent q p) := by
  constructor
  · intro h
    obtain ⟨q, hq, rest⟩ := (Relation.TransGen.head'_iff).1 h
    refine ⟨q, hq, ?_⟩
    rcases (Relation.reflTransGen_iff_eq_or_transGen).1 rest with e | up
    · exact .inl e.symm
    · exact .inr up
  · rintro ⟨q, hq, rfl | up⟩
    · exact .single hq
    · exact .head hq up

theorem not_above_of_root (root : parent a = none) : ¬ Above parent a p := by
  rw [above_iff]
  rintro ⟨q, hq, _⟩
  simp [root] at hq

theorem not_above_leaf (leaf : ∀ x, parent x ≠ some g) : ¬ Above parent a g := by
  intro h
  obtain ⟨x, _, hx⟩ := (Relation.TransGen.tail'_iff).1 h
  exact leaf x hx

theorem above_tail : Above parent a p ↔ ∃ q, parent q = some p ∧ (a = q ∨ Above parent a q) := by
  constructor
  · intro h
    obtain ⟨q, rest, hq⟩ := Relation.TransGen.tail'_iff.1 h
    refine ⟨q, hq, ?_⟩
    cases Relation.reflTransGen_iff_eq_or_transGen.1 rest with
    | inl same => exact .inl same.symm
    | inr up => exact .inr up
  · intro h
    obtain ⟨q, hq, here⟩ := h
    cases here with
    | inl same => exact .single (same ▸ hq)
    | inr up => exact .tail up hq

/-- There is one chain of parents, so two nodes above one are above one another. -/
theorem Above.related (hp : Above parent a p) (hq : Above parent a q) :
    p = q ∨ Above parent p q ∨ Above parent q p := by
  have unique : Relator.RightUnique fun x y => parent x = some y := by
    intro x y z first second
    rw [first] at second
    exact Option.some.inj second
  cases Relation.ReflTransGen.total_of_right_unique unique hp.to_reflTransGen hq.to_reflTransGen with
  | inl up =>
      cases Relation.reflTransGen_iff_eq_or_transGen.1 up with
      | inl same => exact .inl same.symm
      | inr up => exact .inr (.inl up)
  | inr down =>
      cases Relation.reflTransGen_iff_eq_or_transGen.1 down with
      | inl same => exact .inl same
      | inr down => exact .inr (.inr down)

/-- `while q do visit(q); q = parent[q] end` ends after visiting these nodes. -/
inductive Climb (parent : α → Option α) : Option α → List α → Prop
  | top : Climb parent none []
  | up {a : α} {l : List α} : Climb parent (parent a) l → Climb parent (some a) (a :: l)

/-- The same loop with a bound on its turns; `none` when the bound is met. -/
def climb (parent : α → Option α) : Nat → Option α → Option (List α)
  | _, none => some []
  | 0, some _ => none
  | fuel + 1, some a => (climb parent fuel (parent a)).map (a :: ·)

theorem climb_sound {fuel : Nat} {o : Option α} {l : List α}
    (h : climb parent fuel o = some l) : Climb parent o l := by
  induction fuel generalizing o l with
  | zero =>
      cases o with
      | none => cases h; exact .top
      | some a => cases h
  | succ fuel ih =>
      cases o with
      | none => cases h; exact .top
      | some a =>
          obtain ⟨l', h', rfl⟩ := Option.map_eq_some_iff.1 h
          exact .up (ih h')

theorem climb_complete {fuel : Nat} {o : Option α} {l : List α}
    (h : Climb parent o l) (enough : l.length ≤ fuel) :
    climb parent fuel o = some l := by
  induction h generalizing fuel with
  | top => cases fuel <;> rfl
  | up _ ih =>
      cases fuel with
      | zero => simp at enough
      | succ fuel =>
          have rest := @ih fuel (by simpa using enough)
          simp [climb, rest]

/-- `while q and not found(q) do q = parent[q] end` with a bound on its turns. -/
def seek (parent : α → Option α) (found : α → Bool) : Nat → Option α → Option (Option α)
  | _, none => some none
  | 0, some a => if found a then some (some a) else none
  | fuel + 1, some a => if found a then some (some a) else seek parent found fuel (parent a)

theorem seek_of_climb {found : α → Bool} {fuel : Nat} {o : Option α} {l : List α}
    (h : Climb parent o l) (enough : l.length ≤ fuel) :
    seek parent found fuel o = some (l.find? found) := by
  induction h generalizing fuel with
  | top => cases fuel <;> rfl
  | @up a l _ ih =>
      cases fuel with
      | zero => simp at enough
      | succ fuel =>
          rw [seek, List.find?_cons]
          cases hit : found a with
          | true => rfl
          | false => exact ih (by simpa using enough)

theorem Climb.unique {o : Option α} {l l' : List α} (h : Climb parent o l)
    (h' : Climb parent o l') : l = l' := by
  induction h generalizing l' with
  | top => cases h'; rfl
  | up _ ih => cases h' with | up h' => rw [ih h']

theorem Climb.mem_iff {l : List α} (h : Climb parent (some q) l) :
    p ∈ l ↔ p = q ∨ Above parent q p := by
  generalize ho : some q = o at h
  induction h generalizing q with
  | top => cases ho
  | @up a l rest ih =>
      cases ho
      rw [List.mem_cons, above_iff]
      cases hp : parent a with
      | none =>
          rw [hp] at rest
          cases rest
          simp
      | some r => simp [ih hp.symm, eq_comm]

theorem Climb.mem_above {l : List α} (h : Climb parent (parent a) l) :
    p ∈ l ↔ Above parent a p := by
  rw [above_iff]
  cases up : parent a with
  | none =>
      rw [up] at h
      cases h
      simp
  | some q =>
      rw [up] at h
      rw [h.mem_iff]
      simp [eq_comm]

private theorem Climb.suffix {o : Option α} {l : List α} (h : Climb parent o l)
    (mem : a ∈ l) : ∃ l', Climb parent (some a) l' ∧ l'.length ≤ l.length := by
  induction h with
  | top => cases mem
  | @up b l rest ih =>
      rcases List.mem_cons.1 mem with rfl | mem
      · exact ⟨_, .up rest, Nat.le_refl _⟩
      · obtain ⟨l', h', len⟩ := ih mem
        exact ⟨l', h', by simp; omega⟩

theorem Climb.nodup {o : Option α} {l : List α} (h : Climb parent o l) : l.Nodup := by
  induction h with
  | top => exact List.nodup_nil
  | @up a l rest ih =>
      refine List.nodup_cons.2 ⟨fun mem => ?_, ih⟩
      -- a second visit would climb the same chain again, in fewer turns
      obtain ⟨l', h', len⟩ := rest.suffix mem
      have same := h'.unique (.up rest)
      rw [same, List.length_cons] at len
      omega

private theorem Climb.inner {o : Option α} {l : List α} (h : Climb parent o l) :
    ∀ x ∈ l.dropLast, ∃ y, parent x = some y := by
  induction h with
  | top => simp
  | @up a l rest ih =>
      cases l with
      | nil => simp
      | cons b l =>
          intro x hx
          rcases List.mem_cons.1 (by simpa using hx) with rfl | hx
          · cases hp : parent x with
            | none => rw [hp] at rest; cases rest
            | some y => exact ⟨y, rfl⟩
          · exact ih x hx

/-- A chain visits, but for its last node, only nodes that have a parent. -/
theorem Climb.length_le {o : Option α} {l keys : List α} (h : Climb parent o l)
    (cover : ∀ x y, parent x = some y → x ∈ keys) : l.length ≤ keys.length + 1 := by
  have distinct : l.dropLast.Nodup := h.nodup.sublist (List.dropLast_sublist l)
  have sub : l.dropLast ⊆ keys := fun x hx =>
    let ⟨y, hy⟩ := h.inner x hx
    cover x y hy
  have len := (distinct.subperm sub).length_le
  rw [List.length_dropLast] at len
  omega

/-- Every chain of parents ends. -/
def Grounded (parent : α → Option α) : Prop :=
  ∀ a, ∃ l, Climb parent (parent a) l

theorem Grounded.climb (grounded : Grounded parent) (o : Option α) :
    ∃ l, Climb parent o l := by
  cases o with
  | none => exact ⟨[], .top⟩
  | some a =>
      obtain ⟨l, h⟩ := grounded a
      exact ⟨a :: l, .up h⟩

theorem Grounded.not_self (grounded : Grounded parent) : ¬ Above parent a a := by
  intro loop
  obtain ⟨l, h⟩ := grounded a
  exact (List.nodup_cons.1 (Climb.up h).nodup).1 (h.mem_above.2 loop)

/-- Every chain ends if each parent is smaller than its child. -/
theorem Grounded.of_smaller [LT α] [WellFoundedLT α]
    (smaller : ∀ a p, parent a = some p → p < a) : Grounded parent := by
  intro a
  induction a using WellFoundedLT.induction with
  | ind a ih =>
      cases up : parent a with
      | none => exact ⟨[], .top⟩
      | some p =>
          obtain ⟨l, rest⟩ := ih p (smaller a p up)
          exact ⟨p :: l, .up rest⟩

/-- Below a root every chain ends. -/
theorem Climb.of_above_root (root : parent p = none) (h : Above parent a p) :
    ∃ l, Climb parent (parent a) l := by
  induction h using Relation.TransGen.head_induction_on with
  | single up =>
      refine ⟨[p], ?_⟩
      rw [up]
      exact .up (root ▸ .top)
  | @head x y up _ ih =>
      obtain ⟨l, h⟩ := ih
      refine ⟨y :: l, ?_⟩
      rw [up]
      exact .up h

/-- Nobody stands below two children of one node. -/
theorem Grounded.siblings_apart {r : α} (grounded : Grounded parent) (hp : parent p = some r)
    (hq : parent q = some r) (below : a = p ∨ Above parent a p) (below' : a = q ∨ Above parent a q) :
    p = q := by
  have apart : ∀ x y, parent x = some r → parent y = some r → ¬ Above parent x y := by
    intro x y hx hy up
    obtain ⟨z, hz, rest⟩ := above_iff.1 up
    rw [hx] at hz
    cases hz
    cases rest with
    | inl same =>
        rw [← same] at hy
        exact grounded.not_self (.single hy)
    | inr higher => exact grounded.not_self (higher.tail hy)
  cases below with
  | inl same =>
      cases below' with
      | inl same' => exact same.symm.trans same'
      | inr up => exact absurd (same ▸ up) (apart p q hp hq)
  | inr up =>
      cases below' with
      | inl same' => exact absurd (same' ▸ up) (apart q p hq hp)
      | inr up' =>
          cases up.related up' with
          | inl same => exact same
          | inr one => exact absurd one (not_or.2 ⟨apart p q hp hq, apart q p hq hp⟩)

/-- The nodes of a chain stand above one another. -/
theorem Climb.pairwise {o : Option α} {l : List α} (h : Climb parent o l) :
    l.Pairwise (Above parent) := by
  induction h with
  | top => exact .nil
  | up rest ih => exact .cons (fun _ member => rest.mem_above.1 member) ih

/-- Of two nodes of a chain one is above the other. -/
theorem chain_related {l : List α} (chain : l.Pairwise (Above parent)) (ha : a ∈ l) (hp : p ∈ l)
    (other : a ≠ p) : Above parent a p ∨ Above parent p a := by
  induction chain with
  | nil => cases ha
  | cons higher _ ih =>
      cases List.mem_cons.1 ha with
      | inl first =>
          cases List.mem_cons.1 hp with
          | inl same => exact absurd (first.trans same.symm) other
          | inr later => exact .inl (first ▸ higher p later)
      | inr later =>
          cases List.mem_cons.1 hp with
          | inl first => exact .inr (first ▸ higher a later)
          | inr also => exact ih later also

/-- Taking parents away ends no chain later. -/
theorem Climb.prune {parent' : α → Option α} (fewer : ∀ x y, parent' x = some y → parent x = some y)
    {o : Option α} {l : List α} (h : Climb parent o l) : ∃ l', Climb parent' o l' := by
  induction h with
  | top => exact ⟨[], .top⟩
  | @up a l _ ih =>
      cases root : parent' a with
      | none => exact ⟨[a], .up (by rw [root]; exact .top)⟩
      | some y =>
          obtain ⟨l', h'⟩ := ih
          rw [fewer a y root, ← root] at h'
          exact ⟨a :: l', .up h'⟩

theorem Grounded.prune {parent' : α → Option α} (grounded : Grounded parent)
    (fewer : ∀ x y, parent' x = some y → parent x = some y) : Grounded parent' := by
  intro a
  cases root : parent' a with
  | none => exact ⟨[], .top⟩
  | some y =>
      obtain ⟨l, h⟩ := grounded a
      rw [fewer a y root] at h
      exact h.prune fewer

theorem Above.prune {parent' : α → Option α} (fewer : ∀ x y, parent' x = some y → parent x = some y)
    (h : Above parent' a p) : Above parent a p :=
  Relation.TransGen.mono fewer _ _ h

/-- A chain up to `p` is still there if nobody below `p` changed its parent. -/
theorem Above.keep {parent' : α → Option α} (same : ∀ x, Above parent x p → parent' x = parent x)
    (h : Above parent a p) : Above parent' a p := by
  induction h using Relation.TransGen.head_induction_on with
  | @single x up => exact .single ((same x (.single up)).trans up)
  | @head x y up rest ih => exact .head ((same x (.head up rest)).trans up) ih

section Edit
variable [DecidableEq α]

/-- Who is above whom after `g`, with all that is below it, was put under `q`. -/
theorem above_reparent (outside : ¬ Above parent q g) (other : q ≠ g)
    (h : Above (Function.update parent g (some q)) a p) :
    Above parent a p ∨ (a = g ∨ Above parent a g) ∧ (p = q ∨ Above parent q p) := by
  induction h using Relation.TransGen.head_induction_on with
  | @single x h =>
      by_cases hx : x = g
      · rw [hx, Function.update_self] at h
        exact .inr ⟨.inl hx, .inl (Option.some.inj h).symm⟩
      · rw [Function.update_of_ne hx] at h
        exact .inl (.single h)
  | @head x y h _ ih =>
      by_cases hx : x = g
      · rw [hx, Function.update_self] at h
        cases h
        refine .inr ⟨.inl hx, .inr ?_⟩
        cases ih with
        | inl above => exact above
        | inr through => exact absurd through.1 (not_or.2 ⟨other, outside⟩)
      · rw [Function.update_of_ne hx] at h
        cases ih with
        | inl above => exact .inl (.head h above)
        | inr through =>
            refine .inr ⟨.inr ?_, through.2⟩
            cases through.1 with
            | inl same => exact .single (same ▸ h)
            | inr above => exact .head h above

theorem Climb.avoid {o v : Option α} {l : List α} (h : Climb parent o l) (away : g ∉ l) :
    Climb (Function.update parent g v) o l := by
  induction h with
  | top => exact .top
  | @up a l _ ih =>
      rw [List.mem_cons, not_or] at away
      obtain ⟨here, later⟩ := away
      refine .up ?_
      rw [Function.update_of_ne (Ne.symm here)]
      exact ih later

theorem Grounded.reparent (grounded : Grounded parent) (outside : ¬ Above parent q g)
    (other : q ≠ g) : Grounded (Function.update parent g (some q)) := by
  obtain ⟨up, above⟩ := grounded.climb (some q)
  have away : g ∉ up := fun member => by
    cases above.mem_iff.1 member with
    | inl same => exact other same.symm
    | inr higher => exact outside higher
  have walk : ∀ o l, Climb parent o l → ∃ l', Climb (Function.update parent g (some q)) o l' := by
    intro o l h
    induction h with
    | top => exact ⟨[], .top⟩
    | @up a l _ ih =>
        by_cases ha : a = g
        · refine ⟨a :: up, .up ?_⟩
          rw [ha, Function.update_self]
          exact above.avoid away
        · obtain ⟨l', h'⟩ := ih
          refine ⟨a :: l', .up ?_⟩
          rw [Function.update_of_ne ha]
          exact h'
  intro a
  by_cases ha : a = g
  · rw [ha, Function.update_self]
    exact walk _ _ above
  · rw [Function.update_of_ne ha]
    obtain ⟨l, h⟩ := grounded a
    exact walk _ l h

/-- Nothing hangs below a leaf, so a change at it is invisible elsewhere. -/
theorem above_update_leaf (leaf : ∀ x, parent x ≠ some g) (v : Option α) (other : a ≠ g) :
    Above (Function.update parent g v) a p ↔ Above parent a p := by
  constructor
  · intro h
    induction h using Relation.TransGen.head_induction_on with
    | single h => exact .single (by simpa [Function.update_of_ne other] using h)
    | head h _ ih =>
        rw [Function.update_of_ne other] at h
        exact .head h (ih fun e => leaf _ (e ▸ h))
  · intro h
    induction h using Relation.TransGen.head_induction_on with
    | single h => exact .single (by simpa [Function.update_of_ne other] using h)
    | head h _ ih =>
        exact .head (by rwa [Function.update_of_ne other]) (ih fun e => leaf _ (e ▸ h))

theorem Climb.update_leaf {o : Option α} {l : List α} (h : Climb parent o l)
    (leaf : ∀ x, parent x ≠ some g) (v : Option α) (other : o ≠ some g) :
    Climb (Function.update parent g v) o l := by
  induction h with
  | top => exact .top
  | @up a l _ ih =>
      refine .up ?_
      rw [Function.update_of_ne fun e => other (by rw [e])]
      exact ih (leaf a)

theorem Grounded.update_leaf (grounded : Grounded parent) (leaf : ∀ x, parent x ≠ some g)
    {o : Option α} (other : o ≠ some g) : Grounded (Function.update parent g o) := by
  intro a
  by_cases ha : a = g
  · obtain ⟨l, h⟩ := grounded.climb o
    exact ⟨l, by simpa [ha] using h.update_leaf leaf o other⟩
  · obtain ⟨l, h⟩ := grounded a
    refine ⟨l, ?_⟩
    rw [Function.update_of_ne ha]
    exact h.update_leaf leaf o (leaf a)

/-- Take every child of `p` away from it. -/
def cut (parent : α → Option α) (p : α) : α → Option α :=
  fun x => if parent x = some p then none else parent x

theorem cut_ne (x : α) : cut parent p x ≠ some p := by
  unfold cut
  split <;> simp_all

theorem above_cut (root : parent p = none) :
    Above (cut parent p) a q ↔ Above parent a q ∧ q ≠ p := by
  constructor
  · intro h
    refine ⟨Relation.TransGen.mono (fun x y hxy => ?_) _ _ h,
      fun e => not_above_leaf cut_ne (e ▸ h)⟩
    unfold cut at hxy
    split at hxy
    · cases hxy
    · exact hxy
  · rintro ⟨h, other⟩
    induction h using Relation.TransGen.head_induction_on with
    | single h => exact .single (by simp [cut, h, other])
    | @head x y hxy rest ih =>
        have : y ≠ p := fun e => not_above_of_root (e ▸ root) rest
        exact .head (by simp [cut, hxy, this]) ih

theorem Climb.cut {o : Option α} {l : List α} (h : Climb parent o l) (p : α) :
    ∃ l', Climb (ParentForest.cut parent p) o l' := by
  induction h with
  | top => exact ⟨[], .top⟩
  | @up a l _ ih =>
      by_cases ha : parent a = some p
      · exact ⟨[a], .up (by simpa [ParentForest.cut, ha] using Climb.top)⟩
      · obtain ⟨l', h'⟩ := ih
        exact ⟨a :: l', .up (by simpa [ParentForest.cut, ha] using h')⟩

theorem Grounded.cut (grounded : Grounded parent) (p : α) :
    Grounded (cut parent p) := by
  intro a
  obtain ⟨l, h⟩ := grounded a
  by_cases ha : parent a = some p
  · exact ⟨[], by simpa [ParentForest.cut, ha] using Climb.top⟩
  · obtain ⟨l', h'⟩ := h.cut p
    exact ⟨l', by simpa [ParentForest.cut, ha] using h'⟩

end Edit

section Below
variable {nodes nodes' : Finset α}

open Classical in
/-- The nodes whose chain of parents passes through `p`. -/
noncomputable def below (parent : α → Option α) (nodes : Finset α) (p : α) : Finset α :=
  nodes.filter fun a => Above parent a p

theorem mem_below : a ∈ below parent nodes p ↔ a ∈ nodes ∧ Above parent a p := by
  simp [below]

/-- A member of the part below `p` has `p` on the chain that starts at its parent. -/
theorem mem_below_iff_climb {l : List α} (h : Climb parent (parent a) l) :
    a ∈ below parent nodes p ↔ a ∈ nodes ∧ p ∈ l := by
  rw [mem_below, above_iff]
  cases hq : parent a with
  | none =>
      rw [hq] at h
      cases h
      simp
  | some q =>
      rw [hq] at h
      simp [h.mem_iff, eq_comm]

theorem below_ssubset (grounded : Grounded parent) (node : a ∈ nodes) (up : parent a = some p) :
    below parent nodes a ⊂ below parent nodes p := by
  refine Finset.ssubset_iff_subset_ne.2 ⟨fun x member => ?_, fun same => ?_⟩
  · rw [mem_below] at member ⊢
    exact ⟨member.1, member.2.tail up⟩
  · have here : a ∈ below parent nodes p := mem_below.2 ⟨node, .single up⟩
    rw [← same, mem_below] at here
    exact grounded.not_self here.2

/-- The part below `p` is made up of its children and of the parts below them. -/
theorem below_children [DecidableEq α] {children : Finset α}
    (listed : ∀ m, m ∈ children ↔ parent m = some p) (known : ∀ m ∈ children, m ∈ nodes) :
    below parent nodes p = children.biUnion fun m => insert m (below parent nodes m) := by
  ext a
  simp only [mem_below, Finset.mem_biUnion, Finset.mem_insert, @above_tail _ _ _ p]
  constructor
  · intro h
    obtain ⟨node, m, up, here⟩ := h
    exact ⟨m, (listed m).2 up, here.imp id fun higher => ⟨node, higher⟩⟩
  · intro h
    obtain ⟨m, child, here⟩ := h
    cases here with
    | inl same => exact ⟨same ▸ known m child, m, (listed m).1 child, .inl same⟩
    | inr lower => exact ⟨lower.1, m, (listed m).1 child, .inr lower.2⟩

/-- The sum of a quantity over the part below `p`. -/
noncomputable def total (parent : α → Option α) (nodes : Finset α) (f : α → Int)
    (p : α) : Int :=
  ∑ a ∈ below parent nodes p, f a

theorem total_children [DecidableEq α] {children : Finset α} (grounded : Grounded parent)
    (listed : ∀ m, m ∈ children ↔ parent m = some p) (known : ∀ m ∈ children, m ∈ nodes)
    (f : α → Int) :
    total parent nodes f p = ∑ m ∈ children, (f m + total parent nodes f m) := by
  have apart : ∀ m ∈ children, ∀ m' ∈ children, m ≠ m' →
      Disjoint (insert m (below parent nodes m)) (insert m' (below parent nodes m')) := by
    intro m child m' child' other
    refine Finset.disjoint_left.2 fun a here here' => other ?_
    simp only [Finset.mem_insert, mem_below] at here here'
    exact grounded.siblings_apart ((listed m).1 child) ((listed m').1 child')
      (here.imp id And.right) (here'.imp id And.right)
  rw [total, below_children listed known, Finset.sum_biUnion apart]
  refine Finset.sum_congr rfl fun m _ => ?_
  rw [Finset.sum_insert fun loop => grounded.not_self (mem_below.1 loop).2]
  rfl

theorem total_one (p : α) :
    total parent nodes (fun _ => 1) p = (below parent nodes p).card := by
  simp [total]

theorem total_congr {f f' : α → Int} (same : ∀ a ∈ nodes, f' a = f a) (p : α) :
    total parent nodes f' p = total parent nodes f p :=
  Finset.sum_congr rfl fun a ha => same a (mem_below.1 ha).1

variable [DecidableEq α]

/-- A new leaf is under exactly the nodes on the chain it is hung on. -/
theorem below_attach {o : Option α} {l : List α} (leaf : ∀ x, parent x ≠ some g)
    (root : parent g = none) (other : o ≠ some g) (h : Climb parent o l) (p : α) :
    below (Function.update parent g o) (insert g nodes) p =
      if p ∈ l then insert g (below parent nodes p) else below parent nodes p := by
  have new : Above (Function.update parent g o) g p ↔ p ∈ l := by
    rw [above_iff]
    cases o with
    | none => cases h; simp
    | some q =>
        have hq : q ≠ g := fun e => other (by rw [e])
        simp [above_update_leaf leaf _ hq, h.mem_iff, eq_comm]
  have old : ¬ Above parent g p := not_above_of_root root
  ext a
  by_cases ha : a = g
  · subst ha
    split <;> simp_all [mem_below]
  · split <;> simp [mem_below, ha, above_update_leaf leaf _ ha]

/-- A leaf taken off disappears from under every node, whether or not it stays in
the node set as a root of its own. -/
theorem below_detach (leaf : ∀ x, parent x ≠ some g) (kept : nodes.erase g ⊆ nodes')
    (sub : nodes' ⊆ nodes) (p : α) :
    below (Function.update parent g none) nodes' p = (below parent nodes p).erase g := by
  ext a
  by_cases ha : a = g
  · subst ha
    have : ¬ Above (Function.update parent a none) a p := not_above_of_root (by simp)
    simp [mem_below, this]
  · have : a ∈ nodes' ↔ a ∈ nodes :=
      ⟨fun h => sub h, fun h => kept (Finset.mem_erase.2 ⟨ha, h⟩)⟩
    simp [mem_below, ha, this, above_update_leaf leaf _ ha]

theorem below_cut (root : parent q = none) (p : α) :
    below (cut parent q) nodes p = if p = q then ∅ else below parent nodes p := by
  ext a
  by_cases hp : p = q <;> simp [mem_below, above_cut root, hp]

theorem total_attach {f : α → Int} {o : Option α} {l : List α}
    (leaf : ∀ x, parent x ≠ some g) (root : parent g = none) (other : o ≠ some g)
    (h : Climb parent o l) (p : α) :
    total (Function.update parent g o) (insert g nodes) f p =
      total parent nodes f p + if p ∈ l then f g else 0 := by
  have fresh : g ∉ below parent nodes p := fun hg =>
    not_above_of_root root (mem_below.1 hg).2
  simp only [total, below_attach leaf root other h]
  split
  · rw [Finset.sum_insert fresh, add_comm]
  · simp

theorem total_detach {f : α → Int} {l : List α} (leaf : ∀ x, parent x ≠ some g)
    (kept : nodes.erase g ⊆ nodes') (sub : nodes' ⊆ nodes) (mem : g ∈ nodes)
    (h : Climb parent (parent g) l) (p : α) :
    total (Function.update parent g none) nodes' f p =
      total parent nodes f p - if p ∈ l then f g else 0 := by
  simp only [total, below_detach leaf kept sub]
  by_cases hp : p ∈ l
  · have hg : g ∈ below parent nodes p := (mem_below_iff_climb h).2 ⟨mem, hp⟩
    rw [if_pos hp, ← Finset.sum_erase_add _ _ hg, add_sub_cancel_right]
  · have hg : g ∉ below parent nodes p := fun hg => hp ((mem_below_iff_climb h).1 hg).2
    rw [if_neg hp, Finset.erase_eq_of_notMem hg, sub_zero]

theorem total_change {f f' : α → Int} {l : List α} {d : Int} (mem : g ∈ nodes)
    (h : Climb parent (parent g) l) (at_g : f' g = f g + d)
    (elsewhere : ∀ a ≠ g, f' a = f a) (p : α) :
    total parent nodes f' p = total parent nodes f p + if p ∈ l then d else 0 := by
  have split : ∀ s : Finset α,
      ∑ a ∈ s, f' a = ∑ a ∈ s, f a + if g ∈ s then d else 0 := by
    intro s
    rw [← Finset.sum_ite_eq s g fun _ => d, ← Finset.sum_add_distrib]
    refine Finset.sum_congr rfl fun a _ => ?_
    by_cases ha : a = g
    · simp [ha, at_g]
    · simp [Ne.symm ha, elsewhere a ha]
  simp only [total, split, mem_below_iff_climb h, mem, true_and]

end Below
end ParentForest
