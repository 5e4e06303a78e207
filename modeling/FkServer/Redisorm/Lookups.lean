import FkServer.Redisorm.Redismetadata

/-!
What lookups leave of the tree. Every declared model stays where it is, and a model that grows
beside declared ones is a text that none of them matches; but it is a pattern from then on,
and may match texts that a declared model is for.
-/
namespace FkServer.Redisorm

variable {F T : Type} {lua : Runtime F T} {s : Lua F T}

theorem firstModel_none {list : List (Lua F T)} (none : firstModel lua s list = some none) :
    ∀ m ∈ list, matchesModel lua s m = some false := by
  induction list with
  | nil => exact fun _ mem => absurd mem List.not_mem_nil
  | cons model rest ih =>
      rw [firstModel] at none
      intro m mem
      split at none
      · cases none
      · cases none
      · rename_i apart
        rcases List.mem_cons.1 mem with rfl | mem
        · exact apart
        · exact ih none m mem

theorem firstModel_unique {list : List (Lua F T)} {model : Lua F T} (mem : model ∈ list)
    (found : matchesModel lua s model = some true)
    (others : ∀ g ∈ list, g ≠ model → matchesModel lua s g = some false) :
    firstModel lua s list = some (some model) := by
  induction list with
  | nil => cases mem
  | cons first rest ih =>
      rw [firstModel]
      by_cases here : first = model
      · rw [here, found]
      · rw [others first List.mem_cons_self here]
        refine ih ?_ fun g inside => others g (List.mem_cons_of_mem _ inside)
        exact (List.mem_cons.1 mem).resolve_left (Ne.symm here)

variable [DecidableEq F] [DecidableEq T] {t t' : Tree F T} {n n' : At F T} {p : List String}
  {m : String} {pairs : Path F T → List (Lua F T) → List (Lua F T)}

/-- `pairs` meets every son once. -/
def Enumerates (pairs : Path F T → List (Lua F T) → List (Lua F T)) : Prop :=
  ∀ p list, (pairs p list).Perm list

/-- The tree and the place a run of lookups has come to from a tree, in any order of `pairs`; a
new key begins at the root. -/
inductive Reaches (lua : Runtime F T) (from_tree : Tree F T) : Tree F T → At F T → Prop
  | start : Reaches lua from_tree from_tree (.node [])
  | again {t : Tree F T} {n : At F T} :
      Reaches lua from_tree t n → Reaches lua from_tree t (.node [])
  | look {t t' : Tree F T} {n n' : At F T} {s : Lua F T}
      {pairs : Path F T → List (Lua F T) → List (Lua F T)} :
      Reaches lua from_tree t n → Enumerates pairs →
      t.index lua pairs n s = some (n', t') → Reaches lua from_tree t' n'

/-- What is true of the tree after any lookups. -/
structure Grown (lua : Runtime F T) (t : Tree F T) : Prop where
  metas : t.metas = declared.metas
  kept : ∀ p, ∀ m ∈ declared.sons p, m ∈ t.sons p
  apart : ∀ p, ∀ g ∈ t.sons p, g ∉ declared.sons p →
    ∀ m ∈ declared.sons p, matchesModel lua g m = some false

omit [DecidableEq F] [DecidableEq T] in
theorem grown_declared : Grown lua (declared : Tree F T) where
  metas := rfl
  kept := fun _ _ mem => mem
  apart := fun _ _ mem other => absurd mem other

theorem Grown.addSon (grown : Grown lua t) {q : Path F T}
    (none : ∀ m ∈ t.sons q, matchesModel lua s m = some false) : Grown lua (t.addSon q s) where
  metas := grown.metas
  kept := fun r m mem => Tree.mem_addSon.2 (.inl (grown.kept r m mem))
  apart := by
    intro r g mem other m declared_
    rcases Tree.mem_addSon.1 mem with mem | ⟨rfl, rfl⟩
    · exact grown.apart r g mem other m declared_
    · exact none m (grown.kept r m declared_)

theorem Grown.index (grown : Grown lua t) (order : Enumerates pairs)
    (found : t.index lua pairs n s = some (n', t')) : Grown lua t' := by
  cases n with
  | node q =>
      rw [Tree.index] at found
      split_ifs at found with codec sons parent
      · cases found
        exact grown
      · cases found
        exact grown
      · cases found
        exact grown
      · rw [Tree.getSonModelNode] at found
        split_ifs at found with nothing
        · cases found
          exact grown
        · split at found
          · cases found
          · cases found
            exact grown
          · rename_i none
            cases found
            apply grown.addSon
            rw [Tree.findSon] at none
            split_ifs at none with raw
            · cases none
            · have no_model := firstModel_none none
              exact fun m mem => no_model m ((order q (t.sons q)).mem_iff.2 mem)
  | sons q =>
      obtain ⟨out, _, same⟩ := Option.map_eq_some_iff.1 found
      cases out
      all_goals
        cases same
        exact grown
  | codec =>
      cases found
      exact grown
  | func => cases found
  | nil => cases found

theorem grown_of_reaches (reached : Reaches lua declared t n) : Grown lua t := by
  induction reached with
  | start => exact grown_declared
  | again _ ih => exact ih
  | look _ order found ih => exact ih.index order found

theorem Grown.rawMeta_declared (grown : Grown lua t) {kind : MetaType}
    (known : declaredMeta p = some kind) : t.rawMeta (.node (place p)) = some (some kind) := by
  rw [Tree.rawMeta, grown.metas, declared_metas, known]

/-! ### Where a declared model is found -/

/-- A text or number at a declared place that no model grown there catches, and that is not the
name of a node's own field. -/
structure Clear (lua : Runtime F T) (t : Tree F T) (p : List String) (s : Lua F T) : Prop where
  own : tostring lua s ≠ "__son" ∧ tostring lua s ≠ "__parent" ∧
    (tostring lua s = "meta" → declaredMeta p = none)
  free : s ∈ (declaredSons p).map .text ∨ ∀ g ∈ t.sons (place p),
    g ∉ (declaredSons p).map Lua.text → matchesModel lua s g = some false

section Found
variable (grown : Grown lua t) (order : Enumerates pairs) (mem : m ∈ declaredSons p)
  (found : LuaPattern.whole (tostring lua s) m = some true) (clear : Clear lua t p s)
include grown order mem found clear

theorem findSon_declared : t.findSon lua pairs (place p) s = some (some (.text m)) := by
  have kept : .text m ∈ t.sons (place p) :=
    grown.kept _ _ (by simpa using mem)
  rw [Tree.findSon]
  split_ifs with raw
  · -- a text that is a model itself is this one
    by_cases listed : s ∈ (declaredSons p).map .text
    · obtain ⟨m', mem', rfl⟩ := List.mem_map.1 listed
      by_cases same : m = m'
      · rw [same]
      · have other := apart_of_ne mem mem' same
        simp only [apart, Bool.and_eq_true, beq_iff_eq] at other
        rw [tostring, other.2] at found
        cases found
    · have missed := grown.apart _ s raw (by simpa using listed) (.text m) (by simpa using mem)
      rw [matchesModel, tostring, found] at missed
      cases missed
  · apply firstModel_unique ((order _ _).mem_iff.2 kept) found
    intro g inside other
    have inside := (order _ _).mem_iff.1 inside
    by_cases listed : g ∈ (declaredSons p).map .text
    · obtain ⟨m', mem', rfl⟩ := List.mem_map.1 listed
      have ne : m ≠ m' := fun same => other (congrArg _ same.symm)
      exact declaredSons_apart mem mem' ne found
    · rcases clear.free with own | free
      · exact absurd (grown.kept _ s (by simpa using own)) raw
      · exact free g inside listed

theorem index_declared (some_key : s ≠ .bool false) :
    t.index lua pairs (.node (place p)) s = some (.node (place (p ++ [m])), t) := by
  have at_meta : ¬ (s = .text "meta" ∧ (t.metas (place p)).isSome) := by
    rintro ⟨rfl, some_codec⟩
    rw [grown.metas, declared_metas, clear.own.2.2 rfl] at some_codec
    cases some_codec
  have at_sons : ¬ (s = .text "__son" ∧ t.sons (place p) ≠ []) := by
    rintro ⟨rfl, _⟩
    exact clear.own.1 rfl
  have at_parent : ¬ (s = .text "__parent" ∧ (place p : Path F T) ≠ []) := by
    rintro ⟨rfl, _⟩
    exact clear.own.2.1 rfl
  rw [Tree.index, if_neg at_meta, if_neg at_sons, if_neg at_parent, Tree.getSonModelNode,
    if_neg some_key, findSon_declared grown order mem found clear]
  dsimp only
  rw [place_append]

end Found

/-- The key names a record of the declared model. -/
def Instantiates (key : String) (model : List String) : Prop :=
  List.Forall₂ (fun s m => LuaPattern.whole s m = some true) (segments key) model

/-- Nothing that grew on the way to the model catches a part of the key. -/
def ClearWay (lua : Runtime F T) (t : Tree F T) (key : String) (model : List String) : Prop :=
  ∀ i s, (segments key)[i]? = some s → Clear lua t (model.take i) (.text s)

theorem metaMatcher_declared {key : String} {model : List String} {kind : MetaType}
    (grown : Grown lua t) (order : Enumerates pairs) (known : declaredMeta model = some kind)
    (named : Instantiates key model) (clear : ClearWay lua t key model) :
    metaMatcher lua pairs t key = some (.node (place model), t) := by
  have from_base : ∀ (parts rest base : List String),
      List.Forall₂ (fun s m => LuaPattern.whole s m = some true) parts rest →
      (tree.find (base ++ rest)).isSome →
      (∀ i s, parts[i]? = some s → Clear lua t (base ++ rest.take i) (.text s)) →
      t.walk lua pairs (.node (place base)) (parts.map .text) =
        some (.node (place (base ++ rest)), t) := by
    intro parts rest base named
    induction named generalizing base with
    | nil =>
        intro _ _
        rw [List.map_nil, Tree.walk, List.append_nil]
    | @cons s m parts rest found _ ih =>
        intro known clear
        have split : base ++ m :: rest = (base ++ [m]) ++ rest := List.append_cons base m rest
        rw [split] at known ⊢
        have son := mem_declaredSons_of_find (PathTree.find_of_prefix (List.prefix_append _ _) known)
        have first : Clear lua t base (.text s) := by
          have here := clear 0 s rfl
          rwa [List.take_zero, List.append_nil] at here
        have step := index_declared (s := .text s) grown order son found first (by simp)
        rw [List.map_cons, Tree.walk, step]
        refine ih (base ++ [m]) known fun i s' here => ?_
        have later := clear (i + 1) s' here
        rwa [List.take_succ_cons, List.append_cons] at later
  exact from_base _ model [] named (find_of_declaredMeta known) clear

end FkServer.Redisorm
