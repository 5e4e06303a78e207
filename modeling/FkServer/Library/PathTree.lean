import Mathlib.Data.List.Nodup
import Mathlib.Data.List.Infix

/-!
Trees whose nodes are named by paths: a value at every node and sons by name. A value is put at
the end of a path, and the nodes on the way that do not exist are made with a blank value.
-/
inductive PathTree (Name Value : Type)
  | node (value : Value) (sons : List (Name × PathTree Name Value))

namespace PathTree

variable {Name Value α : Type}

def value : PathTree Name Value → Value
  | node value _ => value

def sons : PathTree Name Value → List (Name × PathTree Name Value)
  | node _ sons => sons

/-- The values in the tree, each given by `f`, a node before its sons. -/
def flatten (f : Value → List α) : PathTree Name Value → List α
  | node value sons => f value ++ flattenSons sons
where
  flattenSons : List (Name × PathTree Name Value) → List α
    | [] => []
    | (_, son) :: rest => flatten f son ++ flattenSons rest

/-- Every node's path and value, a node before its sons. -/
def entries : PathTree Name Value → List (List Name × Value)
  | node value sons => ([], value) :: entriesSons sons
where
  entriesSons : List (Name × PathTree Name Value) → List (List Name × Value)
    | [] => []
    | (name, son) :: rest =>
        (entries son).map (fun e => (name :: e.1, e.2)) ++ entriesSons rest

theorem induct {P : PathTree Name Value → Prop}
    (step : ∀ value sons, (∀ son ∈ sons, P son.2) → P (node value sons)) : ∀ t, P t
  | .node value sons => step value sons fun son _ => induct step son.2
termination_by t => sizeOf t
decreasing_by
  have inside := List.sizeOf_lt_of_mem ‹son ∈ sons›
  obtain ⟨name, t⟩ := son
  simp only [node.sizeOf_spec, Prod.mk.sizeOf_spec] at inside ⊢
  omega

theorem flattenSons_eq (f : Value → List α) (sons : List (Name × PathTree Name Value)) :
    flatten.flattenSons f sons = sons.flatMap fun son => flatten f son.2 := by
  induction sons with
  | nil => rfl
  | cons son rest ih => simp [flatten.flattenSons, ih]

theorem entriesSons_eq (sons : List (Name × PathTree Name Value)) :
    entries.entriesSons sons =
      sons.flatMap fun son => (entries son.2).map fun e => (son.1 :: e.1, e.2) := by
  induction sons with
  | nil => rfl
  | cons son rest ih => simp [entries.entriesSons, ih]

theorem entries_eq (t : PathTree Name Value) :
    t.entries = ([], t.value) ::
      t.sons.flatMap fun son => son.2.entries.map fun e => (son.1 :: e.1, e.2) := by
  cases t
  rw [entries, entriesSons_eq]
  rfl

theorem flatten_eq_entries (f : Value → List α) (t : PathTree Name Value) :
    t.flatten f = t.entries.flatMap fun e => f e.2 := by
  induction t using induct with
  | step value sons ih =>
      have sonsToo : sons.flatMap (fun son => flatten f son.2) =
          (entries.entriesSons sons).flatMap fun e => f e.2 := by
        rw [entriesSons_eq, List.flatMap_assoc]
        refine List.flatMap_congr fun son inside => ?_
        rw [ih son inside, List.flatMap_map]
      rw [flatten, flattenSons_eq, entries, List.flatMap_cons, sonsToo]

section Names

variable [DecidableEq Name]

/-- The son with this name. -/
def son (name : Name) : List (Name × PathTree Name Value) → Option (PathTree Name Value)
  | [] => none
  | (other, t) :: rest => if other = name then some t else son name rest

/-- The node at the end of a path. -/
def find : List Name → PathTree Name Value → Option (PathTree Name Value)
  | [], t => some t
  | name :: path, t => (son name t.sons).bind (find path)

def valueAt (path : List Name) (t : PathTree Name Value) : Option Value := (t.find path).map value

variable (blank : Value)

/-- Changes the son with this name, which is made if there is none. -/
def setSon (name : Name) (f : PathTree Name Value → PathTree Name Value) :
    List (Name × PathTree Name Value) → List (Name × PathTree Name Value)
  | [] => [(name, f (node blank []))]
  | (other, t) :: rest =>
      if other = name then (other, f t) :: rest else (other, t) :: setSon name f rest

def insert : List Name → Value → PathTree Name Value → PathTree Name Value
  | [], value, t => node value t.sons
  | name :: path, value, t => node t.value (setSon blank name (insert path value) t.sons)

variable {blank}

@[simp] theorem find_nil (t : PathTree Name Value) : t.find [] = some t := rfl

theorem find_append (p q : List Name) (t : PathTree Name Value) :
    t.find (p ++ q) = (t.find p).bind (find q) := by
  induction p generalizing t with
  | nil => rfl
  | cons name p ih =>
      have below : find (p ++ q) = fun s : PathTree Name Value => (find p s).bind (find q) :=
        funext ih
      rw [List.cons_append, find, find, Option.bind_assoc, below]

theorem valueAt_cons (name : Name) (p : List Name) (t : PathTree Name Value) :
    t.valueAt (name :: p) = (son name t.sons).bind (valueAt p) := by
  cases had : son name t.sons <;> simp [valueAt, find, had]

theorem find_of_prefix {p q : List Name} {t : PathTree Name Value} (before : p <+: q)
    (found : (t.find q).isSome) : (t.find p).isSome := by
  obtain ⟨r, rfl⟩ := before
  rw [find_append] at found
  exact Option.isSome_of_isSome_bind found

theorem son_setSon (name other : Name) (f : PathTree Name Value → PathTree Name Value)
    (sons : List (Name × PathTree Name Value)) :
    son other (setSon blank name f sons) =
      if other = name then some (f ((son name sons).getD (node blank []))) else son other sons := by
  induction sons with
  | nil => by_cases same : name = other <;> simp_all [setSon, son, eq_comm]
  | cons first rest ih =>
      obtain ⟨key, t⟩ := first
      by_cases here : key = name
      · by_cases same : other = name <;> simp_all [setSon, son, eq_comm]
      · by_cases same : other = name
        · simp_all [setSon, son]
        · simp only [setSon, son, here, if_false, ih, same]

/-- The value is at the end of the path, and what is new on the way is blank. -/
theorem valueAt_insert (p q : List Name) (v : Value) (t : PathTree Name Value) :
    (t.insert blank q v).valueAt p =
      if p = q then some v else if p <+: q then some ((t.valueAt p).getD blank) else t.valueAt p := by
  induction q generalizing p t with
  | nil =>
      cases p with
      | nil => rfl
      | cons name p => simp [insert, valueAt, find, sons]
  | cons name q ih =>
      cases p with
      | nil => simp [insert, valueAt, value]
      | cons other p =>
          have fresh : (node blank [] : PathTree Name Value).valueAt p =
              if p = [] then some blank else none := by
            cases p <;> rfl
          rw [valueAt_cons, valueAt_cons, insert, sons, son_setSon]
          by_cases same : other = name
          · subst same
            rw [if_pos rfl, Option.bind_some, ih]
            cases had : son other t.sons with
            | some s => simp
            | none =>
                rw [Option.getD_none, fresh]
                by_cases start : p = [] <;> simp [start]
          · simp [same]

/-- A node has no two sons of one name. -/
def Proper (t : PathTree Name Value) : Prop :=
  ∀ p n, t.find p = some n → (n.sons.map Prod.fst).Nodup

theorem son_eq_some {sons : List (Name × PathTree Name Value)} {name : Name}
    {t : PathTree Name Value} (distinct : (sons.map Prod.fst).Nodup) :
    son name sons = some t ↔ (name, t) ∈ sons := by
  induction sons with
  | nil => simp [son]
  | cons first rest ih =>
      obtain ⟨key, s⟩ := first
      obtain ⟨new, distinct⟩ := List.nodup_cons.1 distinct
      by_cases here : key = name
      · subst here
        have out : (key, t) ∉ rest := fun inside => new (List.mem_map.2 ⟨_, inside, rfl⟩)
        simp [son, out, eq_comm]
      · have other : ¬ (name, t) = (key, s) := fun same => here (Prod.mk.inj same).1.symm
        rw [son, if_neg here, ih distinct, List.mem_cons, or_iff_right other]

theorem Proper.find {t n : PathTree Name Value} (proper : t.Proper) {p : List Name}
    (found : t.find p = some n) : n.Proper := by
  intro q m found'
  refine proper (p ++ q) m ?_
  rw [find_append, found, Option.bind_some, found']

theorem Proper.mem {t s : PathTree Name Value} (proper : t.Proper) {name : Name}
    (inside : (name, s) ∈ t.sons) : s.Proper := by
  refine proper.find (p := [name]) ?_
  rw [PathTree.find, (son_eq_some (proper [] t rfl)).2 inside]
  rfl

theorem proper_blank (v : Value) : (node v [] : PathTree Name Value).Proper := by
  intro p n found
  cases p with
  | nil =>
      cases found
      exact List.nodup_nil
  | cons name p => cases found

theorem names_setSon (name : Name) (f : PathTree Name Value → PathTree Name Value)
    (sons : List (Name × PathTree Name Value)) :
    (setSon blank name f sons).map Prod.fst =
      sons.map Prod.fst ++ if name ∈ sons.map Prod.fst then [] else [name] := by
  induction sons with
  | nil => rfl
  | cons first rest ih =>
      obtain ⟨key, t⟩ := first
      by_cases here : key = name
      · simp [setSon, here]
      · simp only [setSon, here, if_false, List.map_cons, ih, List.mem_cons, Ne.symm here,
          false_or, List.cons_append]

theorem proper_insert {t : PathTree Name Value} (proper : t.Proper) (q : List Name) (v : Value) :
    (t.insert blank q v).Proper := by
  induction q generalizing t with
  | nil =>
      intro p n found
      cases p with
      | nil =>
          cases found
          exact proper [] t rfl
      | cons name p => exact proper (name :: p) n found
  | cons name q ih =>
      intro p n found
      cases p with
      | nil =>
          cases found
          have distinct := proper [] t rfl
          rw [insert, sons, names_setSon]
          split
          · rwa [List.append_nil]
          · rename_i new
            rw [List.nodup_append_comm]
            exact List.nodup_cons.2 ⟨new, distinct⟩
      | cons other p =>
          rw [PathTree.find, insert, sons, son_setSon] at found
          split at found
          · refine ih ?_ p n found
            cases had : son name t.sons with
            | none => exact proper_blank blank
            | some s => exact proper.mem ((son_eq_some (proper [] t rfl)).1 had)
          · exact proper (other :: p) n found

theorem mem_entries {t : PathTree Name Value} (proper : t.Proper) {p : List Name} {v : Value} :
    (p, v) ∈ t.entries ↔ t.valueAt p = some v := by
  induction p generalizing t with
  | nil => simp [entries_eq t, valueAt, eq_comm]
  | cons name p ih =>
      have distinct := proper [] t rfl
      rw [entries_eq t, valueAt_cons]
      constructor
      · intro inside
        simp only [List.mem_cons, Prod.mk.injEq, reduceCtorEq, false_and, false_or,
          List.mem_flatMap, List.mem_map, List.cons.injEq] at inside
        obtain ⟨⟨name, s⟩, inside, ⟨q, w⟩, below, ⟨rfl, rfl⟩, rfl⟩ := inside
        rw [(son_eq_some distinct).2 inside, Option.bind_some]
        exact (ih (proper.mem inside)).1 below
      · intro found
        obtain ⟨s, had, found⟩ := Option.bind_eq_some_iff.1 found
        have inside := (son_eq_some distinct).1 had
        refine List.mem_cons_of_mem _ (List.mem_flatMap.2 ⟨(name, s), inside, ?_⟩)
        exact List.mem_map.2 ⟨(p, v), (ih (proper.mem inside)).2 found, rfl⟩

/-- The nodes below the root. -/
theorem mem_tail_entries {t : PathTree Name Value} (proper : t.Proper) {p : List Name} {v : Value} :
    (p, v) ∈ t.entries.tail ↔ p ≠ [] ∧ t.valueAt p = some v := by
  have whole := mem_entries proper (p := p) (v := v)
  rw [entries_eq t, List.mem_cons] at whole
  rw [entries_eq t, List.tail_cons, ← whole]
  cases p with
  | nil => simp
  | cons name p => simp

/-- No path is listed twice. -/
theorem nodup_entries {t : PathTree Name Value} (proper : t.Proper) :
    (t.entries.map Prod.fst).Nodup := by
  induction t using induct with
  | step value sons ih =>
      have distinct : (sons.map Prod.fst).Nodup := proper [] _ rfl
      have below : ∀ son ∈ sons, (son.2.entries.map Prod.fst).Nodup :=
        fun son inside => ih son inside (proper.mem inside)
      rw [entries_eq, List.map_cons, List.nodup_cons]
      refine ⟨by simp, ?_⟩
      rw [List.map_flatMap, List.nodup_flatMap]
      constructor
      · intro son inside
        have mapped := (below son inside).map (List.cons_injective (a := son.1))
        simpa [List.map_map, Function.comp_def] using mapped
      · refine (List.pairwise_map.1 distinct).imp ?_
        intro son other apart p inSon inOther
        simp only [List.map_map, List.mem_map, Function.comp_apply] at inSon inOther
        obtain ⟨_, _, rfl⟩ := inSon
        obtain ⟨_, _, same⟩ := inOther
        exact apart (List.cons.inj same).1.symm

end Names

end PathTree
