import FkServer.Library.PathTree
import FkServer.Library.Runs
import Mathlib.Data.List.Flatten
import Mathlib.Logic.Function.Basic

/-!
The routing of `channeld.lua`: the subscribed ids are kept in the flat table `address` and, cut
into components, in a tree of nodes.
-/
namespace FkServer.Channeld

abbrev Text := List Char

/-- A handle of this process, or the name of a service of another one. -/
inductive Addr
  | handle (n : Nat)
  | name (s : Text)
deriving DecidableEq

/-- `addr` and `global`, which `put` sets together. -/
structure Conf where
  addr : Addr
  global : Option Text
deriving DecidableEq

/-- A node; without a `Conf` neither field is set. An empty list of sons is a `__son` that is nil:
a table of sons is made with an entry, and no entry leaves it. -/
abbrev Node := PathTree Text (Option Conf)

def createnode : Node := .node none []

/-- `string.gmatch(id, "[^%:|%.]+")` -/
def components (id : Text) : List Text :=
  (id.splitOnP fun c => c == ':' || c == '|' || c == '.').filter (· ≠ [])

/-! ### `nodemetaindex` -/

/-- Whom `broadcast` sends to. -/
def broadcast (n : Node) : List Addr := n.flatten fun conf => (conf.map Conf.addr).toList

/-- `nodemetaindex.del`, which fails without a table of sons. -/
def del (n : Node) (model : Text) : Option Node :=
  if n.sons = [] then none
  else if (PathTree.son model n.sons).isSome then
    some (.node n.value (n.sons.eraseP fun son => son.1 = model))
  else if model = ['*'] then some (.node n.value [])
  else some n

/-- What a match finds: a node, or the sons of one. -/
inductive Found
  | node (n : Node)
  | batch (nodes : List (Text × Node))

/-- `match_son`, with the number drawn by `table.choice`. A batch has no `__son`. -/
def matchSon (random : Nat) (found : Found) (model : Text) : Option Found :=
  match found with
  | .batch _ => none
  | .node n =>
      match PathTree.son model n.sons with
      | some son => some (.node son)
      | none =>
          if n.sons = [] then none
          else if model = ['*'] then some (.batch n.sons)
          else if model = ['?'] then
            (n.sons[random % n.sons.length]?).map fun son => .node son.2
          else none

/-- `nodemetaindex.match` -/
def matchId (random : Nat) (n : Node) (id : Text) : Option Found :=
  (components id).foldlM (matchSon random) (.node n)

/-- Whom `send` sends to; a node without an address fails. -/
def Found.send : Found → Option (List Addr)
  | .node n => n.value.map fun conf => [conf.addr]
  | .batch nodes => some (nodes.flatMap fun son => broadcast son.2)

/-! ### The tables -/

structure State where
  root : Node
  address : Text → Option Conf
  selfprovider : Option Text

def start (s : State) : Prop := s.root = createnode ∧ ∀ id, s.address id = none

/-- `handle:match("[^%@]+")` -/
def firstName (s : Text) : Option Text :=
  match (s.dropWhile (· == '@')).takeWhile (· != '@') with
  | [] => none
  | name => some name

/-- Whether `addr:match("([^%@]+)(@.+)")` finds a node and a name there. -/
def namesNode (s : Text) : Bool :=
  decide (1 < ((s.dropWhile (· == '@')).dropWhile (· != '@')).length)

/-- What a service is subscribed with. The services that subscribe write a `string` as the name of
the node, an `@` and the id; without the node `call` and `send` would fail. -/
inductive Handle
  | number (n : Nat)
  | string (s : Text) (node : namesNode s = true)
  | table (provider addr : Text) (node : (firstName provider).isSome = true)

/-- `global` and `provider` -/
def Addr.provider : Addr → Option Text
  | .handle _ => none
  | .name s => firstName s

namespace State

variable (random : Nat) (s : State)

/-- The builder goes down from son to son and makes those that are missing. -/
def put (id : Text) (conf : Conf) : State :=
  { s with root := s.root.insert none (components id) (some conf) }

def doSub (sid : Text) (handle : Addr) : State :=
  { s.put sid ⟨handle, handle.provider⟩ with
    address := Function.update s.address sid (some ⟨handle, handle.provider⟩) }

/-- `sub`; the table of the own provider is refused. What `clusterd` answers afterwards changes
neither table. -/
def sub (sid : Text) : Handle → Option State
  | .number n => some (s.doSub sid (.handle n))
  | .string name _ => some (s.doSub sid (.name name))
  | .table provider _ _ =>
      if s.selfprovider = some provider then none
      else some (s.doSub sid (.name (provider ++ '@' :: sid)))

end State

/-- The loop of `pop`. Its `node` stays the root: `n = node` stands for `node = n`. -/
def popFrom (random : Nat) (node : Node) : List Text → Option Node
  | [] => some node
  | model :: rest =>
      match matchSon random (.node node) model with
      | none => del node model
      | some _ => popFrom random node rest

namespace State

variable (random : Nat) (s : State)

def pop (id : Text) : Option State :=
  (popFrom random s.root (components id)).map fun root => { s with root := root }

/-- `do_unsub`. It fails where `pop` does, and for an id of this process, as `cluster.register` is
called without an address, which `clusterd` asserts. -/
def doUnsub (sid : Text) : State :=
  match s.pop random sid with
  | none => s
  | some popped =>
      if (popped.address sid).any fun conf => conf.global.isNone then popped
      else { popped with address := Function.update popped.address sid none }

/-- `matcher[id]` -/
def matcher (id : Text) : Option Found := matchId random s.root id

/-- Whom a publish sends to at once; it waits where no node is found. -/
def publish (id : Text) : List Addr := ((s.matcher random id).bind Found.send).getD []

end State

inductive Request
  | localprovider (name : Option Text)
  | subscribe (sid : Text) (handle : Handle)
  | unsubscribe (sid : Text) (random : Nat)

/-- The builder's own field: after such a component its user holds a node. -/
def builderField : Text := ['_', '_', 'n', 'o', 'd', 'e']

/-- A request that fails changes nothing. -/
def State.step (s : State) : Request → Option State
  | .localprovider name => some { s with selfprovider := name }
  | .subscribe sid handle =>
      if builderField ∈ components sid then none else some ((s.sub sid handle).getD s)
  | .unsubscribe sid random => some (s.doUnsub random sid)

/-- Without the wildcard names. -/
def Plain (id : Text) : Prop := ∀ model ∈ components id, model ≠ ['*'] ∧ model ≠ ['?']

instance (id : Text) : Decidable (Plain id) :=
  inferInstanceAs (Decidable (∀ model ∈ components id, model ≠ ['*'] ∧ model ≠ ['?']))

def Request.Plain : Request → Prop
  | .localprovider _ => True
  | .subscribe sid _ | .unsubscribe sid _ => Channeld.Plain sid

/-- No other id that is subscribed has the same components, as `a:b` and `a.b` have. -/
def State.OneSpelling (s : State) (id : Text) : Prop :=
  ∀ other, s.address other ≠ none → components other = components id → other = id

/-- The id is the prefix with more components. -/
def Below (pre id : Text) : Prop :=
  components pre <+: components id ∧ components pre ≠ components id

/-- The tree holds what the table holds. -/
structure State.Routes (random : Nat) (s : State) : Prop where
  lookup : ∀ id, Plain id → s.OneSpelling id → ∀ a,
    (∃ n, s.matcher random id = some (.node n) ∧ n.value.map Conf.addr = some a) ↔
      (s.address id).map Conf.addr = some a
  others : ∀ id s', s.step (.unsubscribe id random) = some s' →
    ∀ other, other ≠ id → s'.matcher random other = s.matcher random other
  published : ∀ pre, Plain pre → ∃ ids : List Text, ids.Nodup ∧
    (∀ id, id ∈ ids ↔ s.address id ≠ none ∧ Below pre id) ∧
    (s.publish random (pre ++ ['.', '*'])).map some =
      ids.map fun id => (s.address id).map Conf.addr

section Match

variable {random : Nat} {s s' : State} {id other : Text}

theorem matchSon_plain {model : Text} (plain : model ≠ ['*'] ∧ model ≠ ['?']) (n : Node) :
    matchSon random (.node n) model = (PathTree.son model n.sons).map .node := by
  cases had : PathTree.son model n.sons <;> simp [matchSon, had, plain.1, plain.2]

theorem foldlM_matchSon {path : List Text} (plain : ∀ model ∈ path, model ≠ ['*'] ∧ model ≠ ['?'])
    (n : Node) : path.foldlM (matchSon random) (.node n) = (n.find path).map .node := by
  induction path generalizing n with
  | nil => rfl
  | cons model path ih =>
      obtain ⟨first, rest⟩ := List.forall_mem_cons.1 plain
      rw [List.foldlM_cons, matchSon_plain first, PathTree.find]
      cases PathTree.son model n.sons with
      | none => rfl
      | some son => exact ih rest son

theorem matcher_plain (plain : Plain id) :
    s.matcher random id = (s.root.find (components id)).map .node :=
  foldlM_matchSon plain s.root

theorem components_star (pre : Text) : components (pre ++ ['.', '*']) = components pre ++ [['*']] := by
  rw [components, List.splitOnP_append_cons pre ['*'] (by decide), List.filter_append]
  rfl

/-- A node that `pop` does not find has no such son, and none is taken from it. -/
theorem del_eq {node node' : Node} {model : Text} (missed : matchSon random (.node node) model = none)
    (done : del node model = some node') : node' = node := by
  cases had : PathTree.son model node.sons with
  | some son => simp [matchSon, had] at missed
  | none =>
      by_cases bare : node.sons = []
      · simp [del, bare] at done
      · by_cases star : model = ['*']
        · subst star
          simp [matchSon, had, bare] at missed
        · simpa [del, had, bare, star, eq_comm] using done

theorem popFrom_eq {node node' : Node} {path : List Text}
    (done : popFrom random node path = some node') : node' = node := by
  induction path with
  | nil => exact (Option.some.inj done).symm
  | cons model rest ih =>
      rw [popFrom] at done
      cases found : matchSon random (.node node) model with
      | none =>
          rw [found] at done
          exact del_eq found done
      | some n =>
          rw [found] at done
          exact ih done

/-- Whatever is unsubscribed, the tree stays as it is. -/
theorem doUnsub_root (s : State) (id : Text) : (s.doUnsub random id).root = s.root := by
  rw [State.doUnsub]
  cases pop : s.pop random id with
  | none => rfl
  | some popped =>
      obtain ⟨root, from_, rfl⟩ := Option.map_eq_some_iff.1 pop
      cases popFrom_eq from_
      dsimp only
      split <;> rfl

/-- What is not subscribed can be unsubscribed: nothing changes. -/
theorem doUnsub_eq (idle : s.address id = none) : s.doUnsub random id = s := by
  rw [State.doUnsub]
  cases pop : s.pop random id with
  | none => rfl
  | some popped =>
      obtain ⟨root, from_, rfl⟩ := Option.map_eq_some_iff.1 pop
      cases popFrom_eq from_
      have table : Function.update s.address id none = s.address := by
        rw [← idle, Function.update_eq_self]
      simp [idle, table]

end Match

/-! ### Tree and table -/

/-- Every subscribed id has its node and there is no other with an address. -/
structure State.Agrees (s : State) : Prop where
  proper : s.root.Proper
  plain : ∀ id, s.address id ≠ none → Plain id
  apart : ∀ id, s.address id ≠ none → s.OneSpelling id
  held : ∀ id conf, s.address id = some conf →
    s.root.valueAt (components id) = some (some conf)
  only : ∀ path conf, s.root.valueAt path = some (some conf) →
    ∃ id, components id = path ∧ s.address id = some conf
  grown : ∀ path, s.root.valueAt path ≠ none →
    path = [] ∨ ∃ id, s.address id ≠ none ∧ path <+: components id

section Agrees

variable {random : Nat} {s s' : State} {id : Text}

theorem start_agrees (begins : start s) : s.Agrees := by
  obtain ⟨root, empty⟩ := begins
  have bare : ∀ path value, s.root.valueAt path = some value → path = [] ∧ value = none := by
    intro path value at_
    rw [root] at at_
    cases path with
    | nil => exact ⟨rfl, (Option.some.inj at_).symm⟩
    | cons name path => cases at_
  refine ⟨?_, ?_, ?_, ?_, ?_, ?_⟩
  · rw [root]
    exact PathTree.proper_blank none
  · exact fun id had => absurd (empty id) had
  · exact fun id had => absurd (empty id) had
  · intro id conf had
    rw [empty] at had
    cases had
  · intro path conf at_
    cases (bare path _ at_).2
  · intro path at_
    obtain ⟨value, at_⟩ := Option.ne_none_iff_exists'.1 at_
    exact .inl (bare path value at_).1

/-- What `put` sets, and nothing else. -/
theorem valueAt_put (path : List Text) (conf new : Conf) :
    (s.put id new).root.valueAt path = some (some conf) ↔
      path = components id ∧ conf = new ∨
      path ≠ components id ∧ s.root.valueAt path = some (some conf) := by
  rw [State.put, PathTree.valueAt_insert]
  by_cases here : path = components id
  · simp [here, eq_comm]
  · rw [if_neg here]
    split
    · cases s.root.valueAt path <;> simp [here]
    · simp [here]

theorem valueAt_put_ne_none (path : List Text) (new : Conf)
    (made : (s.put id new).root.valueAt path ≠ none) :
    path <+: components id ∨ s.root.valueAt path ≠ none := by
  rw [State.put, PathTree.valueAt_insert] at made
  by_cases before : path <+: components id
  · exact .inl before
  · have apart : path ≠ components id := fun same => before (same ▸ List.prefix_rfl)
    rw [if_neg apart, if_neg before] at made
    exact .inr made

theorem State.Agrees.doSub (h : s.Agrees) (handle : Addr) (plain : Plain id)
    (one : s.OneSpelling id) : (s.doSub id handle).Agrees := by
  rw [State.doSub]
  set conf : Conf := ⟨handle, handle.provider⟩
  have table : ∀ other, Function.update s.address id (some conf) other ≠ none ↔
      other = id ∨ s.address other ≠ none := by
    intro other
    by_cases same : other = id <;> simp [same]
  refine ⟨PathTree.proper_insert h.proper _ _, ?_, ?_, ?_, ?_, ?_⟩
  · intro other had
    rcases (table other).1 had with rfl | had
    · exact plain
    · exact h.plain other had
  · intro other new third new' same
    rcases (table other).1 new with here | had
    · subst here
      exact ((table third).1 new').elim id fun had' => one third had' same
    · rcases (table third).1 new' with here | had'
      · subst here
        exact (one other had same.symm).symm
      · exact h.apart other had third had' same
  · intro other c had
    dsimp only at had
    rw [valueAt_put]
    by_cases same : other = id
    · subst same
      rw [Function.update_self] at had
      exact .inl ⟨rfl, (Option.some.inj had).symm⟩
    · rw [Function.update_of_ne same] at had
      refine .inr ⟨fun spelled => same ?_, h.held other c had⟩
      exact one other (by simp [had]) spelled
  · intro path c at_
    rcases (valueAt_put path c conf).1 at_ with ⟨rfl, rfl⟩ | ⟨apart, at_⟩
    · exact ⟨id, rfl, Function.update_self ..⟩
    · obtain ⟨other, rfl, had⟩ := h.only path c at_
      have same : other ≠ id := fun same => apart (same ▸ rfl)
      exact ⟨other, rfl, (Function.update_of_ne same ..).trans had⟩
  · intro path made
    rcases valueAt_put_ne_none path conf made with before | made
    · exact .inr ⟨id, (table id).2 (.inl rfl), before⟩
    · refine (h.grown path made).imp_right ?_
      rintro ⟨other, had, before⟩
      exact ⟨other, (table other).2 (.inr had), before⟩

/-- What may be asked for: plain ids, each with one spelling and without the builder's field, and
no subscribed id is unsubscribed. -/
def Guarded (s : State) : Request → Prop
  | .localprovider _ => True
  | .subscribe sid _ => Plain sid ∧ s.OneSpelling sid
  | .unsubscribe sid _ => s.address sid = none

theorem State.Agrees.step (h : s.Agrees) {request : Request} (guard : Guarded s request)
    (moved : s.step request = some s') : s'.Agrees := by
  cases request with
  | localprovider name =>
      cases moved
      exact { h with }
  | subscribe sid handle =>
      rw [State.step] at moved
      split at moved
      · cases moved
      · cases moved
        cases handle with
        | number n => exact h.doSub (.handle n) guard.1 guard.2
        | string name _ => exact h.doSub (.name name) guard.1 guard.2
        | table provider addr _ =>
            rw [State.sub]
            split
            · exact h
            · exact h.doSub _ guard.1 guard.2
  | unsubscribe sid random =>
      cases moved
      rwa [doUnsub_eq guard]

/-- A plain id finds the node of its path. -/
theorem matcher_eq_node (plain : Plain id) {n : Node} :
    s.matcher random id = some (.node n) ↔ s.root.find (components id) = some n := by
  rw [matcher_plain plain]
  constructor
  · intro found
    obtain ⟨m, found, same⟩ := Option.map_eq_some_iff.1 found
    cases same
    exact found
  · intro found
    rw [found]
    rfl

theorem State.Agrees.lookup (h : s.Agrees) (plain : Plain id) (one : s.OneSpelling id) (a : Addr) :
    (∃ n, s.matcher random id = some (.node n) ∧ n.value.map Conf.addr = some a) ↔
      (s.address id).map Conf.addr = some a := by
  simp only [matcher_eq_node plain, Option.map_eq_some_iff]
  constructor
  · rintro ⟨n, found, conf, set_, rfl⟩
    obtain ⟨other, spelled, had⟩ := h.only (components id) conf (by
      rw [PathTree.valueAt, found, Option.map_some, set_])
    have same := one other (by simp [had]) spelled
    exact ⟨conf, same ▸ had, rfl⟩
  · rintro ⟨conf, had, rfl⟩
    obtain ⟨n, found, set_⟩ := Option.map_eq_some_iff.1 (h.held id conf had)
    exact ⟨n, found, conf, set_, rfl⟩

/-- No node is named by a wildcard. -/
theorem State.Agrees.no_star (h : s.Agrees) (pre : Text) :
    s.root.find (components pre ++ [['*']]) = none := by
  by_contra made
  have there : s.root.valueAt (components pre ++ [['*']]) ≠ none := by
    simpa [PathTree.valueAt] using made
  cases h.grown _ there with
  | inl bare => simp at bare
  | inr on =>
      obtain ⟨id, had, before⟩ := on
      have inside : ['*'] ∈ components id := before.subset (by simp)
      exact (h.plain id had _ inside).1 rfl

/-- The nodes below one that have an address, by their paths. -/
def nodesBelow (n : Node) : List (List Text × Conf) :=
  n.entries.tail.filterMap fun e => e.2.map fun conf => (e.1, conf)

theorem mem_nodesBelow {n : Node} (proper : n.Proper) {q : List Text} {conf : Conf} :
    (q, conf) ∈ nodesBelow n ↔ q ≠ [] ∧ n.valueAt q = some (some conf) := by
  rw [← PathTree.mem_tail_entries proper, nodesBelow, List.mem_filterMap]
  constructor
  · rintro ⟨e, inside, set_⟩
    obtain ⟨c, set_, same⟩ := Option.map_eq_some_iff.1 set_
    cases same
    exact set_ ▸ inside
  · exact fun inside => ⟨_, inside, rfl⟩

theorem nodup_nodesBelow {n : Node} (proper : n.Proper) : (nodesBelow n).Nodup := by
  have paths := (PathTree.nodup_entries proper).of_map.sublist (List.tail_sublist n.entries)
  refine paths.filterMap ?_
  rintro ⟨q, value⟩ ⟨q', value'⟩ c is is'
  obtain ⟨conf, rfl, rfl⟩ := Option.map_eq_some_iff.1 is
  obtain ⟨conf', rfl, same⟩ := Option.map_eq_some_iff.1 is'
  cases same
  rfl

theorem broadcast_sons (n : Node) :
    n.sons.flatMap (fun son => broadcast son.2) = (nodesBelow n).map fun e => e.2.addr := by
  have each : ∀ son : Text × Node, broadcast son.2 =
      (son.2.entries.map fun e => (son.1 :: e.1, e.2)).flatMap
        fun e => (e.2.map Conf.addr).toList := by
    intro son
    rw [broadcast, PathTree.flatten_eq_entries, List.flatMap_map]
  have all : n.sons.flatMap (fun son => broadcast son.2) =
      n.entries.tail.flatMap fun e => (e.2.map Conf.addr).toList := by
    rw [PathTree.entries_eq, List.tail_cons, List.flatMap_assoc]
    exact List.flatMap_congr fun son _ => each son
  rw [all, nodesBelow, List.map_filterMap, ← List.filterMap_eq_flatMap_toList]
  refine List.filterMap_congr fun e _ => ?_
  cases e.2 <;> rfl

/-- A publish to `pre.*` goes to all nodes below that of `pre`. -/
theorem State.Agrees.publish_star (h : s.Agrees) {pre : Text} (plain : Plain pre) :
    s.publish random (pre ++ ['.', '*']) =
      ((s.root.find (components pre)).map fun n =>
        (nodesBelow n).map fun e => e.2.addr).getD [] := by
  rw [State.publish, State.matcher, matchId, components_star, List.foldlM_append,
    foldlM_matchSon plain]
  cases found : s.root.find (components pre) with
  | none => rfl
  | some n =>
      have none_ : PathTree.son ['*'] n.sons = none := by
        have out := h.no_star pre
        rw [PathTree.find_append, found] at out
        simpa [PathTree.find] using out
      have all := broadcast_sons n
      rw [Option.map_some, Option.map_some, Option.getD_some (a := (nodesBelow n).map _), ← all]
      by_cases bare : n.sons = []
      · simp [matchSon, PathTree.son, bare]
      · simp [matchSon, none_, bare, Found.send]

theorem State.Agrees.published (h : s.Agrees) {pre : Text} (plain : Plain pre) :
    ∃ ids : List Text, ids.Nodup ∧ (∀ id, id ∈ ids ↔ s.address id ≠ none ∧ Below pre id) ∧
      (s.publish random (pre ++ ['.', '*'])).map some =
        ids.map fun id => (s.address id).map Conf.addr := by
  rw [h.publish_star plain]
  cases found : s.root.find (components pre) with
  | none =>
      refine ⟨[], List.nodup_nil, fun id => ?_, rfl⟩
      simp only [List.not_mem_nil, false_iff, not_and]
      intro sub below
      obtain ⟨conf, had⟩ := Option.ne_none_iff_exists'.1 sub
      obtain ⟨n, at_, _⟩ := Option.map_eq_some_iff.1 (h.held id conf had)
      have there := PathTree.find_of_prefix below.1 (by rw [at_]; rfl)
      rw [found] at there
      cases there
  | some n =>
      have proper := h.proper.find found
      have down : ∀ q, s.root.valueAt (components pre ++ q) = n.valueAt q := by
        intro q
        rw [PathTree.valueAt, PathTree.find_append, found, Option.bind_some, PathTree.valueAt]
      have named : ∀ e ∈ nodesBelow n, ∃ id, components id = components pre ++ e.1 ∧
          s.address id = some e.2 :=
        fun e inside => h.only _ _ ((down e.1).trans ((mem_nodesBelow proper).1 inside).2)
      choose! idOf spelled had using named
      refine ⟨(nodesBelow n).map idOf, ?_, fun id => ⟨?_, ?_⟩, ?_⟩
      · refine (nodup_nodesBelow proper).map_on fun e inside e' inside' same => ?_
        have here := spelled e inside
        have conf := had e inside
        rw [same, spelled e' inside'] at here
        rw [same, had e' inside'] at conf
        exact Prod.ext (List.append_cancel_left here).symm (Option.some.inj conf).symm
      · intro listed
        obtain ⟨e, inside, rfl⟩ := List.mem_map.1 listed
        refine ⟨by simp [had e inside], ⟨e.1, (spelled e inside).symm⟩, fun same => ?_⟩
        rw [spelled e inside] at same
        exact ((mem_nodesBelow proper).1 inside).1 (List.self_eq_append_right.1 same)
      · rintro ⟨sub, ⟨q, spelled'⟩, apart⟩
        obtain ⟨conf, sub'⟩ := Option.ne_none_iff_exists'.1 sub
        have inside : (q, conf) ∈ nodesBelow n := by
          refine (mem_nodesBelow proper).2 ⟨?_, ?_⟩
          · rintro rfl
            exact apart (by simpa using spelled')
          · rw [← down, spelled']
            exact h.held id conf sub'
        refine List.mem_map.2 ⟨_, inside, ?_⟩
        exact h.apart id sub _ (by simp [had _ inside]) ((spelled _ inside).trans spelled')
      · rw [Option.map_some, Option.getD_some, List.map_map, List.map_map]
        exact List.map_congr_left fun e inside => by simp [had e inside]

theorem State.Agrees.routes (h : s.Agrees) : s.Routes random where
  lookup _ plain one a := h.lookup plain one a
  others id s' moved other _ := by
    cases moved
    rw [State.matcher, State.matcher, doUnsub_root]
  published _ plain := h.published plain

end Agrees

/-- In every run that unsubscribes nothing that is subscribed, over plain ids. -/
theorem routes_to_subscribed (random : Nat) {s : State}
    (reached : Runs.Reaches start (fun s request s' => s.step request = some s') Guarded s) :
    s.Routes random := by
  have agrees : s.Agrees := by
    apply reached.invariant
    · exact fun _ => start_agrees
    · exact fun _ _ _ h guard moved => h.step guard moved
  exact agrees.routes

def ab : Text := ['a', '.', 'b']

def ac : Text := ['a', '.', 'c']

def blankState : State := ⟨createnode, fun _ => none, none⟩

/-- Two services with the first component in common, and then the first one anew. -/
def subscribedAgain : State :=
  ((blankState.doSub ab (.handle 1)).doSub ac (.handle 2)).doSub ab (.handle 3)

theorem subscribed_again : subscribedAgain.Routes 0 ∧
    subscribedAgain.publish 0 ['a', '.', '*'] = [.handle 3, .handle 2] := by
  refine ⟨routes_to_subscribed 0 ?_, by decide⟩
  have none_else : ∀ s : State, s.address = blankState.address ∨
      s.address = (blankState.doSub ab (.handle 1)).address ∨
      s.address = ((blankState.doSub ab (.handle 1)).doSub ac (.handle 2)).address →
      ∀ id ∈ [ab, ac], s.OneSpelling id := by
    intro s known id mem other had same
    have which : other = ab ∨ other = ac := by
      by_contra out
      obtain ⟨not_ab, not_ac⟩ := not_or.1 out
      refine had ?_
      rcases known with at_ | at_ | at_ <;> rw [at_] <;>
        simp [blankState, State.doSub, State.put, not_ab, not_ac]
    rcases which with rfl | rfl <;> revert id <;> decide
  have plain : Plain ab ∧ Plain ac := by decide
  refine .next (s := (blankState.doSub ab (.handle 1)).doSub ac (.handle 2))
    (.subscribe ab (.number 3)) (.next (s := blankState.doSub ab (.handle 1))
      (.subscribe ac (.number 2)) (.next (.subscribe ab (.number 1)) (.start ⟨rfl, fun _ => rfl⟩)
        ⟨plain.1, none_else _ (.inl rfl) _ (by simp)⟩ rfl)
      ⟨plain.2, none_else _ (.inr (.inl rfl)) _ (by simp)⟩ rfl)
    ⟨plain.1, none_else _ (.inr (.inr rfl)) _ (by simp)⟩ rfl

/-- A service of the process `n` is subscribed and unsubscribed: its node keeps the address. -/
theorem unsubscribed_stays : ¬ ∀ s, Runs.Reaches start
    (fun s request s' => s.step request = some s') (fun _ request => request.Plain) s →
      s.Routes 0 := by
  intro all
  have plain : Plain ['a'] := by decide
  let first : State := ⟨createnode, fun _ => none, none⟩
  let second := first.doSub ['a'] (.name ['n', '@', 'a'])
  let third := second.doUnsub 0 ['a']
  have routes := all third (.next (s := second) (.unsubscribe ['a'] 0)
    (.next (s := first) (.subscribe ['a'] (.table ['n'] [] rfl)) (.start ⟨rfl, fun _ => rfl⟩) plain
      (by rfl)) plain (by rfl))
  have table : third.address = Function.update (Function.update (fun _ => none) ['a']
      (some ⟨.name ['n', '@', 'a'], some ['n']⟩)) ['a'] none := rfl
  have gone : ∀ id, third.address id = none := by
    intro id
    rw [table, Function.update_idem, Function.update_apply]
    split <;> rfl
  have kept : third.matcher 0 ['a'] =
      some (.node (.node (some ⟨.name ['n', '@', 'a'], some ['n']⟩) [])) := by rfl
  have found := (routes.lookup ['a'] plain (fun other had => absurd (gone other) had)
    (.name ['n', '@', 'a'])).1 ⟨_, kept, rfl⟩
  rw [gone] at found
  cases found

end FkServer.Channeld
