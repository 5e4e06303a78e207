import FkServer.Library.LuaPattern
import Mathlib.Data.List.Perm.Basic
import Mathlib.Algebra.Group.Int.Defs

/-!
`redisorm/meta.lua` and `meta_matcher.lua`: the tree of models. A model is a Lua pattern; its
node is found for every text the pattern matches, and a text that no son matches becomes a
model itself, so that the tree grows as it is looked up. In which order `pairs` meets the sons of
a node is a parameter, as are floats and JSON.
-/
namespace FkServer.Redisorm

variable {F T : Type}

/-- A number of Lua: an integer or a float. -/
inductive Number (F : Type)
  | int (n : Int)
  | float (x : F)
deriving DecidableEq

/-- What a record is made of; a table is one that JSON can write. -/
inductive Lua (F T : Type)
  | text (s : String)
  | number (x : Number F)
  | bool (b : Bool)
  | table (t : T)
deriving DecidableEq

instance Lua.lawfulBEq {F T : Type} [DecidableEq F] [DecidableEq T] : LawfulBEq (Lua F T) :=
  inferInstance

/-- What Lua and its JSON library do with floats and tables, and with texts that are no decimal
integers. A JSON library may raise an error, and decode a text to nothing that counts as true. -/
structure Runtime (F T : Type) where
  showFloat : F → String
  readOther : String → Option (Number F)
  showTable : T → String
  expandTable : T → List String
  jsonEncode : T → Option String
  jsonDecode : String → Option (Option (Lua F T))

/-- A number in decimal digits, if a text is one. -/
def readDigits (ds : List Char) : Option Nat :=
  if ds ≠ [] ∧ ds.all Char.isDigit then some (Nat.ofDigitChars 10 ds 0) else none

def readSigned : List Char → Option Int
  | '-' :: ds => (readDigits ds).map fun n : Nat => -(n : Int)
  | ds => (readDigits ds).map fun n : Nat => (n : Int)

/-- An integer of 64 bits in decimal digits, if a text is one. -/
def readInt (s : String) : Option Int :=
  (readSigned s.toList).filter fun n => decide (-2 ^ 63 ≤ n) && decide (n < 2 ^ 63)

section Text
variable (lua : Runtime F T)

def Number.show : Number F → String
  | .int n => toString n
  | .float x => lua.showFloat x

def tostring : Lua F T → String
  | .text s => s
  | .number x => x.show lua
  | .bool b => toString b
  | .table t => lua.showTable t

/-- `tonumber` of a text -/
def readNumber (s : String) : Option (Number F) :=
  match readInt s with
  | some n => some (.int n)
  | none => lua.readOther s

def tonumber : Lua F T → Option (Number F)
  | .text s => readNumber lua s
  | .number x => some x
  | _ => none

end Text

/-- `model_meta` -/
inductive MetaType
  | number
  | string
  | json
  | bool
  | hash
  | set
  | numberHash
deriving DecidableEq

/-- A node by its place: the models on the way to it. -/
abbrev Path (F T : Type) := List (Lua F T)

/-- The nodes there are, with the models of their sons in the order they came. -/
structure Tree (F T : Type) where
  sons : Path F T → List (Lua F T)
  metas : Path F T → Option MetaType

/-- What an index into the tree can give: a node, the table `__son` of one, a codec (which a
node has under `meta`), one of its functions, or nil. -/
inductive At (F T : Type)
  | node (p : Path F T)
  | sons (p : Path F T)
  | codec
  | func
  | nil

section Match
variable (lua : Runtime F T)

/-- `tostring(s):match("^"..model.."$")`; only texts and numbers can be joined. -/
def matchesModel (s model : Lua F T) : Option Bool :=
  match model with
  | .text _ | .number _ => LuaPattern.whole (tostring lua s) (tostring lua model)
  | _ => none

/-- The loop over the sons: the first whose model matches. -/
def firstModel (s : Lua F T) : List (Lua F T) → Option (Option (Lua F T))
  | [] => some none
  | model :: rest =>
      match matchesModel lua s model with
      | none => none
      | some true => some (some model)
      | some false => firstModel s rest

end Match

namespace Tree
variable [DecidableEq F] [DecidableEq T]

def addSon (t : Tree F T) (p : Path F T) (s : Lua F T) : Tree F T :=
  { t with sons := Function.update t.sons p (t.sons p ++ [s]) }

theorem mem_addSon {t : Tree F T} {p q : Path F T} {s g : Lua F T} :
    g ∈ (t.addSon p s).sons q ↔ g ∈ t.sons q ∨ q = p ∧ g = s := by
  change g ∈ Function.update t.sons p (t.sons p ++ [s]) q ↔ _
  by_cases same : q = p
  · subst same
    simp
  · simp [same]

section Lookup
variable (lua : Runtime F T) (pairs : Path F T → List (Lua F T) → List (Lua F T)) 
  (t : Tree F T)

/-- `son[s]`, with the model it is found under. -/
def findSon (p : Path F T) (s : Lua F T) : Option (Option (Lua F T)) :=
  if s ∈ t.sons p then some (some s) else firstModel lua s (pairs p (t.sons p))

/-- `get_son_model_node` -/
def getSonModelNode (p : Path F T) (s : Lua F T) : Option (At F T × Tree F T) :=
  if s = .bool false then some (.nil, t)
  else
    match findSon lua pairs t p s with
    | none => none
    | some (some model) => some (.node (p ++ [model]), t)
    | some none => some (.node (p ++ [s]), t.addSon p s)

/-- `n[s]`. A node has its own fields `meta`, `__son` and `__parent` before its sons. -/
def index (n : At F T) (s : Lua F T) : Option (At F T × Tree F T) :=
  match n with
  | .node p =>
      if s = .text "meta" ∧ (t.metas p).isSome then some (.codec, t)
      else if s = .text "__son" ∧ t.sons p ≠ [] then some (.sons p, t)
      else if s = .text "__parent" ∧ p ≠ [] then some (.node p.dropLast, t)
      else getSonModelNode lua pairs t p s
  | .sons p =>
      (findSon lua pairs t p s).map fun found =>
        match found with
        | some model => (.node (p ++ [model]), t)
        | none => (.nil, t)
  | .codec => some (if s = .text "encode" ∨ s = .text "decode" then .func else .nil, t)
  | .func | .nil => none

def walk (n : At F T) : List (Lua F T) → Tree F T → Option (At F T × Tree F T)
  | [], t => some (n, t)
  | s :: rest, t =>
      match index lua pairs t n s with
      | none => none
      | some (n, t) => walk n rest t

/-- `rawget(n,"meta")`. In a table of sons it would be a son, and no codec. -/
def rawMeta (n : At F T) : Option (Option MetaType) :=
  match n with
  | .node p => some (t.metas p)
  | .sons p => if .text "meta" ∈ t.sons p then none else some none
  | .codec => some none
  | .func | .nil => none

end Lookup
end Tree

/-- What `gmatch` with `[^%:|%.]+` finds in a key. -/
def segments (key : String) : List String :=
  ((key.toList.splitOnP fun c => c = ':' ∨ c = '|' ∨ c = '.').filter (· ≠ [])).map String.ofList

section Matcher
variable [DecidableEq F] [DecidableEq T]

/-- `meta_matcher[key]` -/
def metaMatcher (lua : Runtime F T) (pairs : Path F T → List (Lua F T) → List (Lua F T))
    (t : Tree F T) (key : String) : Option (At F T × Tree F T) :=
  t.walk lua pairs (.node []) ((segments key).map .text)

end Matcher

end FkServer.Redisorm
