import FkServer.Library.PlainRedis
import FkServer.Redisorm.Lookups

/-!
`typemetafunc` and the commands of `redisopt` that use it: a record is encoded by the codec of
its key's model, sent to Redis as texts, and what comes back is decoded by the same model.
Redis lists the fields of a hash and the members of a set in any order.
-/
namespace FkServer.Redisorm

open PlainRedis

variable {F T : Type}

/-- A Lua table. -/
abbrev LuaTable (F T : Type) := Lua F T → Option (Lua F T)

section Values
variable (lua : Runtime F T)

/-- `encode` for a value that is no container; with a codec for containers it raises an error. -/
def MetaType.encode (kind : MetaType) (v : Lua F T) : Option (Option (Lua F T)) :=
  match kind with
  | .string => some (some (.text (tostring lua v)))
  | .number => some ((tonumber lua v).map .number)
  | .json =>
      match v with
      | .table t => (lua.jsonEncode t).map fun s => some (.text s)
      | v => some (some v)
  | .bool =>
      match v with
      | .bool false => some (some (.text "false"))
      | _ => some (some (.text "true"))
  | .hash | .numberHash | .set => none

/-- `decode` for a value that is no container. -/
def MetaType.decode (kind : MetaType) (v : Lua F T) : Option (Option (Lua F T)) :=
  match kind with
  | .string => some (some (.text (tostring lua v)))
  | .number => some ((tonumber lua v).map .number)
  | .json =>
      match v with
      | .text s => (lua.jsonDecode s).map fun v => some (v.getD (.text s))
      | v => some (some v)
  | .bool =>
      match v with
      | .text "true" => some (some (.bool true))
      | _ => some (some (.bool false))
  | .hash | .numberHash | .set => none

/-- `a or b` -/
def orElse (a : Option (Lua F T)) (b : Lua F T) : Lua F T :=
  match a with
  | none | some (.bool false) => b
  | some v => v

end Values

section Codec
variable [DecidableEq F] [DecidableEq T] (lua : Runtime F T)
  (pairs : Path F T → List (Lua F T) → List (Lua F T))

/-- `local nk = n[k]` and what its codec, if it has one, makes of `v`. -/
def throughSon (codec : MetaType → Lua F T → Option (Option (Lua F T))) (t : Tree F T) (n : At F T)
    (k v : Lua F T) : Option (Option (Lua F T) × Tree F T) :=
  match t.index lua pairs n k with
  | none => none
  | some (nk, t) =>
      match t.rawMeta nk with
      | none => none
      | some none => some (some v, t)
      | some (some kind) => (codec kind v).map fun v => (v, t)

/-- `encode` of a hash: the entries in the order `pairs` meets them. -/
def encodeEntries (n : At F T) :
    List (Lua F T × Lua F T) → Tree F T → Option (List (Lua F T × Lua F T) × Tree F T)
  | [], t => some ([], t)
  | (k, v) :: rest, t =>
      match throughSon lua pairs (fun kind => kind.encode lua) t n k v with
      | none => none
      | some (encoded, t) =>
          (encodeEntries n rest t).map fun out => ((k, orElse encoded v) :: out.1, out.2)

/-- The loop of `table.map`: `ret[k1] = v1` for every entry. -/
def assignAll (entries : List (Lua F T × Option (Lua F T))) (ret : LuaTable F T) : LuaTable F T :=
  entries.foldl (fun ret entry => Function.update ret entry.1 entry.2) ret

/-- The key under which a hash gives an entry back, if it does. -/
def entryKey (kind : MetaType) (k : Lua F T) : Option (Lua F T) :=
  if kind = .numberHash then (tonumber lua k).map .number else some k

/-- `decode` of a hash: what it assigns. -/
def decodeEntries (kind : MetaType) (n : At F T) :
    List (Lua F T × Lua F T) → Tree F T → Option (List (Lua F T × Option (Lua F T)))
  | [], _ => some []
  | (k, v) :: rest, t =>
      match throughSon lua pairs (fun kind => kind.decode lua) t n k v with
      | none => none
      | some (decoded, t) =>
          (decodeEntries kind n rest t).map fun out =>
            match entryKey lua kind k with
            | some k => (k, decoded) :: out
            | none => out

/-- `decode` of a set: every member is a key. -/
def decodeMembers (n : At F T) : List (Lua F T) → Tree F T →
    Option (List (Lua F T × Option (Lua F T)))
  | [], _ => some []
  | v :: rest, t =>
      match throughSon lua pairs (fun kind => kind.decode lua) t n v v with
      | none => none
      | some (decoded, t) =>
          (decodeMembers n rest t).map fun out => (orElse decoded v, some (.bool true)) :: out

/-- `meta_encode` of a table. The codecs that are for no container make a text or nil of it,
which cannot be expanded; that of a set lists its keys. -/
def metaEncode (t : Tree F T) (key : String) (entries : List (Lua F T × Lua F T)) :
    Option (List (Lua F T × Lua F T) × Tree F T) :=
  match metaMatcher lua pairs t key with
  | none => none
  | some (n, t) =>
      match t.rawMeta n with
      | none => none
      | some none => some (entries, t)
      | some (some .hash) | some (some .numberHash) => encodeEntries lua pairs n entries t
      | some (some .set) =>
          some (entries.zipIdx.map fun e => (.number (.int (e.2 + 1)), e.1.1), t)
      | some (some _) => none

/-- `dict_arg_formater`, as the texts Redis gets: a table under 1 is taken for the record. -/
def dictArgs (entries : List (Lua F T × Lua F T)) : List String :=
  match entries.lookup (.number (.int 1)) with
  | some (.table t) => lua.expandTable t
  | _ => entries.flatMap fun entry => [tostring lua entry.1, tostring lua entry.2]

/-- `hmset(key,record)` -/
def hmset (t : Tree F T) (s : Store) (now : Int) (key : String)
    (entries : List (Lua F T × Lua F T)) : Option (Tree F T × Store) :=
  match metaEncode lua pairs t key entries with
  | none => none
  | some (entries, t) =>
      match s.exec now (.hashSet .hmset key (dictArgs lua entries)) with
      | (_, .error) => none
      | (s, _) => some (t, s)

/-- `meta_decode` of a table, entry by entry: none where it raises an error or where a codec
that is for no container makes something else of it. -/
def metaDecode (t : Tree F T) (key : String) (entries : List (Lua F T × Lua F T)) :
    Option (LuaTable F T) :=
  let out : Option (List (Lua F T × Option (Lua F T))) :=
    match metaMatcher lua pairs t key with
    | none => none
    | some (n, t) =>
        match t.rawMeta n with
        | none => none
        | some none | some (some .json) => some (entries.map fun entry => (entry.1, some entry.2))
        | some (some .hash) => decodeEntries lua pairs .hash n entries t
        | some (some .numberHash) => decodeEntries lua pairs .numberHash n entries t
        | some (some .set) => decodeMembers lua pairs n (entries.map Prod.snd) t
        | some (some _) => none
  out.map fun entries => assignAll entries fun _ => none

/-- What `hgetall` makes of the fields Redis lists. -/
def decodeFields (t : Tree F T) (key : String) (fields : List (String × String)) :
    Option (LuaTable F T) :=
  metaDecode lua pairs t key (fields.map fun field => (.text field.1, .text field.2))

/-- What `smembers` makes of the members Redis lists. -/
def decodeSet (t : Tree F T) (key : String) (members : List String) : Option (LuaTable F T) :=
  metaDecode lua pairs t key
    (members.zipIdx.map fun member => (.number (.int (member.2 + 1)), .text member.1))

end Codec
end FkServer.Redisorm
