import FkServer.Library.PlainRedis
import FkServer.Library.Runs

/-!
`cache_redisd.lua`: a service that keeps copies of the values it has read in front of Redis. A
copy is a Lua value under a Lua key, whatever the key's type, and is never cleaned, since
`elapsed_cache_key` is not started. A Lua error ends a request and takes no lock off that
`batch_lock` took.
-/
namespace FkServer.CacheRedisd

open PlainRedis

/-- What a command takes as a key, a field or a value. -/
inductive Lua
  | str (text : String)
  | int (n : Int)
  | bool (b : Bool)
deriving DecidableEq

def tostring : Lua → String
  | .str text => text
  | .int n => toString n
  | .bool b => toString b

def Lua.falsy : Lua → Bool
  | .bool b => !b
  | _ => false

abbrev LuaTable := Lua → Option Lua

/-- `value` of a cache entry. -/
inductive Cached
  | nil
  | scalar (value : Lua)
  | table (fields : LuaTable)

/-- What a caller gets. The pairs of a hash and the members of a set come in no order; `table`
is a copy handed out as it is. -/
inductive LuaReply
  | nil
  | value (v : Lua)
  | list (values : List (Option Lua))
  | hash (fields : LuaTable)
  | keys (members : LuaTable)
  | table (fields : LuaTable)
  | error

def hashTable (h : Hash) : LuaTable
  | .str field => (h.lookup field).map Lua.str
  | _ => none

def setTable (m : Finset String) : LuaTable
  | .str member => if member ∈ m then some (.bool true) else none
  | _ => none

def LuaReply.ofRedis : Reply → LuaReply
  | .nil => .nil
  | .int n => .value (.int n)
  | .text s => .value (.str s)
  | .list values => .list (values.map (Option.map Lua.str))
  | .hash h => .hash (hashTable h)
  | .set m => .keys (setTable m)
  | .error => .error

/-- The loop of `table.fold_into`. -/
def foldInto : List Lua → LuaTable → LuaTable
  | field :: value :: rest, t => foldInto rest (Function.update t field (some value))
  | [field], t => Function.update t field none
  | [], t => t

/-- `tb[tostring(f)] = v` for every `f`. -/
def assign (fields : List Lua) (v : Option Lua) (t : LuaTable) : LuaTable :=
  fields.foldl (fun t f => Function.update t (.str (tostring f)) v) t

/-- `table.keys` -/
def keysOf (t : LuaTable) : LuaTable := fun k => if (t k).isSome then some (.bool true) else none

structure Service where
  cache : Lua → Option Cached
  locked : Lua → Bool
  redis : Store

namespace Service

variable (s : Service)

def setCache (key : Lua) (value : Cached) : Service :=
  { s with cache := Function.update s.cache key (some value) }

def clearCache (key : Lua) : Service := { s with cache := Function.update s.cache key none }

def exec (now : Int) (cmd : Cmd Lua) : Service × Reply :=
  let out := s.redis.exec now (cmd.map tostring)
  ({ s with redis := out.1 }, out.2)

def doRedisCommand (now : Int) (cmd : Cmd Lua) : Service × LuaReply :=
  let out := s.exec now cmd
  (out.1, .ofRedis out.2)

/-- A rule for the copy of one key, if there is one, and then the command. -/
def updating (now : Int) (key : Lua) (rule : Cached → Option Cached) (cmd : Cmd Lua) :
    Service × LuaReply :=
  match s.cache key with
  | none => s.doRedisCommand now cmd
  | some c =>
      match rule c with
      | none => (s, .error)
      | some c => (s.setCache key c).doRedisCommand now cmd

/-- `fold_into` a copy; with none the new table is lost. -/
def foldRule (args : List Lua) : Cached → Option Cached
  | .nil => some .nil
  | .scalar v => if args = [] ∨ v = .bool false then some (.scalar v) else none
  | .table t => some (.table (foldInto args t))

/-- Assignments to the fields of a copy. -/
def assignRule (fields : List Lua) (v : Option Lua) : Cached → Option Cached
  | .table t => some (.table (assign fields v t))
  | c => if fields = [] then some c else none

def hashSet (now : Int) (kind : HashSet) (key : Lua) (args : List Lua) : Service × LuaReply :=
  s.updating now key (foldRule args) (.hashSet kind key args)

def hashGet (now : Int) (key : Lua) : Service × LuaReply :=
  match s.cache key with
  | some (.table t) => (s, .hash t)
  | some .nil | some (.scalar (.bool false)) => (s, .hash fun _ => none)
  | some (.scalar _) => (s, .error)
  | none =>
      match s.exec now (.hgetall key) with
      | (s, .hash h) => (s.setCache key (.table (hashTable h)), .hash (hashTable h))
      | (s, reply) => (s, .ofRedis reply)

def hashGetSet (now : Int) (key field amount : Lua) : Service × LuaReply :=
  match s.exec now (.hincrby key field amount) with
  | (s, .int n) =>
      match s.cache key with
      | none => (s, .value (.int n))
      | some (.table t) =>
          (s.setCache key (.table (assign [field] (some (.int n)) t)), .value (.int n))
      | some _ => (s, .error)
  | (s, reply) => (s, .ofRedis reply)

/-- All the fields are read anew when one is missing; `table.series` leaves out what is nil. -/
def batchRead (now : Int) (key : Lua) (fields : List Lua) (t : LuaTable) : Service × LuaReply :=
  if (fields.filter fun f => ((t f).map Lua.falsy).getD true) = [] then
    (s, .list ((fields.filterMap t).map some))
  else
    match s.exec now (.hmget key fields) with
    | (s, .list values) =>
        let t := (fields.zip values).foldl
          (fun t entry => Function.update t entry.1 (entry.2.map Lua.str)) t
        (s.setCache key (.table t), .list ((fields.filterMap t).map some))
    | (s, reply) => (s, .ofRedis reply)

def hashBatchGet (now : Int) (key : Lua) (fields : List Lua) : Service × LuaReply :=
  match s.cache key with
  | none => s.doRedisCommand now (.hmget key fields)
  | some (.table t) => s.batchRead now key fields t
  | some _ => (s, if fields = [] then .list [] else .error)

def hashDel (now : Int) (key : Lua) (fields : List Lua) : Service × LuaReply :=
  s.updating now key (assignRule fields none) (.hdel key fields)

def stringGet (now : Int) (key : Lua) : Service × LuaReply :=
  match s.cache key with
  | some .nil => (s, .nil)
  | some (.scalar v) => (s, .value v)
  | some (.table t) => (s, .table t)
  | none =>
      match s.exec now (.get key) with
      | (s, .nil) => (s.setCache key .nil, .nil)
      | (s, .text text) => (s.setCache key (.scalar (.str text)), .value (.str text))
      | (s, reply) => (s, .ofRedis reply)

def stringSet (now : Int) (nx : Bool) (key value : Lua) : Service × LuaReply :=
  s.updating now key (fun _ => some (.scalar value)) (.stringSet nx key value)

/-- The seconds come first, and are not sent. -/
def stringSetex (now : Int) (key : Lua) (args : List Lua) : Service × LuaReply :=
  s.updating now key (fun _ => some ((args[1]?.map Cached.scalar).getD .nil))
    (.setex key args[1]?.toList)

def stringMset (now : Int) (args : List Lua) : Service × LuaReply :=
  let s := (pairKeys args).foldl (fun s key => s.clearCache (.str (tostring key))) s
  s.doRedisCommand now (.mset args)

def stringGetSet (now : Int) (key : Lua) (cmd : Cmd Lua) : Service × LuaReply :=
  match s.exec now cmd with
  | (s, .error) => (s, .error)
  | (s, reply) => (s.clearCache key, .ofRedis reply)

def setAdd (now : Int) (key : Lua) (members : List Lua) : Service × LuaReply :=
  s.updating now key (assignRule members (some (.bool true))) (.sadd key members)

def setGet (now : Int) (key : Lua) : Service × LuaReply :=
  match s.cache key with
  | some (.table t) => (s, .keys (keysOf t))
  | some .nil | some (.scalar (.bool false)) => (s, .keys fun _ => none)
  | some (.scalar _) => (s, .error)
  | none =>
      match s.exec now (.smembers key) with
      | (s, .set m) => (s.setCache key (.table (setTable m)), .keys (setTable m))
      | (s, reply) => (s, .ofRedis reply)

/-- One copy of `smove`, or a Lua error. -/
def moveRule (key member : Lua) (v : Option Lua) : Option Service :=
  match s.cache key with
  | none => some s
  | some c => (assignRule [member] v c).map fun c => s.setCache key c

def setMove (now : Int) (src target member : Lua) : Service × LuaReply :=
  match s.moveRule src member none with
  | none => (s, .error)
  | some s =>
      match s.moveRule target member (some (.bool true)) with
      | none => (s, .error)
      | some s => s.doRedisCommand now (.smove src target member)

/-- `pairs` of a single member is an error. -/
def setPop (now : Int) (key : Lua) (count : Option Lua) (picked : List String) :
    Service × LuaReply :=
  match s.exec now (.spop key count picked) with
  | (s, .text member) =>
      if (s.cache key).isSome then (s, .error) else (s, .value (.str member))
  | (s, .set m) =>
      match s.cache key with
      | none => (s, .keys (setTable m))
      | some (.table t) =>
          (s.setCache key (.table fun k => if ((setTable m) k).isSome then none else t k),
            .keys (setTable m))
      | some _ => (s, if m = ∅ then .keys (setTable m) else .error)
  | (s, reply) => (s, .ofRedis reply)

def setDel (now : Int) (key : Lua) (members : List Lua) : Service × LuaReply :=
  s.updating now key (assignRule members none) (.srem key members)

def setStore (now : Int) (op : SetStore) (dest : Lua) (keys : List Lua) : Service × LuaReply :=
  (s.clearCache dest).doRedisCommand now (.setStore op dest keys)

def keyDel (now : Int) (key : Lua) (rest : List Lua) : Service × LuaReply :=
  (s.clearCache key).doRedisCommand now (.del (key :: rest))

/-- Nothing is returned. -/
def keyRename (now : Int) (key newkey : Lua) : Service × LuaReply :=
  match ((s.clearCache key).clearCache newkey).doRedisCommand now (.rename key newkey) with
  | (s, .error) => (s, .error)
  | (s, _) => (s, .nil)

/-- The copy's time changes too, which nothing reads. -/
def keyExpire (now : Int) (key seconds : Lua) : Service × LuaReply :=
  s.doRedisCommand now (.expire key seconds)

/-- `new_lock_commander`: the lock is given back whatever happens. -/
def locking (key : Lua) (out : Service × LuaReply) : Service × Option LuaReply :=
  if s.locked key then (s, none) else (out.1, some out.2)

/-- `batch_lock` and `batch_lock_ret`: an error leaves the keys locked. -/
def batchLocking (keys : List Lua) (out : Service × LuaReply) : Service × Option LuaReply :=
  let taken := keys.takeWhile fun key => !s.locked key
  if taken.length < keys.length then
    ({ s with locked := fun key => s.locked key || decide (key ∈ taken) }, none)
  else
    match out with
    | (s, .error) =>
        ({ s with locked := fun key => s.locked key || decide (key ∈ keys) }, some .error)
    | (s, reply) => (s, some reply)

def command (now : Int) : Cmd Lua → Service × Option LuaReply
  | .hashSet kind key args => s.locking key (s.hashSet now kind key args)
  | .hmget key fields => s.locking key (s.hashBatchGet now key fields)
  | .hgetall key => s.locking key (s.hashGet now key)
  | .hdel key fields => s.locking key (s.hashDel now key fields)
  | .hincrby key field amount => s.locking key (s.hashGetSet now key field amount)
  | .get key => s.locking key (s.stringGet now key)
  | .mget keys => s.batchLocking keys (s.doRedisCommand now (.mget keys))
  | .stringSet nx key value => s.locking key (s.stringSet now nx key value)
  | .setex key args => s.locking key (s.stringSetex now key args)
  | .mset args => s.batchLocking args (s.stringMset now args)
  | .incr key => s.locking key (s.stringGetSet now key (.incr key))
  | .append key value => s.locking key (s.stringGetSet now key (.append key value))
  | .sadd key members => s.locking key (s.setAdd now key members)
  | .smembers key => s.locking key (s.setGet now key)
  | .smove src target member => s.batchLocking [src, target] (s.setMove now src target member)
  | .spop key count picked => s.locking key (s.setPop now key count picked)
  | .srem key members => s.locking key (s.setDel now key members)
  | .setStore op dest keys => s.locking dest (s.setStore now op dest keys)
  | .del [] => (s, some .error)
  | .del (key :: rest) => s.locking key (s.keyDel now key rest)
  | .rename key newkey => s.batchLocking [key, newkey] (s.keyRename now key newkey)
  | .expire key seconds => s.locking key (s.keyExpire now key seconds)

/-- Time passes at Redis, not here. -/
def tick (now : Int) : Service := { s with redis := s.redis.tick now }

end Service

end FkServer.CacheRedisd
