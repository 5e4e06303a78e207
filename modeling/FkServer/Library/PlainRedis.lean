import Mathlib.Data.Finmap
import Mathlib.Data.Finset.Card
import Mathlib.Logic.Function.Basic

/-!
A plain Redis: a store of strings, hashes and sets under keys that may expire, and the replies
to the commands on them. Keys, fields and values are texts; a hash or a set that gets empty is
gone. Time passes by `tick`; which members SPOP takes is part of the command.
-/
namespace PlainRedis

abbrev Hash := Finmap fun _ : String => String

inductive Value
  | str (text : String)
  | hash (fields : Hash)
  | set (members : Finset String)

inductive Reply
  | nil
  | int (n : Int)
  | text (s : String)
  | list (values : List (Option String))
  | hash (fields : Hash)
  | set (members : Finset String)
  | error

inductive HashSet
  | hset | hmset | hsetnx

inductive SetStore
  | sdiffstore | sinterstore | sunionstore

/-- The commands, with arguments of any type. -/
inductive Cmd (α : Type)
  | hashSet (kind : HashSet) (key : α) (args : List α)
  | hmget (key : α) (fields : List α)
  | hgetall (key : α)
  | hdel (key : α) (fields : List α)
  | hincrby (key field amount : α)
  | get (key : α)
  | mget (keys : List α)
  /-- SET, or SETNX. -/
  | stringSet (nx : Bool) (key value : α)
  | setex (key : α) (args : List α)
  | mset (args : List α)
  | incr (key : α)
  | append (key value : α)
  | sadd (key : α) (members : List α)
  | smembers (key : α)
  | smove (src target member : α)
  | spop (key : α) (count : Option α) (picked : List String)
  | srem (key : α) (members : List α)
  | setStore (op : SetStore) (dest : α) (keys : List α)
  | del (keys : List α)
  | rename (key newkey : α)
  | expire (key seconds : α)

def Cmd.map {α β : Type} (f : α → β) : Cmd α → Cmd β
  | .hashSet kind key args => .hashSet kind (f key) (args.map f)
  | .hmget key fields => .hmget (f key) (fields.map f)
  | .hgetall key => .hgetall (f key)
  | .hdel key fields => .hdel (f key) (fields.map f)
  | .hincrby key field amount => .hincrby (f key) (f field) (f amount)
  | .get key => .get (f key)
  | .mget keys => .mget (keys.map f)
  | .stringSet nx key value => .stringSet nx (f key) (f value)
  | .setex key args => .setex (f key) (args.map f)
  | .mset args => .mset (args.map f)
  | .incr key => .incr (f key)
  | .append key value => .append (f key) (f value)
  | .sadd key members => .sadd (f key) (members.map f)
  | .smembers key => .smembers (f key)
  | .smove src target member => .smove (f src) (f target) (f member)
  | .spop key count picked => .spop (f key) (count.map f) picked
  | .srem key members => .srem (f key) (members.map f)
  | .setStore op dest keys => .setStore op (f dest) (keys.map f)
  | .del keys => .del (keys.map f)
  | .rename key newkey => .rename (f key) (f newkey)
  | .expire key seconds => .expire (f key) (f seconds)

/-- The keys at the odd places of MSET's arguments. -/
def pairKeys {α : Type} : List α → List α
  | key :: _ :: rest => key :: pairKeys rest
  | [key] => [key]
  | [] => []

theorem pairKeys_map {α β : Type} (f : α → β) (args : List α) :
    pairKeys (args.map f) = (pairKeys args).map f := by
  induction args using pairKeys.induct with
  | case1 key value rest ih => rw [List.map_cons, List.map_cons, pairKeys, pairKeys, ih, List.map_cons]
  | case2 key => rfl
  | case3 => rfl

/-- The keys a command may write. -/
def Cmd.writes {α : Type} : Cmd α → List α
  | .hashSet _ key _ | .hdel key _ | .hincrby key _ _ | .stringSet _ key _ | .setex key _
  | .incr key | .append key _ | .sadd key _ | .spop key _ _ | .srem key _
  | .setStore _ key _ | .expire key _ => [key]
  | .smove src target _ => [src, target]
  | .rename key newkey => [key, newkey]
  | .mset args => pairKeys args
  | .del keys => keys
  | _ => []

/-- The fields of what a key holds; nothing is a hash without fields. -/
def hashOf : Option Value → Option Hash
  | none => some ∅
  | some (.hash h) => some h
  | _ => none

def membersOf : Option Value → Option (Finset String)
  | none => some ∅
  | some (.set m) => some m
  | _ => none

def textOf : Option Value → Option (Option String)
  | none => some none
  | some (.str text) => some (some text)
  | _ => none

def ofHash (h : Hash) : Option Value := if h.keys = ∅ then none else some (.hash h)

def ofSet (m : Finset String) : Option Value := if m = ∅ then none else some (.set m)

/-- A number of 64 bits as Redis writes it. -/
def parseInt (text : String) : Option Int :=
  text.toInt?.filter fun n =>
    decide (toString n = text) && decide (-2 ^ 63 ≤ n) && decide (n < 2 ^ 63)

def inRange (n : Int) : Bool := decide (-2 ^ 63 ≤ n) && decide (n < 2 ^ 63)

/-- HSET of pairs. -/
def setFields : List String → Hash → Hash
  | field :: value :: rest, h => setFields rest (h.insert field value)
  | _, h => h

def delFields (fields : List String) (h : Hash) : Hash := fields.foldl (fun h f => h.erase f) h

structure Store where
  data : String → Option Value
  expireAt : String → Option Int

namespace Store

variable (s : Store)

def expired (now : Int) (key : String) : Bool :=
  match s.expireAt key with
  | some time => decide (time ≤ now)
  | none => false

/-- What has expired is gone. -/
def tick (now : Int) : Store where
  data := fun key => if s.expired now key then none else s.data key
  expireAt := fun key => if s.expired now key then none else s.expireAt key

def write (key : String) (value : Option Value) (expiry : Option Int) : Store where
  data := Function.update s.data key value
  expireAt := Function.update s.expireAt key (if value.isSome then expiry else none)

/-- A command that changes the value and leaves the expiry. -/
def put (key : String) (value : Option Value) : Store := s.write key value (s.expireAt key)

def putFields : List String → Store → Store
  | key :: value :: rest, s => putFields rest (s.write key (some (.str value)) none)
  | _, s => s

def drop (keys : List String) : Store := keys.foldl (fun s key => s.write key none none) s

def onHash (key : String) (f : Hash → Hash × Reply) : Store × Reply :=
  match hashOf (s.data key) with
  | none => (s, .error)
  | some h => (s.put key (ofHash (f h).1), (f h).2)

def onSet (key : String) (f : Finset String → Finset String × Reply) : Store × Reply :=
  match membersOf (s.data key) with
  | none => (s, .error)
  | some m => (s.put key (ofSet (f m).1), (f m).2)

def execHsetnx (key : String) (args : List String) : Store × Reply :=
  match args with
  | [field, value] => s.onHash key fun h =>
      if (h.lookup field).isSome then (h, .int 0) else (h.insert field value, .int 1)
  | _ => (s, .error)

/-- HSET and HMSET, which only differ in what they answer. -/
def execPairs (key : String) (args : List String) (reply : Hash → Reply) : Store × Reply :=
  if args = [] ∨ args.length % 2 = 1 then (s, .error)
  else s.onHash key fun h => (setFields args h, reply h)

def execHashSet (kind : HashSet) (key : String) (args : List String) : Store × Reply :=
  match kind with
  | .hset => s.execPairs key args fun h => .int ((setFields args h).keys.card - h.keys.card)
  | .hmset => s.execPairs key args fun _ => .text "OK"
  | .hsetnx => s.execHsetnx key args

/-- Adding to a field or a string that holds a number. -/
def added (old : Option String) (amount : String) : Option Int :=
  (parseInt (old.getD "0")).bind fun n =>
    (parseInt amount).bind fun d => if inRange (n + d) then some (n + d) else none

def execHincrby (key field amount : String) : Store × Reply :=
  match hashOf (s.data key) with
  | none => (s, .error)
  | some h =>
      match added (h.lookup field) amount with
      | none => (s, .error)
      | some n => (s.put key (ofHash (h.insert field (toString n))), .int n)

def execStringSet (nx : Bool) (key value : String) : Store × Reply :=
  if nx then
    if (s.data key).isSome then (s, .int 0)
    else (s.write key (some (.str value)) none, .int 1)
  else (s.write key (some (.str value)) none, .text "OK")

def execSetex (now : Int) (key : String) (args : List String) : Store × Reply :=
  match args with
  | [seconds, value] =>
      match parseInt seconds with
      | none => (s, .error)
      | some n =>
          if n ≤ 0 then (s, .error)
          else (s.write key (some (.str value)) (some (now + n)), .text "OK")
  | _ => (s, .error)

/-- INCR and APPEND: a new string of the old one. -/
def onText (key : String) (f : Option String → Option (String × Int)) : Store × Reply :=
  match textOf (s.data key) with
  | none => (s, .error)
  | some old =>
      match f old with
      | none => (s, .error)
      | some new => (s.put key (some (.str new.1)), .int new.2)

def execSmove (src target member : String) : Store × Reply :=
  if (s.data src).isNone then (s, .int 0)
  else
    match membersOf (s.data src), membersOf (s.data target) with
    | some m, some n =>
        if member ∉ m then (s, .int 0)
        else if src = target then (s, .int 1)
        else
          ((s.put src (ofSet (m.erase member))).put target (ofSet (insert member n)), .int 1)
    | _, _ => (s, .error)

def execSpop (key : String) (count : Option String) (picked : List String) : Store × Reply :=
  match count with
  | none => s.onSet key fun m =>
      match picked.find? (· ∈ m) with
      | none => (m, .nil)
      | some member => (m.erase member, .text member)
  | some count =>
      match parseInt count with
      | none => (s, .error)
      | some n =>
          if n < 0 then (s, .error)
          else s.onSet key fun m =>
            (m.filter (· ∉ picked), .set (m.filter (· ∈ picked)))

/-- The sets under the keys, unless one is no set. -/
def setsAt (keys : List String) : Option (List (Finset String)) :=
  keys.mapM fun key => membersOf (s.data key)

def combine (op : SetStore) : List (Finset String) → Finset String
  | [] => ∅
  | first :: rest =>
      match op with
      | .sdiffstore => rest.foldl (· \ ·) first
      | .sinterstore => rest.foldl (· ∩ ·) first
      | .sunionstore => rest.foldl (· ∪ ·) first

def execSetStore (op : SetStore) (dest : String) (keys : List String) : Store × Reply :=
  if keys = [] then (s, .error)
  else
    match s.setsAt keys with
    | none => (s, .error)
    | some sets =>
        (s.write dest (ofSet (combine op sets)) none, .int (combine op sets).card)

def execRename (key newkey : String) : Store × Reply :=
  if (s.data key).isNone then (s, .error)
  else if key = newkey then (s, .text "OK")
  else ((s.write newkey (s.data key) (s.expireAt key)).write key none none, .text "OK")

def execExpire (now : Int) (key seconds : String) : Store × Reply :=
  match parseInt seconds with
  | none => (s, .error)
  | some n =>
      if (s.data key).isNone then (s, .int 0)
      else if n ≤ 0 then (s.write key none none, .int 1)
      else (s.write key (s.data key) (some (now + n)), .int 1)

/-- One command at the time `now`. -/
def exec (now : Int) : Cmd String → Store × Reply
  | .hashSet kind key args => s.execHashSet kind key args
  | .hmget key fields =>
      match hashOf (s.data key) with
      | none => (s, .error)
      | some h => (s, if fields = [] then .error else .list (fields.map h.lookup))
  | .hgetall key =>
      match hashOf (s.data key) with
      | none => (s, .error)
      | some h => (s, .hash h)
  | .hdel key fields =>
      if fields = [] then (s, .error)
      else s.onHash key fun h =>
        (delFields fields h, .int (h.keys.card - (delFields fields h).keys.card))
  | .hincrby key field amount => s.execHincrby key field amount
  | .get key =>
      match textOf (s.data key) with
      | none => (s, .error)
      | some none => (s, .nil)
      | some (some text) => (s, .text text)
  | .mget keys =>
      if keys = [] then (s, .error)
      else (s, .list (keys.map fun key => (textOf (s.data key)).join))
  | .stringSet nx key value => s.execStringSet nx key value
  | .setex key args => s.execSetex now key args
  | .mset args =>
      if args = [] ∨ args.length % 2 = 1 then (s, .error) else (s.putFields args, .text "OK")
  | .incr key => s.onText key fun old => (added old "1").map fun n => (toString n, n)
  | .append key value => s.onText key fun old =>
      some (old.getD "" ++ value, ((old.getD "" ++ value).utf8ByteSize : Int))
  | .sadd key members =>
      if members = [] then (s, .error)
      else s.onSet key fun m =>
        (m ∪ members.toFinset, .int ((m ∪ members.toFinset).card - m.card))
  | .smembers key =>
      match membersOf (s.data key) with
      | none => (s, .error)
      | some m => (s, .set m)
  | .smove src target member => s.execSmove src target member
  | .spop key count picked => s.execSpop key count picked
  | .srem key members =>
      if members = [] then (s, .error)
      else s.onSet key fun m =>
        (m \ members.toFinset, .int (m.card - (m \ members.toFinset).card))
  | .setStore op dest keys => s.execSetStore op dest keys
  | .del keys =>
      if keys = [] then (s, .error)
      else (s.drop keys, .int ((keys.dedup.filter fun key => (s.data key).isSome).length : Int))
  | .rename key newkey => s.execRename key newkey
  | .expire key seconds => s.execExpire now key seconds

end Store

/-! ### What a command leaves alone -/

section Frame

variable {s : Store} {n key : String} {now : Int}

namespace Store

@[simp] theorem write_data (key : String) (value : Option Value) (expiry : Option Int) :
    (s.write key value expiry).data = Function.update s.data key value := rfl

@[simp] theorem put_data (key : String) (value : Option Value) :
    (s.put key value).data = Function.update s.data key value := rfl

theorem write_of_ne (other : n ≠ key) (value : Option Value) (expiry : Option Int) :
    (s.write key value expiry).data n = s.data n :=
  Function.update_of_ne other ..

theorem put_of_ne (other : n ≠ key) (value : Option Value) : (s.put key value).data n = s.data n :=
  Function.update_of_ne other ..

theorem onHash_data {h : Hash} (found : hashOf (s.data key) = some h) (f : Hash → Hash × Reply) :
    (s.onHash key f).1.data key = ofHash (f h).1 := by
  rw [onHash, found]
  exact Function.update_self ..

theorem onSet_data {m : Finset String} (found : membersOf (s.data key) = some m)
    (f : Finset String → Finset String × Reply) :
    (s.onSet key f).1.data key = ofSet (f m).1 := by
  rw [onSet, found]
  exact Function.update_self ..

theorem onHash_of_ne (other : n ≠ key) (f : Hash → Hash × Reply) :
    (s.onHash key f).1.data n = s.data n := by
  rw [onHash]
  split
  · rfl
  · exact put_of_ne other _

theorem onSet_of_ne (other : n ≠ key) (f : Finset String → Finset String × Reply) :
    (s.onSet key f).1.data n = s.data n := by
  rw [onSet]
  split
  · rfl
  · exact put_of_ne other _

theorem onText_of_ne (other : n ≠ key) (f : Option String → Option (String × Int)) :
    (s.onText key f).1.data n = s.data n := by
  rw [onText]
  split
  · rfl
  · split
    · rfl
    · exact put_of_ne other _

theorem putFields_of_notMem (args : List String) (h : n ∉ pairKeys args) :
    (s.putFields args).data n = s.data n := by
  induction args, s using putFields.induct with
  | case1 s key value rest ih =>
      have apart := List.ne_and_not_mem_of_not_mem_cons h
      rw [putFields, ih apart.2, write_of_ne apart.1]
  | case2 s args short =>
      rw [putFields]
      exact short

theorem drop_of_notMem (keys : List String) (h : n ∉ keys) : (s.drop keys).data n = s.data n := by
  induction keys generalizing s with
  | nil => rfl
  | cons key rest ih =>
      have apart := List.ne_and_not_mem_of_not_mem_cons h
      exact (ih apart.2).trans (write_of_ne apart.1 ..)

theorem execPairs_of_ne (other : n ≠ key) (args : List String) (reply : Hash → Reply) :
    (s.execPairs key args reply).1.data n = s.data n := by
  rw [execPairs]
  split
  · rfl
  · exact onHash_of_ne other _

theorem execHashSet_of_ne (other : n ≠ key) (kind : HashSet) (args : List String) :
    (s.execHashSet kind key args).1.data n = s.data n := by
  cases kind with
  | hset => exact execPairs_of_ne other args _
  | hmset => exact execPairs_of_ne other args _
  | hsetnx =>
      rw [execHashSet]
      unfold execHsetnx
      split
      · exact onHash_of_ne other _
      · rfl

theorem execSmove_of_ne {src target : String} (h : n ≠ src) (h' : n ≠ target) (member : String) :
    (s.execSmove src target member).1.data n = s.data n := by
  rw [execSmove]
  split
  · rfl
  · split
    · split
      · rfl
      · split
        · rfl
        · exact (put_of_ne h' _).trans (put_of_ne h _)
    · rfl

/-- SMOVE between sets. -/
theorem execSmove_eq {src target : String} {m k : Finset String}
    (from_ : membersOf (s.data src) = some m) (into : membersOf (s.data target) = some k)
    (member : String) :
    s.execSmove src target member =
      if member ∉ m then (s, .int 0)
      else if src = target then (s, .int 1)
      else ((s.put src (ofSet (m.erase member))).put target (ofSet (insert member k)), .int 1) := by
  rw [execSmove]
  split
  · rename_i gone
    rw [Option.isNone_iff_eq_none.1 gone] at from_
    have empty : member ∉ m := by
      rw [← Option.some.inj from_]
      exact Finset.notMem_empty member
    rw [if_pos empty]
  · rw [from_, into]

theorem execSpop_of_ne (other : n ≠ key) (count : Option String) (picked : List String) :
    (s.execSpop key count picked).1.data n = s.data n := by
  unfold execSpop
  split
  · exact onSet_of_ne other _
  · split
    · rfl
    · split
      · rfl
      · exact onSet_of_ne other _

theorem exec_data (cmd : Cmd String) (h : n ∉ cmd.writes) :
    (s.exec now cmd).1.data n = s.data n := by
  cases cmd with
  | hashSet kind key args => exact execHashSet_of_ne (List.ne_of_not_mem_cons h) kind args
  | hmget key fields =>
      rw [exec]
      split <;> rfl
  | hgetall key =>
      rw [exec]
      split <;> rfl
  | hdel key fields =>
      rw [exec]
      split
      · rfl
      · exact onHash_of_ne (List.ne_of_not_mem_cons h) _
  | hincrby key field amount =>
      rw [exec, execHincrby]
      split
      · rfl
      · split
        · rfl
        · exact put_of_ne (List.ne_of_not_mem_cons h) _
  | get key =>
      rw [exec]
      split <;> rfl
  | mget keys =>
      rw [exec]
      split <;> rfl
  | stringSet nx key value =>
      rw [exec, execStringSet]
      split
      · split
        · rfl
        · exact write_of_ne (List.ne_of_not_mem_cons h) ..
      · exact write_of_ne (List.ne_of_not_mem_cons h) ..
  | setex key args =>
      rw [exec]
      unfold execSetex
      split
      · split
        · rfl
        · split
          · rfl
          · exact write_of_ne (List.ne_of_not_mem_cons h) ..
      · rfl
  | mset args =>
      rw [exec]
      split
      · rfl
      · exact putFields_of_notMem args h
  | incr key => exact onText_of_ne (List.ne_of_not_mem_cons h) _
  | append key value => exact onText_of_ne (List.ne_of_not_mem_cons h) _
  | sadd key members =>
      rw [exec]
      split
      · rfl
      · exact onSet_of_ne (List.ne_of_not_mem_cons h) _
  | smembers key =>
      rw [exec]
      split <;> rfl
  | smove src target member =>
      exact execSmove_of_ne (List.ne_of_not_mem_cons h)
        (List.ne_of_not_mem_cons (List.not_mem_of_not_mem_cons h)) member
  | spop key count picked => exact execSpop_of_ne (List.ne_of_not_mem_cons h) count picked
  | srem key members =>
      rw [exec]
      split
      · rfl
      · exact onSet_of_ne (List.ne_of_not_mem_cons h) _
  | setStore op dest keys =>
      rw [exec, execSetStore]
      split
      · rfl
      · split
        · rfl
        · exact write_of_ne (List.ne_of_not_mem_cons h) ..
  | del keys =>
      rw [exec]
      split
      · rfl
      · exact drop_of_notMem keys h
  | rename key newkey =>
      rw [exec, execRename]
      split
      · rfl
      · split
        · rfl
        · exact (write_of_ne (List.ne_of_not_mem_cons h) ..).trans
            (write_of_ne (List.ne_of_not_mem_cons (List.not_mem_of_not_mem_cons h)) ..)
  | expire key seconds =>
      rw [exec, execExpire]
      split
      · rfl
      · split
        · rfl
        · split
          · exact write_of_ne (List.ne_of_not_mem_cons h) ..
          · exact write_of_ne (List.ne_of_not_mem_cons h) ..

end Store

end Frame

/-! ### MSET by its last values -/

/-- The last value under each key of MSET's arguments. -/
def lastValues : List String → (String → Option String) → String → Option String
  | key :: value :: rest, t => lastValues rest (Function.update t key (some value))
  | _, t => t

namespace Store

/-- A string under every key of a table. -/
def putTable (s : Store) (t : String → Option String) : Store where
  data := fun key => if (t key).isSome then (t key).map .str else s.data key
  expireAt := fun key => if (t key).isSome then none else s.expireAt key

variable {s : Store}

theorem putTable_empty : s.putTable (fun _ => none) = s := rfl

theorem putTable_write (t : String → Option String) (key value : String) :
    (s.putTable t).write key (some (.str value)) none =
      s.putTable (Function.update t key (some value)) := by
  simp only [putTable, write, Store.mk.injEq]
  constructor
  · funext k
    by_cases same : k = key
    · simp [same]
    · simp [Function.update_of_ne same]
  · funext k
    by_cases same : k = key
    · simp [same]
    · simp [Function.update_of_ne same]

theorem putFields_putTable (args : List String) (t : String → Option String) :
    (s.putTable t).putFields args = s.putTable (lastValues args t) := by
  induction args, t using lastValues.induct with
  | case1 key value rest t ih => rw [putFields, putTable_write, ih, lastValues]
  | case2 args t short => rw [putFields, lastValues] <;> exact short

/-- Arguments with the same last values do the same. -/
theorem putFields_congr {args args' : List String}
    (same : lastValues args (fun _ => none) = lastValues args' fun _ => none) :
    s.putFields args = s.putFields args' := by
  have first := putFields_putTable (s := s) args fun _ => none
  have second := putFields_putTable (s := s) args' fun _ => none
  rw [putTable_empty] at first second
  rw [first, second, same]

theorem putFields_append (args rest : List String) (even : args.length % 2 = 0) :
    s.putFields (args ++ rest) = (s.putFields args).putFields rest := by
  induction args, s using putFields.induct with
  | case1 key value args s ih =>
      apply ih
      simp only [List.length_cons] at even
      omega
  | case2 args s short =>
      match args, short with
      | [], _ => rfl
      | [_], _ => cases even
      | key :: value :: args, short => exact absurd rfl (short key value args)

end Store

/-! ### What was written is read -/

theorem eq_empty_of_keys {h : Hash} (none : h.keys = ∅) : h = ∅ := by
  apply Finmap.ext_lookup
  intro f
  rw [Finmap.lookup_empty, Finmap.lookup_eq_none, ← Finmap.mem_keys, none]
  exact Finset.notMem_empty f

theorem hashOf_ofHash (h : Hash) : hashOf (ofHash h) = some h := by
  rw [ofHash]
  split
  · rename_i none
    rw [hashOf, eq_empty_of_keys none]
  · rfl

theorem membersOf_ofSet (m : Finset String) : membersOf (ofSet m) = some m := by
  rw [ofSet]
  split
  · rename_i none
    rw [membersOf, none]
  · rfl

theorem lookup_eq_some {α β : Type} [DecidableEq α] {list : List (α × β)} {k : α} {v : β}
    (nodup : (list.map Prod.fst).Nodup) : list.lookup k = some v ↔ (k, v) ∈ list := by
  induction list with
  | nil => simp
  | cons first rest ih =>
      have apart := List.nodup_cons.1 nodup
      rw [List.lookup_cons, List.mem_cons]
      by_cases here : k = first.1
      · subst here
        have other : (first.1, v) ∉ rest := fun mem => apart.1 (List.mem_map.2 ⟨_, mem, rfl⟩)
        simp [other, Prod.ext_iff, eq_comm]
      · rw [beq_false_of_ne here]
        simp [ih apart.2, Prod.ext_iff, here]

/-- HSET of distinct fields gives each its value. -/
theorem lookup_setFields {fields : List (String × String)} (nodup : (fields.map Prod.fst).Nodup)
    (h : Hash) (f : String) :
    (setFields (fields.flatMap fun x => [x.1, x.2]) h).lookup f =
      (fields.lookup f).or (h.lookup f) := by
  induction fields generalizing h with
  | nil => simp [setFields]
  | cons first rest ih =>
      have apart := List.nodup_cons.1 nodup
      have step : (setFields ((first :: rest).flatMap fun x => [x.1, x.2]) h) =
          setFields (rest.flatMap fun x => [x.1, x.2]) (h.insert first.1 first.2) := rfl
      rw [step, ih apart.2, List.lookup_cons]
      by_cases here : f = first.1
      · subst here
        have none : rest.lookup first.1 = none := by
          rw [List.lookup_eq_none_iff]
          intro x mem
          rw [bne_iff_ne]
          exact fun same => apart.1 (same ▸ List.mem_map_of_mem mem)
        rw [none, Finmap.lookup_insert]
        simp
      · rw [beq_false_of_ne here, Finmap.lookup_insert_of_ne _ here]

namespace Store
variable {s : Store} {key : String} {now : Int}

/-- HMSET of distinct fields under a new key, and what HGETALL then finds. -/
theorem hgetall_hmset (now : Int) (absent : s.data key = none) {fields : List (String × String)}
    (some_field : fields ≠ []) (nodup : (fields.map Prod.fst).Nodup) :
    ∃ s' h,
      s.exec now (.hashSet .hmset key (fields.flatMap fun x => [x.1, x.2])) = (s', .text "OK") ∧
      s'.exec now (.hgetall key) = (s', .hash h) ∧
      ∀ f v, h.lookup f = some v ↔ (f, v) ∈ fields := by
  have even : (fields.flatMap fun x => [x.1, x.2]).length % 2 = 0 := by
    simp [List.length_flatMap]
  have some_arg : (fields.flatMap fun x => [x.1, x.2]) ≠ [] := by
    cases fields with
    | nil => exact absurd rfl some_field
    | cons first rest => simp
  have empty : hashOf (s.data key) = some ∅ := by rw [absent, hashOf]
  refine ⟨s.put key (ofHash (setFields (fields.flatMap fun x => [x.1, x.2]) ∅)),
    setFields (fields.flatMap fun x => [x.1, x.2]) ∅, ?_, ?_, fun f v => ?_⟩
  · have right : ¬ ((fields.flatMap fun x => [x.1, x.2]) = [] ∨
        (fields.flatMap fun x => [x.1, x.2]).length % 2 = 1) := by
      rintro (none | odd)
      · exact some_arg none
      · omega
    rw [exec, execHashSet, execPairs, if_neg right, onHash, empty]
  · rw [exec, put_data, Function.update_self, hashOf_ofHash]
  · rw [lookup_setFields nodup, Finmap.lookup_empty, Option.or_none, lookup_eq_some nodup]

/-- SADD under a new key, and what SMEMBERS then finds. -/
theorem smembers_sadd (absent : s.data key = none) {members : List String}
    (some_member : members ≠ []) :
    ((s.exec now (.sadd key members)).1.exec now (.smembers key)).2 = .set members.toFinset := by
  have empty : membersOf (s.data key) = some ∅ := by rw [absent, membersOf]
  rw [exec, if_neg some_member, onSet, empty]
  dsimp only
  rw [exec, put_data, Function.update_self, membersOf_ofSet, Finset.empty_union]

theorem get_set (s : Store) (now : Int) (key text : String) :
    ((s.exec now (.stringSet false key text)).1.exec now (.get key)).2 = .text text := by
  simp [exec, execStringSet, textOf]
end Store
end PlainRedis
