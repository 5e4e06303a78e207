import FkServer.Service.CacheRedisd
import Mathlib.Data.List.TakeWhile

/-!
What callers of `cache_redisd.lua` see is what a plain Redis would have answered, as long as no
command touches a copy by a rule that Redis does not follow.
-/
namespace FkServer.CacheRedisd

open PlainRedis

/-- A copy that stands for what Redis holds under a key. -/
def Represents : Cached → Option Value → Prop
  | .nil, v => v = none
  | .scalar x, v => ∃ text, x = .str text ∧ v = some (.str text)
  | .table t, v => (∃ h, hashOf v = some h ∧ t = hashTable h) ∨
      ∃ m, membersOf v = some m ∧ t = setTable m

def Agrees (cache : Lua → Option Cached) (data : String → Option Value) : Prop :=
  ∀ key c, cache key = some c → Represents c (data (tostring key))

/-- Redis's key has no copy under another Lua key. -/
def Alone (cache : Lua → Option Cached) (key : Lua) : Prop :=
  ∀ k, k ≠ key → tostring k = tostring key → cache k = none

def Uncached (cache : Lua → Option Cached) (key : Lua) : Prop :=
  ∀ k, tostring k = tostring key → cache k = none

def IsTable (c : Option Cached) : Prop := ∃ t, c = some (.table t)

namespace Service

variable (s : Service)

/-- What Redis holds under a Lua key. -/
abbrev held (key : Lua) : Option Value := s.redis.data (tostring key)

def HashReady (key : Lua) : Prop := IsTable (s.cache key) ∧ (hashOf (s.held key)).isSome
def SetReady (key : Lua) : Prop := IsTable (s.cache key) ∧ (membersOf (s.held key)).isSome

/-- What HSET, HMSET and HSETNX may find in a copy. -/
def FieldsFit (key : Lua) (args : List Lua) : HashSet → Prop
  | .hsetnx => ∃ field value, args = [.str field, .str value] ∧
      ∀ h, hashOf (s.held key) = some h → h.lookup field = none
  | _ => args.length % 2 = 0 ∧ ∃ texts : List String, args = texts.map Lua.str

/-- The guard of a command, on the copies and on what Redis holds. -/
def Fits : Cmd Lua → Prop
  | .hashSet kind key args => Alone s.cache key ∧
      (s.cache key = none ∨ s.HashReady key ∧ s.FieldsFit key args kind)
  | .hmget key fields => s.cache key = none ∨ s.HashReady key ∧ fields ≠ [] ∧
      ∀ f ∈ fields, ∃ field, f = .str field ∧
        ∀ h, hashOf (s.held key) = some h → h.lookup field ≠ none
  | .hgetall key => s.cache key = none ∨ ∀ m, s.held key ≠ some (.set m)
  | .hdel key _ => Alone s.cache key ∧ (s.cache key = none ∨ s.HashReady key)
  | .hincrby key _ _ => Uncached s.cache key
  | .get key => ¬ IsTable (s.cache key)
  | .mget _ => True
  | .stringSet nx key value => Alone s.cache key ∧
      (s.cache key = none ∨ (∃ text, value = .str text) ∧ (nx = true → s.held key = none))
  | .setex _ _ => False
  | .mset args => args.length % 2 = 0 ∧ ∀ key ∈ pairKeys args, ∀ k,
      tostring k = tostring key → k ≠ .str (tostring key) → s.cache k = none
  | .incr key | .append key _ => Alone s.cache key
  | .sadd key _ | .srem key _ => Alone s.cache key ∧ (s.cache key = none ∨ s.SetReady key)
  | .smembers key => s.cache key = none ∨ ∀ h, s.held key ≠ some (.hash h)
  | .smove src target member => Alone s.cache src ∧ Alone s.cache target ∧
      (s.cache src = none ∨ IsTable (s.cache src)) ∧
      (s.cache target = none ∨ IsTable (s.cache target) ∧
        ∀ m, membersOf (s.held src) = some m → tostring member ∈ m) ∧
      (membersOf (s.held src)).isSome ∧ (membersOf (s.held target)).isSome
  | .spop key count _ => Alone s.cache key ∧
      (s.cache key = none ∨ s.SetReady key ∧ count.isSome)
  | .setStore _ dest _ => Alone s.cache dest
  | .del [] => True
  | .del (key :: rest) => Alone s.cache key ∧ ∀ k ∈ rest, ∀ k',
      tostring k' = tostring k → k' = key ∨ s.cache k' = none
  | .rename _ _ => False
  | .expire key seconds => Uncached s.cache key ∨
      ∀ n, parseInt (tostring seconds) = some n → 0 < n

end Service

/-! ### Copies as tables -/

variable {h : Hash} {m : Finset String} {t : LuaTable} {v : Option Value}

theorem hashTable_insert (h : Hash) (field value : String) :
    Function.update (hashTable h) (.str field) (some (.str value)) =
      hashTable (h.insert field value) := by
  funext k
  cases k with
  | str f =>
      by_cases same : f = field
      · rw [same, Function.update_self, hashTable, Finmap.lookup_insert]
        rfl
      · rw [Function.update_of_ne (fun eq => same (Lua.str.inj eq)), hashTable, hashTable,
          Finmap.lookup_insert_of_ne _ same]
  | int n => exact Function.update_of_ne Lua.noConfusion ..
  | bool b => exact Function.update_of_ne Lua.noConfusion ..

theorem hashTable_erase (h : Hash) (field : String) :
    Function.update (hashTable h) (.str field) none = hashTable (h.erase field) := by
  funext k
  cases k with
  | str f =>
      by_cases same : f = field
      · rw [same, Function.update_self, hashTable, Finmap.lookup_erase]
        rfl
      · rw [Function.update_of_ne (fun eq => same (Lua.str.inj eq)), hashTable, hashTable,
          Finmap.lookup_erase_ne same]
  | int n => exact Function.update_of_ne Lua.noConfusion ..
  | bool b => exact Function.update_of_ne Lua.noConfusion ..

theorem setTable_insert (m : Finset String) (member : String) :
    Function.update (setTable m) (.str member) (some (.bool true)) =
      setTable (insert member m) := by
  funext k
  cases k with
  | str x =>
      by_cases same : x = member
      · rw [same, Function.update_self, setTable, if_pos (Finset.mem_insert_self ..)]
      · rw [Function.update_of_ne (fun eq => same (Lua.str.inj eq)), setTable, setTable]
        simp only [Finset.mem_insert, same, false_or]
  | int n => exact Function.update_of_ne Lua.noConfusion ..
  | bool b => exact Function.update_of_ne Lua.noConfusion ..

theorem setTable_erase (m : Finset String) (member : String) :
    Function.update (setTable m) (.str member) none = setTable (m.erase member) := by
  funext k
  cases k with
  | str x =>
      by_cases same : x = member
      · rw [same, Function.update_self, setTable, if_neg (Finset.notMem_erase _ _)]
      · rw [Function.update_of_ne (fun eq => same (Lua.str.inj eq)), setTable, setTable]
        simp only [Finset.mem_erase, ne_eq, same, not_false_eq_true, true_and]
  | int n => exact Function.update_of_ne Lua.noConfusion ..
  | bool b => exact Function.update_of_ne Lua.noConfusion ..

theorem foldInto_hashTable (texts : List String) (h : Hash) (even : texts.length % 2 = 0) :
    foldInto (texts.map Lua.str) (hashTable h) = hashTable (setFields texts h) := by
  induction texts, h using setFields.induct with
  | case1 h field value rest ih =>
      rw [List.map_cons, List.map_cons, foldInto, hashTable_insert, setFields]
      apply ih
      rw [List.length_cons, List.length_cons] at even
      omega
  | case2 texts h short =>
      cases texts with
      | nil => rfl
      | cons field rest =>
          cases rest with
          | nil => cases even
          | cons value rest => exact absurd rfl (short field value rest)

theorem assign_hashTable (fields : List Lua) (h : Hash) :
    assign fields none (hashTable h) = hashTable (delFields (fields.map tostring) h) := by
  induction fields generalizing h with
  | nil => rfl
  | cons f rest ih =>
      have first := hashTable_erase h (tostring f)
      rw [assign, List.foldl_cons, first]
      exact ih (h.erase (tostring f))

theorem assign_setTable (members : List Lua) (m : Finset String) :
    assign members (some (.bool true)) (setTable m) =
      setTable (m ∪ (members.map tostring).toFinset) := by
  induction members generalizing m with
  | nil => simp [assign]
  | cons x rest ih =>
      have first := setTable_insert m (tostring x)
      rw [assign, List.foldl_cons, first]
      refine (ih (insert (tostring x) m)).trans (congrArg setTable ?_)
      rw [List.map_cons, List.toFinset_cons, Finset.insert_union, Finset.union_insert]

theorem unassign_setTable (members : List Lua) (m : Finset String) :
    assign members none (setTable m) = setTable (m \ (members.map tostring).toFinset) := by
  induction members generalizing m with
  | nil => simp [assign]
  | cons x rest ih =>
      have first := setTable_erase m (tostring x)
      rw [assign, List.foldl_cons, first]
      refine (ih (m.erase (tostring x))).trans (congrArg setTable ?_)
      rw [List.map_cons, List.toFinset_cons, Finset.erase_sdiff_comm, Finset.sdiff_insert]

theorem keysOf_setTable (m : Finset String) : keysOf (setTable m) = setTable m := by
  funext k
  cases k with
  | str x =>
      by_cases member : x ∈ m
      · simp [keysOf, setTable, member]
      · simp [keysOf, setTable, member]
  | int n => rfl
  | bool b => rfl

theorem hashTable_empty : hashTable ∅ = fun _ => none := by
  funext k
  cases k with
  | str f => rfl
  | int n => rfl
  | bool b => rfl

theorem setTable_empty : setTable ∅ = fun _ => none := by
  funext k
  cases k with
  | str f => rfl
  | int n => rfl
  | bool b => rfl

/-! ### Copies that stand for a value -/

theorem represents_ofHash (h : Hash) : Represents (.table (hashTable h)) (ofHash h) := by
  rw [ofHash]
  split
  · rename_i empty
    rw [eq_empty_of_keys empty]
    exact .inl ⟨∅, rfl, rfl⟩
  · exact .inl ⟨h, rfl, rfl⟩

theorem represents_ofSet (m : Finset String) : Represents (.table (setTable m)) (ofSet m) := by
  rw [ofSet]
  split
  · rename_i empty
    rw [empty]
    exact .inr ⟨∅, rfl, rfl⟩
  · exact .inr ⟨m, rfl, rfl⟩

/-- Nothing is both the empty hash and the empty set. -/
theorem both_empty (hash : hashOf v = some h) (set : membersOf v = some m) : h = ∅ ∧ m = ∅ := by
  cases v with
  | none => exact ⟨(Option.some.inj hash).symm, (Option.some.inj set).symm⟩
  | some v =>
      cases v with
      | str text => cases hash
      | hash fields => cases set
      | set members => cases hash

theorem Represents.hash (r : Represents (.table t) v) (found : hashOf v = some h) :
    t = hashTable h := by
  cases r with
  | inl hash =>
      obtain ⟨h', found', same⟩ := hash
      rw [same, Option.some.inj (found'.symm.trans found)]
  | inr set =>
      obtain ⟨m, found', same⟩ := set
      obtain ⟨none, none'⟩ := both_empty found found'
      rw [same, none, none', hashTable_empty, setTable_empty]

theorem Represents.set (r : Represents (.table t) v) (found : membersOf v = some m) :
    t = setTable m := by
  cases r with
  | inr set =>
      obtain ⟨m', found', same⟩ := set
      rw [same, Option.some.inj (found'.symm.trans found)]
  | inl hash =>
      obtain ⟨h, found', same⟩ := hash
      obtain ⟨none, none'⟩ := both_empty found' found
      rw [same, none, none', hashTable_empty, setTable_empty]

/-! ### One request -/

/-- A request answered as Redis answers it, with copies that still agree. -/
structure Served (now : Int) (s : Service) (cmd : Cmd Lua) (out : Service × LuaReply) : Prop where
  redis : out.1.redis = (s.redis.exec now (cmd.map tostring)).1
  reply : out.2 = .ofRedis (s.redis.exec now (cmd.map tostring)).2
  agrees : Agrees out.1.cache out.1.redis.data
  locked : out.1.locked = s.locked

variable {s : Service} {key : Lua} {now : Int} {cmd : Cmd Lua}
variable {cache cache' : Lua → Option Cached} {data data' : String → Option Value}

/-- Redis changed one key, and its one copy stands for the change. -/
theorem Agrees.write (agrees : Agrees cache data) (alone : Alone cache key)
    (frame : ∀ n, n ≠ tostring key → data' n = data n) (other : ∀ k, k ≠ key → cache' k = cache k)
    (here : ∀ c, cache' key = some c → Represents c (data' (tostring key))) :
    Agrees cache' data' := by
  intro k c copy
  by_cases same : k = key
  · rw [same] at copy ⊢
    exact here c copy
  · rw [other k same] at copy
    have apart : tostring k ≠ tostring key := by
      intro eq
      rw [alone k same eq] at copy
      cases copy
    rw [frame _ apart]
    exact agrees k c copy

/-- Nothing that has a copy changed. -/
theorem Agrees.frame (agrees : Agrees cache data)
    (frame : ∀ k c, cache k = some c → data' (tostring k) = data (tostring k)) :
    Agrees cache data' := by
  intro k c copy
  rw [frame k c copy]
  exact agrees k c copy

/-- The command only writes the key it names. -/
def WritesOnly (key : Lua) (cmd : Cmd Lua) : Prop :=
  ∀ n ∈ (cmd.map tostring).writes, n = tostring key

theorem exec_frame (s : Service) (now : Int) (only : WritesOnly key cmd) (n : String)
    (other : n ≠ tostring key) :
    (s.redis.exec now (cmd.map tostring)).1.data n = s.redis.data n :=
  Store.exec_data _ fun member => other (only n member)

/-- A rule that follows what Redis does with the key. -/
theorem Served.updating {rule : Cached → Option Cached} (agrees : Agrees s.cache s.redis.data)
    (alone : Alone s.cache key) (only : WritesOnly key cmd)
    (follows : ∀ c, s.cache key = some c → ∃ c', rule c = some c' ∧
      Represents c' ((s.redis.exec now (cmd.map tostring)).1.data (tostring key))) :
    Served now s cmd (s.updating now key rule cmd) := by
  rw [Service.updating]
  cases copy : s.cache key with
  | none =>
      refine ⟨rfl, rfl, ?_, rfl⟩
      refine agrees.write alone (exec_frame s now only) (fun _ _ => rfl) fun c found => ?_
      have none : (none : Option Cached) = some c := copy.symm.trans found
      cases none
  | some c =>
      obtain ⟨c', ruled, stands⟩ := follows c copy
      dsimp only
      rw [ruled]
      refine ⟨rfl, rfl, ?_, rfl⟩
      refine agrees.write alone (exec_frame s now only) (fun k other => ?_) fun c found => ?_
      · exact Function.update_of_ne other ..
      · have updated : Function.update s.cache key (some c') key = some c := found
        rw [Function.update_self] at updated
        rw [← Option.some.inj updated]
        exact stands

/-- The same for a key without a copy or with one that is `ready`. -/
theorem Served.updatingReady {rule : Cached → Option Cached} {ready : Prop}
    (agrees : Agrees s.cache s.redis.data) (alone : Alone s.cache key) (only : WritesOnly key cmd)
    (fits : s.cache key = none ∨ ready)
    (follows : ready → ∃ c c', s.cache key = some c ∧ rule c = some c' ∧
      Represents c' ((s.redis.exec now (cmd.map tostring)).1.data (tostring key))) :
    Served now s cmd (s.updating now key rule cmd) := by
  refine Served.updating agrees alone only fun c copy => ?_
  cases fits with
  | inl none =>
      rw [none] at copy
      cases copy
  | inr ready =>
      obtain ⟨_, c', copied, ruled, stands⟩ := follows ready
      cases copy.symm.trans copied
      exact ⟨c', ruled, stands⟩

/-- A request that leaves the copies alone, on keys that have none. -/
theorem Served.doRedisCommand (agrees : Agrees s.cache s.redis.data)
    (frame : ∀ k c, s.cache k = some c →
      (s.redis.exec now (cmd.map tostring)).1.data (tostring k) = s.redis.data (tostring k)) :
    Served now s cmd (s.doRedisCommand now cmd) :=
  ⟨rfl, rfl, agrees.frame frame, rfl⟩

theorem writesOnly_of_eq (key : Lua) (cmd : Cmd Lua)
    (h : (cmd.map tostring).writes = [tostring key]) : WritesOnly key cmd := by
  intro n member
  rw [h] at member
  exact List.mem_singleton.1 member

/-- A ready copy is the table of what Redis holds. -/
theorem Service.HashReady.copy (agrees : Agrees s.cache s.redis.data) (ready : s.HashReady key) :
    ∃ h, hashOf (s.held key) = some h ∧ s.cache key = some (.table (hashTable h)) := by
  obtain ⟨⟨t, copy⟩, found⟩ := ready
  obtain ⟨h, found⟩ := Option.isSome_iff_exists.1 found
  have stands := (agrees key _ copy).hash found
  rw [stands] at copy
  exact ⟨h, found, copy⟩

theorem Service.SetReady.copy (agrees : Agrees s.cache s.redis.data) (ready : s.SetReady key) :
    ∃ m, membersOf (s.held key) = some m ∧ s.cache key = some (.table (setTable m)) := by
  obtain ⟨⟨t, copy⟩, found⟩ := ready
  obtain ⟨m, found⟩ := Option.isSome_iff_exists.1 found
  have stands := (agrees key _ copy).set found
  rw [stands] at copy
  exact ⟨m, found, copy⟩

/-- A copy that was just read. -/
theorem Agrees.learn {c : Cached} (agrees : Agrees cache data)
    (stands : Represents c (data (tostring key))) :
    Agrees (Function.update cache key (some c)) data := by
  intro k c' copy
  by_cases same : k = key
  · rw [same, Function.update_self] at copy
    rw [same, ← Option.some.inj copy]
    exact stands
  · rw [Function.update_of_ne same] at copy
    exact agrees k c' copy

/-! ### Hashes -/

theorem execPairs_stands (copy : Represents (.table (hashTable h)) (s.held key))
    (found : hashOf (s.held key) = some h) (texts : List String) (even : texts.length % 2 = 0)
    (reply : Hash → Reply) :
    Represents (.table (hashTable (setFields texts h)))
      ((s.redis.execPairs (tostring key) texts reply).1.data (tostring key)) := by
  rw [Store.execPairs]
  split
  · rename_i refused
    cases refused with
    | inl empty =>
        rw [empty]
        exact copy
    | inr odd => omega
  · rw [Store.onHash_data found]
    exact represents_ofHash _

theorem map_tostring (texts : List String) : (texts.map Lua.str).map tostring = texts := by
  rw [List.map_map]
  exact List.map_id texts

theorem hashSet_served {kind : HashSet} {args : List Lua} (agrees : Agrees s.cache s.redis.data)
    (fits : s.Fits (.hashSet kind key args)) :
    Served now s (.hashSet kind key args) (s.hashSet now kind key args) := by
  obtain ⟨alone, fits⟩ := fits
  refine Served.updatingReady agrees alone (writesOnly_of_eq key _ rfl) fits fun ready => ?_
  obtain ⟨h, found, copied⟩ := ready.1.copy agrees
  have stands := agrees key _ copied
  refine ⟨_, _, copied, rfl, ?_⟩
  cases kind with
  | hset =>
      obtain ⟨even, texts, eq⟩ := ready.2
      rw [eq, List.length_map] at even
      rw [eq, foldInto_hashTable texts h even, Cmd.map, map_tostring]
      exact execPairs_stands stands found texts even _
  | hmset =>
      obtain ⟨even, texts, eq⟩ := ready.2
      rw [eq, List.length_map] at even
      rw [eq, foldInto_hashTable texts h even, Cmd.map, map_tostring]
      exact execPairs_stands stands found texts even _
  | hsetnx =>
      obtain ⟨field, value, eq, absent⟩ := ready.2
      rw [eq]
      have copied := hashTable_insert h field value
      rw [foldInto, foldInto, copied]
      show Represents _ ((s.redis.onHash (tostring key) _).1.data (tostring key))
      have free : ¬ (h.lookup (tostring (.str field))).isSome = true := by
        rw [show h.lookup (tostring (.str field)) = none from absent h found]
        exact Bool.false_ne_true
      rw [Store.onHash_data found, if_neg free]
      exact represents_ofHash _

theorem exec_hgetall (found : hashOf (s.held key) = some h) :
    s.redis.exec now (.hgetall (tostring key)) = (s.redis, .hash h) := by
  rw [Store.exec, found]

theorem exec_hgetall_error (other : hashOf (s.held key) = none) :
    s.redis.exec now (.hgetall (tostring key)) = (s.redis, .error) := by
  rw [Store.exec, other]

/-- A request that Redis answers without a change, and here a copy may be learnt. -/
theorem Served.read {reply : Reply} {out : Service × LuaReply}
    (exec : s.redis.exec now (cmd.map tostring) = (s.redis, reply)) (redis : out.1.redis = s.redis)
    (same : out.2 = .ofRedis reply) (agrees : Agrees out.1.cache s.redis.data)
    (locked : out.1.locked = s.locked) : Served now s cmd out := by
  refine ⟨?_, ?_, ?_, locked⟩
  · rw [exec, redis]
  · rw [exec, same]
  · rw [redis]
    exact agrees

theorem hashGet_served (agrees : Agrees s.cache s.redis.data) (fits : s.Fits (.hgetall key)) :
    Served now s (.hgetall key) (s.hashGet now key) := by
  rw [Service.hashGet]
  cases copy : s.cache key with
  | none =>
      cases found : hashOf (s.held key) with
      | none =>
          have out : s.exec now (.hgetall key) = (s, .error) := by
            rw [Service.exec, Cmd.map, exec_hgetall_error found]
          dsimp only
          rw [out]
          exact .read (exec_hgetall_error found) rfl rfl agrees rfl
      | some h =>
          have out : s.exec now (.hgetall key) = (s, .hash h) := by
            rw [Service.exec, Cmd.map, exec_hgetall found]
          dsimp only
          rw [out]
          exact .read (exec_hgetall found) rfl rfl (agrees.learn (.inl ⟨h, found, rfl⟩)) rfl
  | some c =>
      have stands := agrees key c copy
      cases c with
      | nil =>
          have found : hashOf (s.held key) = some ∅ := congrArg hashOf stands
          exact .read (exec_hgetall found) rfl (congrArg LuaReply.hash hashTable_empty.symm) agrees rfl
      | scalar x =>
          obtain ⟨text, eq, holds⟩ := stands
          rw [eq]
          exact .read (exec_hgetall_error (congrArg hashOf holds)) rfl rfl agrees rfl
      | table t =>
          -- the guard leaves a hash or nothing
          have hash : ∃ h, hashOf (s.held key) = some h := by
            cases fits with
            | inl none =>
                rw [none] at copy
                cases copy
            | inr noset =>
                cases stands with
                | inl hash => exact ⟨_, hash.choose_spec.1⟩
                | inr set =>
                    obtain ⟨m, found, -⟩ := set
                    cases holds : s.held key with
                    | none => exact ⟨∅, rfl⟩
                    | some v =>
                        cases v with
                        | str text =>
                            rw [show s.redis.data (tostring key) = _ from holds] at found
                            cases found
                        | hash fields => exact ⟨fields, rfl⟩
                        | set members => exact absurd holds (noset members)
          obtain ⟨h, found⟩ := hash
          exact .read (exec_hgetall found) rfl (congrArg LuaReply.hash (stands.hash found)) agrees rfl

theorem hashDel_served {fields : List Lua} (agrees : Agrees s.cache s.redis.data)
    (fits : s.Fits (.hdel key fields)) :
    Served now s (.hdel key fields) (s.hashDel now key fields) := by
  obtain ⟨alone, fits⟩ := fits
  refine Served.updatingReady agrees alone (writesOnly_of_eq key _ rfl) fits fun ready => ?_
  obtain ⟨h, found, copied⟩ := ready.copy agrees
  refine ⟨_, _, copied, rfl, ?_⟩
  rw [assign_hashTable, Cmd.map, Store.exec]
  split
  · rename_i empty
    rw [empty]
    exact agrees key _ copied
  · rw [Store.onHash_data found]
    exact represents_ofHash _

theorem hashGetSet_served {field amount : Lua} (agrees : Agrees s.cache s.redis.data)
    (fits : s.Fits (.hincrby key field amount)) :
    Served now s (.hincrby key field amount) (s.hashGetSet now key field amount) := by
  have uncached : s.cache key = none := fits key rfl
  have plain : s.hashGetSet now key field amount = s.doRedisCommand now (.hincrby key field amount) := by
    rw [Service.hashGetSet, Service.doRedisCommand]
    have kept : (s.exec now (.hincrby key field amount)).1.cache key = none := uncached
    generalize s.exec now (.hincrby key field amount) = out at kept
    obtain ⟨s', reply⟩ := out
    cases reply with
    | int n =>
        dsimp only at kept ⊢
        rw [kept]
        rfl
    | _ => rfl
  rw [plain]
  refine Served.doRedisCommand agrees fun k c copy => ?_
  apply exec_frame s now (writesOnly_of_eq key (.hincrby key field amount) rfl)
  intro same
  rw [fits k same] at copy
  cases copy

/-- The fields that are asked for, one by one. -/
theorem filterMap_hashTable {fields : List Lua}
    (present : ∀ f ∈ fields, ∃ field, f = .str field ∧ h.lookup field ≠ none) :
    (fields.filterMap (hashTable h)).map some =
      ((fields.map tostring).map h.lookup).map (Option.map Lua.str) := by
  induction fields with
  | nil => rfl
  | cons f rest ih =>
      obtain ⟨field, eq, there⟩ := present f (List.mem_cons_self ..)
      obtain ⟨value, found⟩ := Option.ne_none_iff_exists'.1 there
      have first : hashTable h f = some (.str value) := by
        rw [eq, hashTable, found]
        rfl
      have named : h.lookup (tostring f) = some value := by
        rw [eq]
        exact found
      rw [List.filterMap_cons_some first, List.map_cons, List.map_cons, List.map_cons, List.map_cons,
        named, ih fun g member => present g (List.mem_cons_of_mem _ member)]
      rfl

theorem hashBatchGet_served {fields : List Lua} (agrees : Agrees s.cache s.redis.data)
    (fits : s.Fits (.hmget key fields)) :
    Served now s (.hmget key fields) (s.hashBatchGet now key fields) := by
  rw [Service.hashBatchGet]
  cases fits with
  | inl none =>
      rw [none]
      refine Served.doRedisCommand agrees fun k c copy => ?_
      exact Store.exec_data _ List.not_mem_nil
  | inr ready =>
      obtain ⟨ready, nonempty, present⟩ := ready
      obtain ⟨h, found, copied⟩ := ready.copy agrees
      have strings : ∀ f ∈ fields, ∃ field, f = .str field ∧ h.lookup field ≠ none := by
        intro f member
        obtain ⟨field, eq, there⟩ := present f member
        exact ⟨field, eq, there h found⟩
      have missing : (fields.filter fun f => ((hashTable h f).map Lua.falsy).getD true) = [] := by
        apply List.filter_eq_nil_iff.2
        intro f member
        obtain ⟨field, eq, there⟩ := strings f member
        obtain ⟨value, found⟩ := Option.ne_none_iff_exists'.1 there
        rw [eq, hashTable, found]
        exact Bool.false_ne_true
      have exec : s.redis.exec now (.hmget (tostring key) (fields.map tostring)) =
          (s.redis, .list ((fields.map tostring).map h.lookup)) := by
        rw [Store.exec, found]
        dsimp only
        rw [if_neg (mt List.map_eq_nil_iff.1 nonempty)]
      rw [copied]
      dsimp only
      rw [Service.batchRead, if_pos missing]
      exact .read exec rfl (congrArg LuaReply.list (filterMap_hashTable strings)) agrees rfl

/-! ### Strings -/

theorem exec_get {text : Option String} (found : textOf (s.held key) = some text) :
    s.redis.exec now (.get (tostring key)) =
      (s.redis, (text.map Reply.text).getD .nil) := by
  rw [Store.exec, found]
  cases text with
  | none => rfl
  | some text => rfl

theorem exec_get_error (other : textOf (s.held key) = none) :
    s.redis.exec now (.get (tostring key)) = (s.redis, .error) := by
  rw [Store.exec, other]

theorem stands_of_textOf {text : Option String} (found : textOf v = some text) :
    Represents ((text.map fun text => Cached.scalar (.str text)).getD .nil) v := by
  cases v with
  | none =>
      cases found
      exact rfl
  | some v =>
      cases v with
      | str text' =>
          cases found
          exact ⟨text', rfl, rfl⟩
      | hash fields => cases found
      | set members => cases found

theorem stringGet_served (agrees : Agrees s.cache s.redis.data) (fits : s.Fits (.get key)) :
    Served now s (.get key) (s.stringGet now key) := by
  rw [Service.stringGet]
  cases copy : s.cache key with
  | some c =>
      have stands := agrees key c copy
      cases c with
      | nil => exact .read (exec_get (congrArg textOf stands)) rfl rfl agrees rfl
      | scalar x =>
          obtain ⟨text, eq, holds⟩ := stands
          rw [eq]
          exact .read (exec_get (congrArg textOf holds)) rfl rfl agrees rfl
      | table t => exact absurd ⟨t, copy⟩ fits
  | none =>
      dsimp only
      cases found : textOf (s.held key) with
      | none =>
          have out : s.exec now (.get key) = (s, .error) := by
            rw [Service.exec, Cmd.map, exec_get_error found]
          rw [out]
          exact .read (exec_get_error found) rfl rfl agrees rfl
      | some text =>
          have out : s.exec now (.get key) = (s, (text.map Reply.text).getD .nil) := by
            rw [Service.exec, Cmd.map, exec_get found]
          have learnt := agrees.learn (stands_of_textOf found)
          rw [out]
          cases text with
          | none => exact .read (exec_get found) rfl rfl learnt rfl
          | some text => exact .read (exec_get found) rfl rfl learnt rfl

theorem mget_served {keys : List Lua} (agrees : Agrees s.cache s.redis.data) :
    Served now s (.mget keys) (s.doRedisCommand now (.mget keys)) :=
  Served.doRedisCommand agrees fun _ _ _ => Store.exec_data _ List.not_mem_nil

theorem stringSet_served {nx : Bool} {value : Lua} (agrees : Agrees s.cache s.redis.data)
    (fits : s.Fits (.stringSet nx key value)) :
    Served now s (.stringSet nx key value) (s.stringSet now nx key value) := by
  obtain ⟨alone, fits⟩ := fits
  refine Served.updating agrees alone (writesOnly_of_eq key _ rfl) fun c copy => ⟨_, rfl, ?_⟩
  cases fits with
  | inl none =>
      rw [none] at copy
      cases copy
  | inr fits =>
      obtain ⟨⟨text, eq⟩, free⟩ := fits
      refine ⟨text, eq, ?_⟩
      rw [eq, Cmd.map, Store.exec, Store.execStringSet]
      split
      · rename_i only
        have none : s.redis.data (tostring key) = none := free only
        rw [none]
        exact Function.update_self ..
      · exact Function.update_self ..

theorem foldl_clearCache (s : Service) (keys : List Lua) :
    ((keys.foldl (fun s key => s.clearCache (.str (tostring key))) s).redis = s.redis) ∧
      (keys.foldl (fun s key => s.clearCache (.str (tostring key))) s).locked = s.locked ∧
      ∀ k c, (keys.foldl (fun s key => s.clearCache (.str (tostring key))) s).cache k = some c →
        s.cache k = some c ∧ ∀ key ∈ keys, k ≠ .str (tostring key) := by
  induction keys generalizing s with
  | nil => exact ⟨rfl, rfl, fun k c copy => ⟨copy, fun _ h => absurd h List.not_mem_nil⟩⟩
  | cons key rest ih =>
      obtain ⟨redis, locked, kept⟩ := ih (s.clearCache (.str (tostring key)))
      refine ⟨redis, locked, fun k c copy => ?_⟩
      obtain ⟨before, apart⟩ := kept k c copy
      have other : k ≠ .str (tostring key) := by
        intro same
        have cleared : Function.update s.cache (.str (tostring key)) none k = some c := before
        rw [same, Function.update_self] at cleared
        cases cleared
      have old : Function.update s.cache (.str (tostring key)) none k = some c := before
      rw [Function.update_of_ne other] at old
      refine ⟨old, fun key' member => ?_⟩
      cases List.mem_cons.1 member with
      | inl same =>
          rw [same]
          exact other
      | inr later => exact apart key' later

theorem stringMset_served {args : List Lua} (agrees : Agrees s.cache s.redis.data)
    (fits : s.Fits (.mset args)) : Served now s (.mset args) (s.stringMset now args) := by
  obtain ⟨redis, locked, kept⟩ := foldl_clearCache s (pairKeys args)
  refine ⟨?_, ?_, ?_, locked⟩
  · exact congrArg (fun r => (r.exec now ((Cmd.mset args).map tostring)).1) redis
  · exact congrArg (fun r => LuaReply.ofRedis (r.exec now ((Cmd.mset args).map tostring)).2) redis
  · intro k c copy
    obtain ⟨old, apart⟩ := kept k c copy
    show Represents c ((Store.exec _ now ((Cmd.mset args).map tostring)).1.data (tostring k))
    rw [redis, Store.exec_data]
    · exact agrees k c old
    · intro member
      rw [Cmd.map, Cmd.writes, pairKeys_map] at member
      obtain ⟨key, listed, same⟩ := List.mem_map.1 member
      have none := fits.2 key listed k same.symm (apart key listed)
      rw [none] at old
      cases old

theorem stringGetSet_served (agrees : Agrees s.cache s.redis.data) (alone : Alone s.cache key)
    (only : WritesOnly key cmd)
    (refused : (s.redis.exec now (cmd.map tostring)).2 = .error →
      (s.redis.exec now (cmd.map tostring)).1 = s.redis) :
    Served now s cmd (s.stringGetSet now key cmd) := by
  have frame := exec_frame s now only
  rw [Service.stringGetSet]
  have exec : s.exec now cmd = ({ s with redis := (s.redis.exec now (cmd.map tostring)).1 },
    (s.redis.exec now (cmd.map tostring)).2) := rfl
  cases reply : (s.redis.exec now (cmd.map tostring)).2 with
  | error =>
      rw [exec, reply]
      refine ⟨rfl, congrArg LuaReply.ofRedis reply.symm, ?_, rfl⟩
      rw [show ({ s with redis := (s.redis.exec now (cmd.map tostring)).1 } : Service).redis = s.redis
        from refused reply]
      exact agrees
  | _ =>
      rw [exec, reply]
      refine ⟨rfl, congrArg LuaReply.ofRedis reply.symm, ?_, rfl⟩
      refine agrees.write alone frame (fun k other => Function.update_of_ne other ..) fun c copy => ?_
      have cleared : Function.update s.cache key none key = some c := copy
      rw [Function.update_self] at cleared
      cases cleared

theorem onText_error {f : Option String → Option (String × Int)} {n : String}
    (h : (s.redis.onText n f).2 = .error) : (s.redis.onText n f).1 = s.redis := by
  rw [Store.onText] at h ⊢
  split
  · rfl
  · rename_i found
    rw [found] at h
    dsimp only at h
    split
    · rfl
    · rename_i given
      rw [given] at h
      cases h

theorem incr_served (agrees : Agrees s.cache s.redis.data) (fits : s.Fits (.incr key)) :
    Served now s (.incr key) (s.stringGetSet now key (.incr key)) :=
  stringGetSet_served agrees fits (writesOnly_of_eq key _ rfl) onText_error

theorem append_served {value : Lua} (agrees : Agrees s.cache s.redis.data)
    (fits : s.Fits (.append key value)) :
    Served now s (.append key value) (s.stringGetSet now key (.append key value)) :=
  stringGetSet_served agrees fits (writesOnly_of_eq key _ rfl) onText_error

/-! ### Sets -/

theorem setAdd_served {members : List Lua} (agrees : Agrees s.cache s.redis.data)
    (fits : s.Fits (.sadd key members)) :
    Served now s (.sadd key members) (s.setAdd now key members) := by
  obtain ⟨alone, fits⟩ := fits
  refine Served.updatingReady agrees alone (writesOnly_of_eq key _ rfl) fits fun ready => ?_
  obtain ⟨m, found, copied⟩ := ready.copy agrees
  refine ⟨_, _, copied, rfl, ?_⟩
  rw [assign_setTable, Cmd.map, Store.exec]
  split
  · rename_i empty
    rw [empty, List.toFinset_nil, Finset.union_empty]
    exact agrees key _ copied
  · rw [Store.onSet_data found]
    exact represents_ofSet _

theorem setDel_served {members : List Lua} (agrees : Agrees s.cache s.redis.data)
    (fits : s.Fits (.srem key members)) :
    Served now s (.srem key members) (s.setDel now key members) := by
  obtain ⟨alone, fits⟩ := fits
  refine Served.updatingReady agrees alone (writesOnly_of_eq key _ rfl) fits fun ready => ?_
  obtain ⟨m, found, copied⟩ := ready.copy agrees
  refine ⟨_, _, copied, rfl, ?_⟩
  rw [unassign_setTable, Cmd.map, Store.exec]
  split
  · rename_i empty
    rw [empty, List.toFinset_nil, Finset.sdiff_empty]
    exact agrees key _ copied
  · rw [Store.onSet_data found]
    exact represents_ofSet _

theorem exec_smembers (found : membersOf (s.held key) = some m) :
    s.redis.exec now (.smembers (tostring key)) = (s.redis, .set m) := by
  rw [Store.exec, found]

theorem exec_smembers_error (other : membersOf (s.held key) = none) :
    s.redis.exec now (.smembers (tostring key)) = (s.redis, .error) := by
  rw [Store.exec, other]

theorem setGet_served (agrees : Agrees s.cache s.redis.data) (fits : s.Fits (.smembers key)) :
    Served now s (.smembers key) (s.setGet now key) := by
  rw [Service.setGet]
  cases copy : s.cache key with
  | none =>
      dsimp only
      cases found : membersOf (s.held key) with
      | none =>
          have out : s.exec now (.smembers key) = (s, .error) := by
            rw [Service.exec, Cmd.map, exec_smembers_error found]
          rw [out]
          exact .read (exec_smembers_error found) rfl rfl agrees rfl
      | some m =>
          have out : s.exec now (.smembers key) = (s, .set m) := by
            rw [Service.exec, Cmd.map, exec_smembers found]
          rw [out]
          exact .read (exec_smembers found) rfl rfl (agrees.learn (.inr ⟨m, found, rfl⟩)) rfl
  | some c =>
      have stands := agrees key c copy
      cases c with
      | nil =>
          have found : membersOf (s.held key) = some ∅ := congrArg membersOf stands
          exact .read (exec_smembers found) rfl (congrArg LuaReply.keys setTable_empty.symm) agrees rfl
      | scalar x =>
          obtain ⟨text, eq, holds⟩ := stands
          rw [eq]
          exact .read (exec_smembers_error (congrArg membersOf holds)) rfl rfl agrees rfl
      | table t =>
          have set : ∃ m, membersOf (s.held key) = some m := by
            cases fits with
            | inl none =>
                rw [none] at copy
                cases copy
            | inr nohash =>
                cases stands with
                | inr set => exact ⟨_, set.choose_spec.1⟩
                | inl hash =>
                    obtain ⟨h, found, -⟩ := hash
                    cases holds : s.held key with
                    | none => exact ⟨∅, rfl⟩
                    | some v =>
                        cases v with
                        | str text =>
                            rw [show s.redis.data (tostring key) = _ from holds] at found
                            cases found
                        | hash fields => exact absurd holds (nohash fields)
                        | set members => exact ⟨members, rfl⟩
          obtain ⟨m, found⟩ := set
          have members : keysOf t = setTable m := by
            rw [stands.set found, keysOf_setTable]
          exact .read (exec_smembers found) rfl (congrArg LuaReply.keys members) agrees rfl

theorem setPop_served {count : Option Lua} {picked : List String}
    (agrees : Agrees s.cache s.redis.data) (fits : s.Fits (.spop key count picked)) :
    Served now s (.spop key count picked) (s.setPop now key count picked) := by
  obtain ⟨alone, fits⟩ := fits
  have frame := exec_frame s now (writesOnly_of_eq key (.spop key count picked) rfl)
  cases fits with
  | inl none =>
      have plain : s.setPop now key count picked = s.doRedisCommand now (.spop key count picked) := by
        rw [Service.setPop, Service.doRedisCommand]
        have kept : (s.exec now (.spop key count picked)).1.cache key = .none := none
        generalize s.exec now (.spop key count picked) = out at kept
        obtain ⟨s', reply⟩ := out
        cases reply with
        | text member =>
            dsimp only at kept ⊢
            rw [kept]
            rfl
        | set m =>
            dsimp only at kept ⊢
            rw [kept]
            rfl
        | _ => rfl
      rw [plain]
      refine Served.doRedisCommand agrees fun k c copy => frame _ fun same => ?_
      by_cases here : k = key
      · rw [here, none] at copy
        cases copy
      · rw [alone k here same] at copy
        cases copy
  | inr ready =>
      obtain ⟨ready, counted⟩ := ready
      obtain ⟨count, rfl⟩ := Option.isSome_iff_exists.1 counted
      obtain ⟨m, found, copied⟩ := ready.copy agrees
      have refused : s.redis.exec now ((Cmd.spop key (some count) picked).map tostring) =
          (s.redis, .error) → Served now s (.spop key (some count) picked)
            (s.setPop now key (some count) picked) := by
        intro exec
        have out : s.exec now (.spop key (some count) picked) = (s, .error) := by
          rw [Service.exec, exec]
        rw [Service.setPop, out]
        exact .read exec rfl rfl agrees rfl
      cases parsed : parseInt (tostring count) with
      | none =>
          apply refused
          rw [Cmd.map, Store.exec, Option.map_some, Store.execSpop, parsed]
      | some n =>
          by_cases negative : n < 0
          · apply refused
            rw [Cmd.map, Store.exec, Option.map_some, Store.execSpop, parsed]
            exact if_pos negative
          · have exec : s.redis.exec now ((Cmd.spop key (some count) picked).map tostring) =
                (s.redis.put (tostring key) (ofSet (m.filter (· ∉ picked))),
                  .set (m.filter (· ∈ picked))) := by
              rw [Cmd.map, Store.exec, Option.map_some, Store.execSpop, parsed]
              dsimp only
              rw [if_neg negative, Store.onSet, found]
            have out : s.exec now (.spop key (some count) picked) =
                ({ s with redis := s.redis.put (tostring key) (ofSet (m.filter (· ∉ picked))) },
                  .set (m.filter (· ∈ picked))) := by
              rw [Service.exec, exec]
            have left : (fun k => if (setTable (m.filter (· ∈ picked)) k).isSome then none
                else setTable m k) = setTable (m.filter (· ∉ picked)) := by
              funext k
              cases k with
              | str x =>
                  by_cases taken : x ∈ picked
                  · by_cases member : x ∈ m
                    · simp [setTable, taken, member]
                    · simp [setTable, member]
                  · by_cases member : x ∈ m
                    · simp [setTable, taken, member]
                    · simp [setTable, member]
              | int n => rfl
              | bool b => rfl
            rw [Service.setPop, out]
            dsimp only
            rw [copied]
            dsimp only
            rw [left]
            refine ⟨by rw [exec]; rfl, by rw [exec]; rfl, ?_, rfl⟩
            refine agrees.write alone (fun n other => Store.put_of_ne other _)
              (fun k other => Function.update_of_ne other ..) fun c copy => ?_
            have updated : Function.update s.cache key (some (Cached.table _)) key = some c := copy
            rw [Function.update_self] at updated
            rw [← Option.some.inj updated]
            have held : (s.redis.put (tostring key) (ofSet (m.filter (· ∉ picked)))).data
                (tostring key) = ofSet (m.filter (· ∉ picked)) := Function.update_self ..
            show Represents _ ((s.redis.put (tostring key) _).data (tostring key))
            rw [held]
            exact represents_ofSet _

/-- What SMOVE does to the copy of one key, if it has one. -/
structure Moved (s s' : Service) (key member : Lua) (v : Option Lua) : Prop where
  redis : s'.redis = s.redis
  locked : s'.locked = s.locked
  other : ∀ k, k ≠ key → s'.cache k = s.cache k
  none : s.cache key = none → s'.cache key = none
  table : ∀ t, s.cache key = some (.table t) →
    s'.cache key = some (.table (Function.update t (.str (tostring member)) v))

theorem moveRule_moved (member : Lua) (v : Option Lua)
    (copy : s.cache key = none ∨ IsTable (s.cache key)) :
    ∃ s', s.moveRule key member v = some s' ∧ Moved s s' key member v := by
  cases copy with
  | inl none =>
      refine ⟨s, ?_, rfl, rfl, fun _ _ => rfl, fun _ => none, fun t copy => ?_⟩
      · rw [Service.moveRule, none]
      · rw [none] at copy
        cases copy
  | inr table =>
      obtain ⟨t, copy⟩ := table
      refine ⟨s.setCache key (.table (assign [member] v t)), ?_, rfl, rfl,
        fun k other => Function.update_of_ne other .., fun none => ?_, fun t' copy' => ?_⟩
      · rw [Service.moveRule, copy]
        rfl
      · rw [none] at copy
        cases copy
      · cases copy.symm.trans copy'
        exact Function.update_self ..

theorem setMove_served {src target member : Lua} (agrees : Agrees s.cache s.redis.data)
    (fits : s.Fits (.smove src target member)) :
    Served now s (.smove src target member) (s.setMove now src target member) := by
  obtain ⟨alone, alone', copy, copy', typed, typed'⟩ := fits
  obtain ⟨m, here⟩ := Option.isSome_iff_exists.1 typed
  obtain ⟨n, there⟩ := Option.isSome_iff_exists.1 typed'
  obtain ⟨s₁, first, moved⟩ := moveRule_moved member none copy
  have copy₁ : s₁.cache target = none ∨ IsTable (s₁.cache target) := by
    by_cases same : target = src
    · rw [same]
      cases copy with
      | inl none => exact .inl (moved.none none)
      | inr table =>
          obtain ⟨t, found⟩ := table
          exact .inr ⟨_, moved.table t found⟩
    · rw [moved.other target same]
      exact copy'.imp_right And.left
  obtain ⟨s₂, second, moved'⟩ := moveRule_moved member (some (.bool true)) copy₁
  have redis : s₂.redis = s.redis := moved'.redis.trans moved.redis
  have out : s.setMove now src target member = s₂.doRedisCommand now (.smove src target member) := by
    rw [Service.setMove, first]
    dsimp only
    rw [second]
  have exec := Store.execSmove_eq here there (tostring member)
  rw [out]
  refine ⟨?_, ?_, ?_, moved'.locked.trans moved.locked⟩
  · exact congrArg (fun r => (r.exec now ((Cmd.smove src target member).map tostring)).1) redis
  · exact congrArg
      (fun r => LuaReply.ofRedis (r.exec now ((Cmd.smove src target member).map tostring)).2) redis
  show Agrees s₂.cache (s₂.redis.execSmove (tostring src) (tostring target) (tostring member)).1.data
  rw [redis]
  intro k c found
  by_cases at_target : k = target
  · rw [at_target] at found ⊢
    by_cases same : target = src
    · -- one set, whose copy loses the member and gets it back
      rw [same] at found moved' ⊢
      have store : (s.redis.execSmove (tostring src) (tostring src) (tostring member)).1 = s.redis := by
        rw [Store.execSmove_eq here here]
        split
        · rfl
        · exact congrArg Prod.fst (if_pos rfl)
      rw [store]
      cases copy with
      | inl none =>
          rw [moved'.none (moved.none none)] at found
          cases found
      | inr table =>
          obtain ⟨t, copied⟩ := table
          rw [moved'.table _ (moved.table t copied), Function.update_idem] at found
          have stands := agrees src _ copied
          have held : tostring member ∈ m := by
            cases copy' with
            | inl none =>
                rw [same, copied] at none
                cases none
            | inr inside => exact inside.2 m here
          rw [← Option.some.inj found, stands.set here, setTable_insert, Finset.insert_eq_of_mem held]
          exact .inr ⟨m, here, rfl⟩
    · cases copy' with
      | inl none =>
          rw [moved'.none ((moved.other target same).trans none)] at found
          cases found
      | inr table =>
          obtain ⟨⟨t, copied⟩, inside⟩ := table
          have apart : tostring src ≠ tostring target := by
            intro eq
            rw [alone target same eq.symm] at copied
            cases copied
          rw [moved'.table t ((moved.other target same).trans copied)] at found
          rw [← Option.some.inj found, (agrees target _ copied).set there, setTable_insert, exec,
            if_neg (not_not.2 (inside m here)), if_neg apart, Store.put_data, Function.update_self]
          exact represents_ofSet _
  · rw [moved'.other k at_target] at found
    by_cases at_src : k = src
    · rw [at_src] at found at_target ⊢
      cases copy with
      | inl none =>
          rw [moved.none none] at found
          cases found
      | inr table =>
          obtain ⟨t, copied⟩ := table
          have apart : tostring src ≠ tostring target := by
            intro eq
            rw [alone' src at_target eq] at copied
            cases copied
          have stands := agrees src _ copied
          rw [moved.table t copied] at found
          rw [if_neg apart] at exec
          rw [← Option.some.inj found, stands.set here, setTable_erase, exec]
          split
          · rename_i outside
            rw [Finset.erase_eq_of_notMem outside]
            exact .inr ⟨m, here, rfl⟩
          · rw [Store.put_of_ne apart, Store.put_data, Function.update_self]
            exact represents_ofSet _
    · rw [moved.other k at_src] at found
      rw [Store.execSmove_of_ne]
      · exact agrees k c found
      · intro eq
        rw [alone k at_src eq] at found
        cases found
      · intro eq
        rw [alone' k at_target eq] at found
        cases found

theorem setStore_served {op : SetStore} {dest : Lua} {keys : List Lua}
    (agrees : Agrees s.cache s.redis.data) (fits : s.Fits (.setStore op dest keys)) :
    Served now s (.setStore op dest keys) (s.setStore now op dest keys) := by
  refine ⟨rfl, rfl, ?_, rfl⟩
  refine agrees.write fits (exec_frame s now (writesOnly_of_eq dest _ rfl))
    (fun k other => Function.update_of_ne other ..) fun c copy => ?_
  have cleared : Function.update s.cache dest none dest = some c := copy
  rw [Function.update_self] at cleared
  cases cleared

/-! ### Keys -/

theorem keyDel_served {rest : List Lua} (agrees : Agrees s.cache s.redis.data)
    (fits : s.Fits (.del (key :: rest))) :
    Served now s (.del (key :: rest)) (s.keyDel now key rest) := by
  obtain ⟨alone, others⟩ := fits
  refine ⟨rfl, rfl, fun k c copy => ?_, rfl⟩
  by_cases same : k = key
  · have cleared : Function.update s.cache key none k = some c := copy
    rw [same, Function.update_self] at cleared
    cases cleared
  · have kept : Function.update s.cache key none k = some c := copy
    rw [Function.update_of_ne same] at kept
    show Represents c
      ((s.redis.exec now ((Cmd.del (key :: rest)).map tostring)).1.data (tostring k))
    rw [Store.exec_data]
    · exact agrees k c kept
    · intro member
      obtain ⟨key', listed, eq⟩ := List.mem_map.1 member
      cases List.mem_cons.1 listed with
      | inl first =>
          rw [first] at eq
          rw [alone k same eq.symm] at kept
          cases kept
      | inr later =>
          cases others key' later k eq.symm with
          | inl first => exact same first
          | inr none =>
              rw [none] at kept
              cases kept

theorem keyExpire_served {seconds : Lua} (agrees : Agrees s.cache s.redis.data)
    (fits : s.Fits (.expire key seconds)) :
    Served now s (.expire key seconds) (s.keyExpire now key seconds) := by
  refine Served.doRedisCommand agrees fun k c copy => ?_
  by_cases same : tostring k = tostring key
  · cases fits with
    | inl uncached =>
        rw [uncached k same] at copy
        cases copy
    | inr later =>
        show (s.redis.execExpire now (tostring key) (tostring seconds)).1.data (tostring k) = _
        rw [same, Store.execExpire]
        split
        · rfl
        · rename_i n parsed
          split
          · rfl
          · rw [if_neg (not_le.2 (later n parsed))]
            exact Function.update_self ..
  · exact exec_frame s now (writesOnly_of_eq key (.expire key seconds) rfl) _ same

/-! ### Runs -/

/-- A command at a time of Redis's clock. -/
structure Request where
  now : Int
  cmd : Cmd Lua

/-- The service on one Redis and a plain Redis beside it, with what each has answered; nothing
is answered by a request that waits for a lock for ever. -/
structure Run where
  service : Service
  plain : Store
  replies : List (Option LuaReply)
  expected : List (Option LuaReply)

def step (r : Run) (q : Request) : Run :=
  let served := (r.service.tick q.now).command q.now q.cmd
  let plain := (r.plain.tick q.now).exec q.now (q.cmd.map tostring)
  { service := served.1
    plain := plain.1
    replies := r.replies ++ [served.2]
    expected := r.expected ++ [some (.ofRedis plain.2)] }

/-- No copies yet, and the same in both, whatever it is. -/
def Initial (r : Run) : Prop :=
  (∀ key, r.service.cache key = none) ∧ (∀ key, r.service.locked key = false) ∧
    r.service.redis = r.plain ∧ r.replies = r.expected

/-- The guard: nothing that has a copy has expired, and the command fits the copies. -/
def Follows (r : Run) (q : Request) : Prop :=
  (∀ key, r.service.cache key ≠ none → r.service.redis.expired q.now (tostring key) = false) ∧
    (r.service.tick q.now).Fits q.cmd

abbrev CacheReaches (ok : Run → Request → Prop) : Run → Prop :=
  Runs.Reaches Initial (fun r q r' => step r q = r') ok

/-- A request answered as Redis does, with no lock left behind. -/
structure Answered (now : Int) (s : Service) (cmd : Cmd Lua) (out : Service × Option LuaReply) :
    Prop where
  redis : out.1.redis = (s.redis.exec now (cmd.map tostring)).1
  reply : out.2 = some (.ofRedis (s.redis.exec now (cmd.map tostring)).2)
  agrees : Agrees out.1.cache out.1.redis.data
  locked : ∀ key, out.1.locked key = false

theorem Served.locking {out : Service × LuaReply} (served : Served now s cmd out)
    (unlocked : ∀ key, s.locked key = false) (key : Lua) :
    Answered now s cmd (s.locking key out) := by
  rw [Service.locking, if_neg (by rw [unlocked key]; exact Bool.false_ne_true)]
  exact ⟨served.redis, congrArg some served.reply, served.agrees, fun k => by
    rw [served.locked, unlocked k]⟩

/-- Several keys: unless there is an error on some. -/
theorem Served.batchLocking {out : Service × LuaReply} (served : Served now s cmd out)
    (unlocked : ∀ key, s.locked key = false) (keys : List Lua)
    (sound : keys = [] ∨ (s.redis.exec now (cmd.map tostring)).2 ≠ .error) :
    Answered now s cmd (s.batchLocking keys out) := by
  have all : (keys.takeWhile fun key => !s.locked key) = keys := by
    apply List.takeWhile_eq_self_iff.2
    intro key _
    rw [unlocked key]
    rfl
  unfold Service.batchLocking
  rw [all, if_neg (lt_irrefl _)]
  obtain ⟨s', reply⟩ := out
  have same : reply = _ := served.reply
  split
  · rename_i error
    cases error
    cases sound with
    | inl empty =>
        refine ⟨served.redis, congrArg some served.reply, served.agrees, fun k => ?_⟩
        have kept : s'.locked k = s.locked k := congrFun served.locked k
        show (s'.locked k || decide (k ∈ keys)) = false
        rw [kept, unlocked k, empty]
        rfl
    | inr sound =>
        cases given : (s.redis.exec now (cmd.map tostring)).2 with
        | error => exact absurd given sound
        | _ =>
            rw [given] at same
            cases same
  · rename_i eq
    cases eq
    exact ⟨served.redis, congrArg some served.reply, served.agrees, fun k => by
      rw [served.locked, unlocked k]⟩

theorem exec_mget_error {keys : List Lua}
    (h : (s.redis.exec now ((Cmd.mget keys).map tostring)).2 = .error) : keys = [] := by
  rw [Cmd.map, Store.exec] at h
  split at h
  · rename_i empty
    exact List.map_eq_nil_iff.1 empty
  · cases h

theorem exec_mset_error {args : List Lua} (even : args.length % 2 = 0)
    (h : (s.redis.exec now ((Cmd.mset args).map tostring)).2 = .error) : args = [] := by
  rw [Cmd.map, Store.exec] at h
  split at h
  · rename_i refused
    cases refused with
    | inl empty => exact List.map_eq_nil_iff.1 empty
    | inr odd =>
        rw [List.length_map] at odd
        omega
  · cases h

theorem exec_smove_sound {src target member : Lua} (typed : (membersOf (s.held src)).isSome)
    (typed' : (membersOf (s.held target)).isSome) :
    (s.redis.exec now ((Cmd.smove src target member).map tostring)).2 ≠ .error := by
  obtain ⟨m, here⟩ := Option.isSome_iff_exists.1 typed
  obtain ⟨n, there⟩ := Option.isSome_iff_exists.1 typed'
  rw [Cmd.map, Store.exec, Store.execSmove_eq here there]
  split
  · exact Reply.noConfusion
  · split
    · exact Reply.noConfusion
    · exact Reply.noConfusion

theorem command_answered (agrees : Agrees s.cache s.redis.data)
    (unlocked : ∀ key, s.locked key = false) (fits : s.Fits cmd) :
    Answered now s cmd (s.command now cmd) := by
  cases cmd with
  | hashSet kind key args => exact (hashSet_served agrees fits).locking unlocked key
  | hmget key fields => exact (hashBatchGet_served agrees fits).locking unlocked key
  | hgetall key => exact (hashGet_served agrees fits).locking unlocked key
  | hdel key fields => exact (hashDel_served agrees fits).locking unlocked key
  | hincrby key field amount => exact (hashGetSet_served agrees fits).locking unlocked key
  | get key => exact (stringGet_served agrees fits).locking unlocked key
  | mget keys =>
      refine (mget_served agrees).batchLocking unlocked keys ?_
      exact or_iff_not_imp_left.2 fun some error => some (exec_mget_error error)
  | stringSet nx key value => exact (stringSet_served agrees fits).locking unlocked key
  | setex key args => exact fits.elim
  | mset args =>
      refine (stringMset_served agrees fits).batchLocking unlocked args ?_
      exact or_iff_not_imp_left.2 fun some error => some (exec_mset_error fits.1 error)
  | incr key => exact (incr_served agrees fits).locking unlocked key
  | append key value => exact (append_served agrees fits).locking unlocked key
  | sadd key members => exact (setAdd_served agrees fits).locking unlocked key
  | smembers key => exact (setGet_served agrees fits).locking unlocked key
  | smove src target member =>
      refine (setMove_served agrees fits).batchLocking unlocked _ (.inr ?_)
      exact exec_smove_sound fits.2.2.2.2.1 fits.2.2.2.2.2
  | spop key count picked => exact (setPop_served agrees fits).locking unlocked key
  | srem key members => exact (setDel_served agrees fits).locking unlocked key
  | setStore op dest keys => exact (setStore_served agrees fits).locking unlocked dest
  | del keys =>
      cases keys with
      | nil => exact ⟨rfl, rfl, agrees, unlocked⟩
      | cons key rest => exact (keyDel_served agrees fits).locking unlocked key
  | rename key newkey => exact fits.elim
  | expire key seconds => exact (keyExpire_served agrees fits).locking unlocked key

/-- What every step keeps: one Redis like the other, and copies that agree with it. -/
structure Transparent (r : Run) : Prop where
  redis : r.service.redis = r.plain
  agrees : Agrees r.service.cache r.service.redis.data
  unlocked : ∀ key, r.service.locked key = false
  replies : r.replies = r.expected

theorem Transparent.step {r : Run} {q : Request} (inv : Transparent r) (follows : Follows r q) :
    Transparent (step r q) := by
  have agrees : Agrees (r.service.tick q.now).cache (r.service.tick q.now).redis.data := by
    refine inv.agrees.frame fun k c copy => ?_
    have alive := follows.1 k (by rw [copy]; exact Option.some_ne_none c)
    show (if r.service.redis.expired q.now (tostring k) then none else _) = _
    rw [alive]
    rfl
  have answered : Answered q.now (r.service.tick q.now) q.cmd _ :=
    command_answered agrees inv.unlocked follows.2
  have same : (r.service.tick q.now).redis = r.plain.tick q.now :=
    congrArg (fun plain => plain.tick q.now) inv.redis
  refine ⟨?_, answered.agrees, answered.locked, ?_⟩
  · exact answered.redis.trans (congrArg (fun p => (Store.exec p q.now _).1) same)
  · show r.replies ++ [_] = r.expected ++ [_]
    rw [inv.replies, answered.reply, same]

/-- In every run of commands that fit the copies every reply is the one plain Redis gives. -/
theorem replies_transparent {r : Run} (reached : CacheReaches Follows r) :
    r.replies = r.expected := by
  have inv : Transparent r := by
    refine reached.invariant (fun r start => ?_) fun r q r' inv follows moved => ?_
    · obtain ⟨empty, unlocked, same, replies⟩ := start
      refine ⟨same, fun key c copy => ?_, unlocked, replies⟩
      rw [empty key] at copy
      cases copy
    · rw [← moved]
      exact inv.step follows
  exact inv.replies

/-! ### A hash that is read and set -/

/-- Nothing is stored yet. -/
def blank : Run where
  service := ⟨fun _ => none, fun _ => false, ⟨fun _ => none, fun _ => none⟩⟩
  plain := ⟨fun _ => none, fun _ => none⟩
  replies := []
  expected := []

theorem blank_initial : Initial blank := ⟨fun _ => rfl, fun _ => rfl, rfl, rfl⟩

/-- `hset h f 1` -/
def setField : Request := ⟨0, .hashSet .hset (.str "h") [.str "f", .str "1"]⟩

/-- `hgetall h`, `hset h f 2` -/
def readField : Request := ⟨0, .hgetall (.str "h")⟩

def setAgain : Request := ⟨0, .hashSet .hset (.str "h") [.str "f", .str "2"]⟩

def copied : Run := step (step blank setField) readField

/-- The hash is set, copied, set in both places, and read from the copy. -/
theorem copy_read_plainly :
    let r := step (step copied setAgain) readField
    IsTable (copied.service.cache (.str "h")) ∧ r.replies = r.expected := by
  intro r
  refine ⟨⟨_, rfl⟩, replies_transparent ?_⟩
  have ticked : ∀ s : Store, (∀ key, s.expireAt key = none) → ∀ key, (s.tick 0).expireAt key = none := by
    intro s lasting key
    show (if _ then none else s.expireAt key) = none
    rw [lasting, ite_self]
  have written : ∀ s : Store, (∀ key, s.expireAt key = none) →
      ∀ key, Function.update s.expireAt "h" none key = none := by
    intro s lasting key
    rw [Function.update_apply, lasting, ite_self]
  have unexpired : ∀ s : Store, (∀ key, s.expireAt key = none) →
      ∀ key, s.expired 0 key = false := by
    intro s lasting key
    rw [Store.expired, lasting]
  have lasting : ∀ key, (step blank setField).service.redis.expireAt key = none :=
    written ⟨fun _ => none, fun _ => none⟩ fun _ => rfl
  have lasting₁ : ∀ key, copied.service.redis.expireAt key = none := ticked _ lasting
  have lasting₂ : ∀ key, (step copied setAgain).service.redis.expireAt key = none :=
    written _ (ticked _ lasting₁)
  have alone : ∀ t, Alone (Function.update (fun _ => none) (Lua.str "h") (some (.table t))) (.str "h") :=
    fun t k other _ => Function.update_of_ne other ..
  have fits : (copied.service.tick 0).Fits setAgain.cmd :=
    ⟨alone _, .inr ⟨⟨⟨_, rfl⟩, rfl⟩, rfl, ["f", "2"], rfl⟩⟩
  refine .next readField (.next setAgain (.next readField (.next setField (.start blank_initial)
    ?_ rfl) ?_ rfl) ?_ rfl) ?_ rfl
  · exact ⟨fun _ copy => absurd rfl copy, fun _ _ _ => rfl, .inl rfl⟩
  · exact ⟨fun _ copy => absurd rfl copy, .inl rfl⟩
  · exact ⟨fun key _ => unexpired _ lasting₁ _, fits⟩
  · exact ⟨fun key _ => unexpired _ lasting₂ _, .inr fun m is => by cases is⟩

/-- HSETNX on a field that is there changes the copy and not the hash. -/
theorem kept_field_overwritten : ¬ ∀ r, CacheReaches (fun _ _ => True) r → r.replies = r.expected := by
  intro claim
  have reached : CacheReaches (fun _ _ => True)
      ([setField, readField, ⟨0, .hashSet .hsetnx (.str "h") [.str "f", .str "2"]⟩,
        readField].foldl step blank) :=
    .next _ (.next _ (.next _ (.next _ (.start blank_initial) True.intro rfl) True.intro rfl)
      True.intro rfl) True.intro rfl
  have same := congrArg (fun replies => replies[3]?.bind id) (claim _ reached)
  have copied : some (LuaReply.hash _) = some (LuaReply.hash _) := same
  injection copied with copied
  injection copied with copied
  have field := congrFun copied (.str "f")
  exact absurd field (by decide)

end FkServer.CacheRedisd
