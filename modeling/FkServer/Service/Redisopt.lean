import FkServer.Library.Shards
import FkServer.Service.CacheRedisd

/-!
`redisopt.lua`: the services' way to Redis. Several `cache_redisd` agents stand in front of one
Redis; a command goes to the agent of its first key's slot, and `mset` to the agents of all its
keys. What an agent does is a parameter here. The codecs of `redismetadata` are left out: they
are functions of a command and of its reply, whoever answered it.
-/
namespace FkServer.Redisopt

open PlainRedis Shards
open CacheRedisd (Lua LuaTable LuaReply foldInto tostring)

def xmodemCrc16Lookup : List Nat :=
  [0x0000, 0x1021, 0x2042, 0x3063, 0x4084, 0x50a5, 0x60c6, 0x70e7, 0x8108, 0x9129, 0xa14a, 0xb16b,
    0xc18c, 0xd1ad, 0xe1ce, 0xf1ef, 0x1231, 0x0210, 0x3273, 0x2252, 0x52b5, 0x4294, 0x72f7, 0x62d6,
    0x9339, 0x8318, 0xb37b, 0xa35a, 0xd3bd, 0xc39c, 0xf3ff, 0xe3de, 0x2462, 0x3443, 0x0420, 0x1401,
    0x64e6, 0x74c7, 0x44a4, 0x5485, 0xa56a, 0xb54b, 0x8528, 0x9509, 0xe5ee, 0xf5cf, 0xc5ac, 0xd58d,
    0x3653, 0x2672, 0x1611, 0x0630, 0x76d7, 0x66f6, 0x5695, 0x46b4, 0xb75b, 0xa77a, 0x9719, 0x8738,
    0xf7df, 0xe7fe, 0xd79d, 0xc7bc, 0x48c4, 0x58e5, 0x6886, 0x78a7, 0x0840, 0x1861, 0x2802, 0x3823,
    0xc9cc, 0xd9ed, 0xe98e, 0xf9af, 0x8948, 0x9969, 0xa90a, 0xb92b, 0x5af5, 0x4ad4, 0x7ab7, 0x6a96,
    0x1a71, 0x0a50, 0x3a33, 0x2a12, 0xdbfd, 0xcbdc, 0xfbbf, 0xeb9e, 0x9b79, 0x8b58, 0xbb3b, 0xab1a,
    0x6ca6, 0x7c87, 0x4ce4, 0x5cc5, 0x2c22, 0x3c03, 0x0c60, 0x1c41, 0xedae, 0xfd8f, 0xcdec, 0xddcd,
    0xad2a, 0xbd0b, 0x8d68, 0x9d49, 0x7e97, 0x6eb6, 0x5ed5, 0x4ef4, 0x3e13, 0x2e32, 0x1e51, 0x0e70,
    0xff9f, 0xefbe, 0xdfdd, 0xcffc, 0xbf1b, 0xaf3a, 0x9f59, 0x8f78, 0x9188, 0x81a9, 0xb1ca, 0xa1eb,
    0xd10c, 0xc12d, 0xf14e, 0xe16f, 0x1080, 0x00a1, 0x30c2, 0x20e3, 0x5004, 0x4025, 0x7046, 0x6067,
    0x83b9, 0x9398, 0xa3fb, 0xb3da, 0xc33d, 0xd31c, 0xe37f, 0xf35e, 0x02b1, 0x1290, 0x22f3, 0x32d2,
    0x4235, 0x5214, 0x6277, 0x7256, 0xb5ea, 0xa5cb, 0x95a8, 0x8589, 0xf56e, 0xe54f, 0xd52c, 0xc50d,
    0x34e2, 0x24c3, 0x14a0, 0x0481, 0x7466, 0x6447, 0x5424, 0x4405, 0xa7db, 0xb7fa, 0x8799, 0x97b8,
    0xe75f, 0xf77e, 0xc71d, 0xd73c, 0x26d3, 0x36f2, 0x0691, 0x16b0, 0x6657, 0x7676, 0x4615, 0x5634,
    0xd94c, 0xc96d, 0xf90e, 0xe92f, 0x99c8, 0x89e9, 0xb98a, 0xa9ab, 0x5844, 0x4865, 0x7806, 0x6827,
    0x18c0, 0x08e1, 0x3882, 0x28a3, 0xcb7d, 0xdb5c, 0xeb3f, 0xfb1e, 0x8bf9, 0x9bd8, 0xabbb, 0xbb9a,
    0x4a75, 0x5a54, 0x6a37, 0x7a16, 0x0af1, 0x1ad0, 0x2ab3, 0x3a92, 0xfd2e, 0xed0f, 0xdd6c, 0xcd4d,
    0xbdaa, 0xad8b, 0x9de8, 0x8dc9, 0x7c26, 0x6c07, 0x5c64, 0x4c45, 0x3ca2, 0x2c83, 0x1ce0, 0x0cc1,
    0xef1f, 0xff3e, 0xcf5d, 0xdf7c, 0xaf9b, 0xbfba, 0x8fd9, 0x9ff8, 0x6e17, 0x7e36, 0x4e55, 0x5e74,
    0x2e93, 0x3eb2, 0x0ed1, 0x1ef0]

/-- `crc16.lua` -/
def crc16 (bytes : String) : Nat :=
  bytes.toUTF8.toList.foldl
    (fun crc b => ((crc <<< 8) &&& 0xffff) ^^^
      (xmodemCrc16Lookup[((crc >>> 8) ^^^ b.toNat) &&& 0xff]?).getD 0) 0

example : crc16 "123456789" = 0x31C3 := by decide +kernel

section Slots

variable (hash : String → Nat) (n : Nat)

/-- The slot of a text among `n + 1` agents, counted from 0. -/
def slotOf (key : String) : Fin (n + 1) := Fin.ofNat (n + 1) (hash key)

/-- `#bytes` of anything but a text is an error. -/
def getSlot : Lua → Option (Fin (n + 1))
  | .str key => some (slotOf hash n key)
  | _ => none

/-- `tostring` of the first argument, which may be missing. -/
def getCommandKey : Cmd Lua → String
  | .hashSet _ key _ | .hmget key _ | .hgetall key | .hdel key _ | .hincrby key _ _ | .get key
  | .stringSet _ key _ | .setex key _ | .incr key | .append key _ | .sadd key _ | .smembers key
  | .smove key _ _ | .spop key _ _ | .srem key _ | .setStore _ key _ | .rename key _
  | .expire key _ => tostring key
  | .mget args | .mset args | .del args => (args.head?.map tostring).getD "nil"

/-- The keys a command may leave a copy of. -/
def homes : Cmd Lua → List String
  | .mset args => (pairKeys args).map tostring
  | cmd => [getCommandKey cmd]

/-- `table.fold` -/
def fold (args : List Lua) : LuaTable := foldInto args fun _ => none

/-- `table.expand` -/
def expand {α : Type} (tb : List (α × α)) : List α := tb.flatMap fun entry => [entry.1, entry.2]

/-- `slotkeyvalue`, in the order of `pairs`. -/
abbrev SlotKeyValue := List (Fin (n + 1) × List (Lua × Lua))

/-- What MSET takes: pairs, at least one. -/
def Paired (args : List Lua) : Prop := args ≠ [] ∧ args.length % 2 = 0

variable {n}

/-- `mset` finds the slots of all the keys that `fold` keeps. -/
def Slotted (n : Nat) (args : List Lua) : Prop :=
  ∀ key ∈ pairKeys args, (fold args key).isSome → (getSlot hash n key).isSome

instance (args : List Lua) : Decidable (Slotted hash n args) :=
  inferInstanceAs (Decidable (∀ key ∈ pairKeys args, _ → _))

/-- An order of `pairs` over the folded arguments. -/
structure Arranged (args : List Lua) (slotkeyvalue : SlotKeyValue n) : Prop where
  slots : (slotkeyvalue.map Prod.fst).Nodup
  keys : ((slotkeyvalue.flatMap Prod.snd).map Prod.fst).Nodup
  entries : ∀ k v, (k, v) ∈ slotkeyvalue.flatMap Prod.snd ↔ fold args k = some v
  placed : ∀ g ∈ slotkeyvalue, g.2 ≠ [] ∧ ∀ entry ∈ g.2, getSlot hash n entry.1 = some g.1

end Slots

/-- A cache agent: the copy it has of a key, if any, what it does as time passes, and how it
serves a command in front of a Redis. -/
structure Agent (State : Type) where
  copy : State → String → Option (Option Value)
  elapse : State → Store → Int → State
  serve : State → Store → Int → Cmd Lua → State × Store × LuaReply

/-- An agent that nobody would notice if it were the only one: with copies that are right it
answers as Redis does, and its copies stay right. It takes copies of the keys it is asked for
only. -/
structure Agent.Transparent {State : Type} (agent : Agent State) : Prop where
  elapse_agrees : ∀ a store now, Agrees (agent.copy a) store.data →
    Agrees (agent.copy (agent.elapse a store now)) (store.tick now).data
  elapse_fresh : ∀ a store now key, Agrees (agent.copy a) store.data →
    agent.copy (agent.elapse a store now) key ≠ none → agent.copy a key ≠ none
  store : ∀ a store now cmd, Agrees (agent.copy a) store.data →
    (agent.serve a store now cmd).2.1 = (store.exec now (cmd.map tostring)).1
  reply : ∀ a store now cmd, Agrees (agent.copy a) store.data →
    (agent.serve a store now cmd).2.2 = .ofRedis (store.exec now (cmd.map tostring)).2
  agrees : ∀ a store now cmd, Agrees (agent.copy a) store.data →
    Agrees (agent.copy (agent.serve a store now cmd).1) (agent.serve a store now cmd).2.1.data
  fresh : ∀ a store now cmd key, Agrees (agent.copy a) store.data →
    agent.copy (agent.serve a store now cmd).1 key ≠ none → agent.copy a key ≠ none ∨ key ∈ homes cmd

/-- A request to `redisopt` at a time of Redis's clock. -/
structure Request (n : Nat) where
  now : Int
  cmd : Cmd Lua
  slotkeyvalue : SlotKeyValue n

def Request.Ordered {n : Nat} (hash : String → Nat) (q : Request n) : Prop :=
  match q.cmd with
  | .mset args => Slotted hash n args → Arranged hash args q.slotkeyvalue
  | _ => True

structure System (State : Type) (n : Nat) where
  cacheagent : Fin (n + 1) → State
  redis : Store

namespace System

variable {State : Type} {n : Nat} (hash : String → Nat) (agent : Agent State)
variable (s : System State n) (now : Int)

def copies (slot : Fin (n + 1)) : String → Option (Option Value) :=
  agent.copy (s.cacheagent slot)

def doSlotCommand (slot : Fin (n + 1)) (cmd : Cmd Lua) : System State n × LuaReply :=
  let out := agent.serve (s.cacheagent slot) s.redis now cmd
  ({ cacheagent := Function.update s.cacheagent slot out.1, redis := out.2.1 }, out.2.2)

def doCommand (cmd : Cmd Lua) : System State n × LuaReply :=
  s.doSlotCommand agent now (slotOf hash n (getCommandKey cmd)) cmd

/-- `table.map` wants a key and a value from its function, which returns a dictionary alone:
whatever the agents answer, `slotvalues` stays empty. -/
def mgetSlots : List (Fin (n + 1) × List Lua) → System State n → System State n × LuaReply
  | [], s => (s, .list [])
  | (slot, ks) :: rest, s =>
      match s.doSlotCommand agent now slot (.mget ks) with
      | (s, .list _) => mgetSlots rest s
      | (s, _) => (s, .error)

/-- `for k in pairs(keys)` takes the places of the keys, which have no slots. -/
def mget (keys : List Lua) : System State n × LuaReply :=
  let indexes := (List.range' 1 keys.length).map fun i => Lua.int i
  match indexes.mapM (getSlot hash n) with
  | none => (s, .error)
  | some slots =>
      mgetSlots agent now (slots.dedup.map fun slot =>
        (slot, indexes.filter fun k => getSlot hash n k = some slot)) s

/-- `table.And` over the slots. -/
def msetSlots : SlotKeyValue n → System State n → System State n × LuaReply
  | [], s => (s, .value (.bool true))
  | (slot, keyvalue) :: rest, s =>
      match s.doSlotCommand agent now slot (.mset (expand keyvalue)) with
      | (s, .error) => (s, .error)
      | (s, .nil) => (s, .value (.bool false))
      | (s, .value v) => if v.falsy then (s, .value (.bool false)) else msetSlots rest s
      | (s, _) => msetSlots rest s

def mset (args : List Lua) (slotkeyvalue : SlotKeyValue n) : System State n × LuaReply :=
  if Slotted hash n args then msetSlots agent now slotkeyvalue s else (s, .error)

def command (q : Request n) : System State n × LuaReply :=
  match q.cmd with
  | .mget keys => s.mget hash agent q.now keys
  | .mset args => s.mset hash agent q.now args q.slotkeyvalue
  | cmd => s.doCommand hash agent q.now cmd

/-- Time passes at Redis and at the agents. -/
def tick : System State n where
  cacheagent := fun slot => agent.elapse (s.cacheagent slot) s.redis now
  redis := s.redis.tick now

/-- The guard of a request. A command may write a key of another slot than its first key's if
that slot's agent has no copy of it, or if the key keeps its value. -/
def Fits (q : Request n) : Prop :=
  match q.cmd with
  | .mget _ => False
  | .mset args => Slotted hash n args ↔ Paired args
  | cmd => ∀ key ∈ (cmd.map tostring).writes, slotOf hash n key ≠ slotOf hash n (getCommandKey cmd) →
      s.copies agent (slotOf hash n key) key = none ∨
        (s.redis.exec q.now (cmd.map tostring)).1.data key = s.redis.data key

end System

/-! ### One agent at a time -/

section Steps

variable {State : Type} {n : Nat} {hash : String → Nat} {agent : Agent State}
variable {s : System State n}

/-- Copies in their slots, and right. -/
structure Kept (hash : String → Nat) (agent : Agent State) (s : System State n) : Prop where
  coherent : Shards.Coherent (s.copies agent) s.redis.data
  housed : Housed (slotOf hash n) (s.copies agent)

theorem Kept.tick (transparent : agent.Transparent) (kept : Kept hash agent s) (now : Int) :
    Kept hash agent (s.tick agent now) where
  coherent := fun slot => transparent.elapse_agrees _ _ _ (kept.coherent slot)
  housed := kept.housed.mono fun slot _ => transparent.elapse_fresh _ _ _ _ (kept.coherent slot)

/-- What the agent of a slot does with a command on keys of the slot. -/
theorem doSlotCommand_serves (transparent : agent.Transparent) (kept : Kept hash agent s) (now : Int)
    (cmd : Cmd Lua) (slot : Fin (n + 1)) (own : ∀ key ∈ homes cmd, slotOf hash n key = slot) :
    Serves (slotOf hash n) slot { key | key ∈ (cmd.map tostring).writes } (s.copies agent)
      ((s.doSlotCommand agent now slot cmd).1.copies agent) s.redis.data
      (s.doSlotCommand agent now slot cmd).1.redis.data := by
  have served : (s.doSlotCommand agent now slot cmd).1.copies agent slot =
      agent.copy (agent.serve (s.cacheagent slot) s.redis now cmd).1 :=
    congrArg agent.copy (Function.update_self ..)
  refine ⟨?_, ?_, ?_, ?_⟩
  · intro other apart
    exact congrArg agent.copy (Function.update_of_ne apart ..)
  · intro key unwritten
    show (agent.serve _ _ _ _).2.1.data key = _
    rw [transparent.store _ _ _ _ (kept.coherent slot)]
    exact Store.exec_data _ unwritten
  · rw [served]
    exact transparent.agrees _ _ _ _ (kept.coherent slot)
  · intro key held
    rw [served] at held
    exact (transparent.fresh _ _ _ _ _ (kept.coherent slot) held).imp id (own key)

theorem doSlotCommand_redis (transparent : agent.Transparent) (kept : Kept hash agent s) (now : Int)
    (cmd : Cmd Lua) (slot : Fin (n + 1)) :
    (s.doSlotCommand agent now slot cmd).1.redis = (s.redis.exec now (cmd.map tostring)).1 :=
  transparent.store _ _ _ _ (kept.coherent slot)

theorem doSlotCommand_reply (transparent : agent.Transparent) (kept : Kept hash agent s) (now : Int)
    (cmd : Cmd Lua) (slot : Fin (n + 1)) :
    (s.doSlotCommand agent now slot cmd).2 = .ofRedis (s.redis.exec now (cmd.map tostring)).2 :=
  transparent.reply _ _ _ _ (kept.coherent slot)

/-- After a command no agent has a stale copy exactly if every key written in another slot had
no copy there or keeps its value. -/
theorem doCommand_coherent_iff (transparent : agent.Transparent) (kept : Kept hash agent s)
    (now : Int) {cmd : Cmd Lua} (own : homes cmd = [getCommandKey cmd]) :
    Shards.Coherent ((s.doCommand hash agent now cmd).1.copies agent)
        (s.doCommand hash agent now cmd).1.redis.data ↔
      ∀ key ∈ (cmd.map tostring).writes, slotOf hash n key ≠ slotOf hash n (getCommandKey cmd) →
        s.copies agent (slotOf hash n key) key = none ∨
          (s.redis.exec now (cmd.map tostring)).1.data key = s.redis.data key := by
  have serves := doSlotCommand_serves transparent kept now cmd
    (slotOf hash n (getCommandKey cmd)) (by simp [own])
  have redis := doSlotCommand_redis transparent kept now cmd (slotOf hash n (getCommandKey cmd))
  rw [← redis]
  exact serves.coherent_iff kept.housed kept.coherent

theorem doCommand_kept (transparent : agent.Transparent) (kept : Kept hash agent s)
    (now : Int) {cmd : Cmd Lua} (own : homes cmd = [getCommandKey cmd])
    (fits : ∀ key ∈ (cmd.map tostring).writes,
      slotOf hash n key ≠ slotOf hash n (getCommandKey cmd) →
        s.copies agent (slotOf hash n key) key = none ∨
          (s.redis.exec now (cmd.map tostring)).1.data key = s.redis.data key) :
    Kept hash agent (s.doCommand hash agent now cmd).1 where
  coherent := (doCommand_coherent_iff transparent kept now own).2 fits
  housed := (doSlotCommand_serves transparent kept now cmd _ (by simp [own])).housed kept.housed

/-! ### MSET slot by slot -/

theorem expand_length {α : Type} (tb : List (α × α)) : (expand tb).length % 2 = 0 := by
  induction tb with
  | nil => rfl
  | cons entry tb ih =>
      simp only [expand, List.flatMap_cons, List.length_append, List.length_cons, List.length_nil]
        at ih ⊢
      omega

theorem expand_cons {α : Type} (entry : α × α) (tb : List (α × α)) :
    expand (entry :: tb) = entry.1 :: entry.2 :: expand tb := rfl

theorem pairKeys_expand {α : Type} (tb : List (α × α)) : pairKeys (expand tb) = tb.map Prod.fst := by
  induction tb with
  | nil => rfl
  | cons entry tb ih => rw [expand_cons, pairKeys, ih, List.map_cons]

theorem expand_append {α : Type} (tb tb' : List (α × α)) :
    expand (tb ++ tb') = expand tb ++ expand tb' :=
  List.flatMap_append

theorem exec_mset (store : Store) (now : Int) {args : List Lua} (paired : Paired args) :
    store.exec now ((Cmd.mset args).map tostring) =
      (store.putFields (args.map tostring), .text "OK") := by
  rw [Cmd.map, Store.exec, if_neg]
  simp [paired.1, paired.2]

theorem exec_mset_error (store : Store) (now : Int) {args : List Lua} (ill : ¬ Paired args) :
    store.exec now ((Cmd.mset args).map tostring) = (store, .error) := by
  rw [Cmd.map, Store.exec, if_pos]
  by_cases none : args = []
  · exact .inl (by rw [none]; rfl)
  · have odd : args.length % 2 = 1 := Nat.mod_two_ne_zero.1 fun even => ill ⟨none, even⟩
    exact .inr (by rw [List.length_map, odd])

theorem paired_expand {keyvalue : List (Lua × Lua)} (some_ : keyvalue ≠ []) :
    Paired (expand keyvalue) := by
  refine ⟨?_, expand_length keyvalue⟩
  cases keyvalue with
  | nil => exact absurd rfl some_
  | cons entry rest => exact List.cons_ne_nil _ _

theorem text_of_getSlot {key : Lua} {slot : Fin (n + 1)} (found : getSlot hash n key = some slot) :
    ∃ text, key = .str text ∧ slotOf hash n text = slot := by
  cases key with
  | str text => exact ⟨text, rfl, Option.some.inj found⟩
  | int _ => cases found
  | bool _ => cases found

theorem homes_expand {keyvalue : List (Lua × Lua)} {slot : Fin (n + 1)}
    (placed : ∀ entry ∈ keyvalue, getSlot hash n entry.1 = some slot) :
    ∀ key ∈ homes (.mset (expand keyvalue)), slotOf hash n key = slot := by
  intro key home
  rw [homes, pairKeys_expand, List.map_map] at home
  obtain ⟨entry, listed, rfl⟩ := List.mem_map.1 home
  obtain ⟨text, same, there⟩ := text_of_getSlot (placed entry listed)
  rw [Function.comp_apply, same]
  exact there

theorem writes_mset (args : List Lua) : ((Cmd.mset args).map tostring).writes = homes (.mset args) :=
  pairKeys_map tostring args

/-- One round of the loop of `mset`. -/
theorem msetSlot_served (transparent : agent.Transparent) (kept : Kept hash agent s) (now : Int)
    {slot : Fin (n + 1)} {keyvalue : List (Lua × Lua)} (some_ : keyvalue ≠ [])
    (placed : ∀ entry ∈ keyvalue, getSlot hash n entry.1 = some slot) :
    ∃ s', s.doSlotCommand agent now slot (.mset (expand keyvalue)) = (s', .value (.str "OK")) ∧
      Kept hash agent s' ∧ s'.redis = s.redis.putFields ((expand keyvalue).map tostring) := by
  have own := homes_expand placed
  have redis := doSlotCommand_redis transparent kept now (.mset (expand keyvalue)) slot
  have reply := doSlotCommand_reply transparent kept now (.mset (expand keyvalue)) slot
  have serves := doSlotCommand_serves transparent kept now _ slot own
  rw [exec_mset _ _ (paired_expand some_)] at redis reply
  refine ⟨_, Prod.ext rfl reply, ⟨?_, serves.housed kept.housed⟩, redis⟩
  apply serves.coherent_of_home kept.housed kept.coherent
  intro key written
  exact own key (writes_mset _ ▸ written)

/-- The loop of `mset`: all the pairs are written, each at the agent of its slot. -/
theorem msetSlots_served (transparent : agent.Transparent) (now : Int) (slotkeyvalue : SlotKeyValue n)
    (placed : ∀ g ∈ slotkeyvalue,
      g.2 ≠ [] ∧ ∀ entry ∈ g.2, getSlot hash n entry.1 = some g.1)
    (kept : Kept hash agent s) :
    ∃ s', s.msetSlots agent now slotkeyvalue = (s', .value (.bool true)) ∧ Kept hash agent s' ∧
      s'.redis = s.redis.putFields ((expand (slotkeyvalue.flatMap Prod.snd)).map tostring) := by
  induction slotkeyvalue generalizing s with
  | nil => exact ⟨s, rfl, kept, rfl⟩
  | cons g rest ih =>
      have here := placed g List.mem_cons_self
      obtain ⟨s₁, first, kept₁, redis₁⟩ := msetSlot_served transparent kept now here.1 here.2
      obtain ⟨s', later, kept', redis'⟩ :=
        ih (fun g' listed => placed g' (List.mem_cons_of_mem _ listed)) kept₁
      refine ⟨s', ?_, kept', ?_⟩
      · rw [System.msetSlots, first]
        exact later
      · rw [redis', redis₁, List.flatMap_cons, expand_append, List.map_append,
          Store.putFields_append _ _ (by rw [List.length_map, expand_length])]

/-! ### The pairs in the order of `pairs` -/

theorem lastValues_expand_of_notMem (tb : List (String × String)) (t : String → Option String)
    {key : String} (absent : key ∉ tb.map Prod.fst) : lastValues (expand tb) t key = t key := by
  induction tb generalizing t with
  | nil => rfl
  | cons entry tb ih =>
      have apart := List.ne_and_not_mem_of_not_mem_cons absent
      rw [expand_cons, lastValues, ih _ apart.2, Function.update_of_ne apart.1]

theorem lastValues_expand_of_mem {tb : List (String × String)} (distinct : (tb.map Prod.fst).Nodup)
    (t : String → Option String) {key value : String} (listed : (key, value) ∈ tb) :
    lastValues (expand tb) t key = some value := by
  induction tb generalizing t with
  | nil => cases listed
  | cons entry tb ih =>
      have apart := List.nodup_cons.1 distinct
      rw [expand_cons, lastValues]
      cases List.mem_cons.1 listed with
      | inl first =>
          subst first
          rw [lastValues_expand_of_notMem _ _ apart.1, Function.update_self]
      | inr later => exact ih apart.2 _ later

/-- `fold` of texts, as Redis sees it. -/
theorem lastValues_map (args : List Lua) (t : LuaTable) (even : args.length % 2 = 0)
    (texts : ∀ key ∈ pairKeys args, ∃ text, key = .str text) :
    lastValues (args.map tostring) (fun key => (t (.str key)).map tostring) =
      fun key => (foldInto args t (.str key)).map tostring := by
  induction args, t using CacheRedisd.foldInto.induct with
  | case1 field value rest t ih =>
      obtain ⟨text, same⟩ := texts field List.mem_cons_self
      have short : rest.length % 2 = 0 := by
        simp only [List.length_cons] at even
        omega
      rw [foldInto, ← ih short fun key listed => texts key (List.mem_cons_of_mem _ listed)]
      rw [List.map_cons, List.map_cons, lastValues]
      congr 1
      funext key
      subst same
      by_cases here : key = text
      · subst here
        simp [tostring]
      · have apart : Lua.str key ≠ .str text := fun eq => here (Lua.str.inj eq)
        simp [tostring, Function.update_of_ne here, Function.update_of_ne apart]
  | case2 field t => cases even
  | case3 t => rfl

theorem fold_isSome {args : List Lua} (t : LuaTable) (even : args.length % 2 = 0) {key : Lua}
    (listed : key ∈ pairKeys args ∨ (t key).isSome) : (foldInto args t key).isSome := by
  induction args, t using CacheRedisd.foldInto.induct with
  | case1 field value rest t ih =>
      have short : rest.length % 2 = 0 := by
        simp only [List.length_cons] at even
        omega
      apply ih short
      by_cases here : key = field
      · right
        rw [here, Function.update_self]
        rfl
      · rw [Function.update_of_ne here]
        exact listed.imp (fun member => (List.mem_cons.1 member).resolve_left here) id
  | case2 field t => cases even
  | case3 t => exact listed.resolve_left List.not_mem_nil

theorem expand_map {α β : Type} (f : α → β) (tb : List (α × α)) :
    (expand tb).map f = expand (tb.map (Prod.map f f)) := by
  induction tb with
  | nil => rfl
  | cons entry tb ih => rw [expand_cons, List.map_cons, List.map_cons, ih, List.map_cons, expand_cons]; rfl

/-- All that counts of an arrangement is what `fold` has kept. -/
theorem Arranged.lastValues {args : List Lua} {slotkeyvalue : SlotKeyValue n}
    (arranged : Arranged hash args slotkeyvalue) (even : args.length % 2 = 0)
    (texts : ∀ key ∈ pairKeys args, ∃ text, key = .str text) :
    PlainRedis.lastValues ((expand (slotkeyvalue.flatMap Prod.snd)).map tostring) (fun _ => none) =
      PlainRedis.lastValues (args.map tostring) fun _ => none := by
  have text : ∀ entry ∈ slotkeyvalue.flatMap Prod.snd, ∃ text, entry.1 = .str text := by
    intro entry listed
    obtain ⟨g, member, inside⟩ := List.mem_flatMap.1 listed
    obtain ⟨text, same, _⟩ := text_of_getSlot ((arranged.placed g member).2 entry inside)
    exact ⟨text, same⟩
  have distinct : (((slotkeyvalue.flatMap Prod.snd).map (Prod.map tostring tostring)).map
      Prod.fst).Nodup := by
    rw [List.map_map]
    have keys : Prod.fst ∘ Prod.map tostring tostring = tostring ∘ (Prod.fst : Lua × Lua → Lua) := rfl
    rw [keys, ← List.map_map]
    apply arranged.keys.map_on
    intro x first y second same
    obtain ⟨entry, listed, rfl⟩ := List.mem_map.1 first
    obtain ⟨entry', listed', rfl⟩ := List.mem_map.1 second
    obtain ⟨k, is⟩ := text entry listed
    obtain ⟨k', is'⟩ := text entry' listed'
    rw [is, is'] at same ⊢
    exact congrArg Lua.str same
  rw [expand_map]
  refine Eq.trans ?_ (lastValues_map args (fun _ => none) even texts).symm
  funext key
  cases kept : foldInto args (fun _ => none) (.str key) with
  | some v =>
      apply lastValues_expand_of_mem distinct
      exact List.mem_map.2 ⟨(.str key, v), (arranged.entries _ _).2 kept, rfl⟩
  | none =>
      apply lastValues_expand_of_notMem
      intro listed
      obtain ⟨_, member, same⟩ := List.mem_map.1 listed
      obtain ⟨entry, inside, rfl⟩ := List.mem_map.1 member
      obtain ⟨k, is⟩ := text entry inside
      have here : k = key := by rw [← same, Prod.map_fst, is]; rfl
      have found := (arranged.entries entry.1 entry.2).1 inside
      rw [is, here, fold, kept] at found
      cases found

theorem Slotted.texts {args : List Lua} (slotted : Slotted hash n args)
    (even : args.length % 2 = 0) : ∀ key ∈ pairKeys args, ∃ text, key = .str text := by
  intro key listed
  obtain ⟨slot, found⟩ := Option.isSome_iff_exists.1
    (slotted key listed (fold_isSome _ even (.inl listed)))
  obtain ⟨text, same, _⟩ := text_of_getSlot found
  exact ⟨text, same⟩

end Steps

/-! ### An order of `pairs` there is -/

section Arranging

variable (hash : String → Nat) (n : Nat) (args : List Lua)

/-- The pairs that `fold` keeps, by the first place of their keys. -/
def folded : List (Lua × Lua) :=
  (pairKeys args).dedup.filterMap fun key => (fold args key).map fun value => (key, value)

def slotPairs (slot : Fin (n + 1)) : List (Lua × Lua) :=
  (folded args).filter fun entry => getSlot hash n entry.1 = some slot

/-- Slot after slot. -/
def arrange : SlotKeyValue n :=
  ((List.finRange (n + 1)).filter fun slot => slotPairs hash n args slot ≠ []).map fun slot =>
    (slot, slotPairs hash n args slot)

variable {hash n args}

theorem mem_pairKeys_of_foldInto {t : LuaTable} {key : Lua}
    (kept : (foldInto args t key).isSome) : key ∈ pairKeys args ∨ (t key).isSome := by
  induction args, t using CacheRedisd.foldInto.induct with
  | case1 field value rest t ih =>
      by_cases here : key = field
      · exact .inl (here ▸ List.mem_cons_self)
      · have later := ih kept
        rw [Function.update_of_ne here] at later
        exact later.imp (List.mem_cons_of_mem _) id
  | case2 field t =>
      by_cases here : key = field
      · exact .inl (here ▸ List.mem_cons_self)
      · rw [foldInto, Function.update_of_ne here] at kept
        exact .inr kept
  | case3 t => exact .inr kept

theorem mem_pairKeys_of_fold {k v : Lua} (kept : fold args k = some v) : k ∈ pairKeys args :=
  (mem_pairKeys_of_foldInto (Option.isSome_of_eq_some kept)).resolve_right Bool.false_ne_true

theorem mem_folded {k v : Lua} : (k, v) ∈ folded args ↔ fold args k = some v := by
  rw [folded, List.mem_filterMap]
  constructor
  · rintro ⟨key, _, found⟩
    obtain ⟨value, kept, same⟩ := Option.map_eq_some_iff.1 found
    cases same
    exact kept
  · intro kept
    exact ⟨k, List.mem_dedup.2 (mem_pairKeys_of_fold kept), by rw [kept]; rfl⟩

theorem folded_keys_nodup : ((folded args).map Prod.fst).Nodup := by
  have keys : (folded args).map Prod.fst =
      (pairKeys args).dedup.filter fun key => (fold args key).isSome := by
    rw [folded, List.map_filterMap, ← List.filterMap_eq_filter]
    congr 1
    funext key
    cases kept : fold args key <;> simp [Option.guard, kept]
  rw [keys]
  exact (List.nodup_dedup _).filter _

theorem arrange_arranged (slotted : Slotted hash n args) :
    Arranged hash args (arrange hash n args) where
  slots := by
    rw [arrange, List.map_map]
    have same : (Prod.fst ∘ fun slot => (slot, slotPairs hash n args slot)) = id := rfl
    rw [same, List.map_id]
    exact (List.nodup_finRange _).filter _
  keys := by
    rw [List.map_flatMap, arrange, List.flatMap_map, List.nodup_flatMap]
    constructor
    · intro slot _
      exact folded_keys_nodup.sublist (List.filter_sublist.map _)
    · apply ((List.nodup_finRange _).filter _).imp
      intro slot slot' apart key first second
      obtain ⟨entry, listed, same⟩ := List.mem_map.1 first
      obtain ⟨entry', listed', same'⟩ := List.mem_map.1 second
      have here := of_decide_eq_true (List.mem_filter.1 listed).2
      have there := of_decide_eq_true (List.mem_filter.1 listed').2
      rw [same] at here
      rw [same', here] at there
      exact apart (Option.some.inj there)
  entries := by
    intro k v
    rw [← mem_folded, arrange, List.flatMap_map, List.mem_flatMap]
    constructor
    · rintro ⟨slot, _, listed⟩
      exact (List.mem_filter.1 listed).1
    · intro kept
      have found := mem_folded.1 kept
      obtain ⟨slot, there⟩ := Option.isSome_iff_exists.1
        (slotted k (mem_pairKeys_of_fold found) (Option.isSome_of_eq_some found))
      have inside : (k, v) ∈ slotPairs hash n args slot :=
        List.mem_filter.2 ⟨kept, decide_eq_true there⟩
      refine ⟨slot, List.mem_filter.2 ⟨List.mem_finRange _, ?_⟩, inside⟩
      exact decide_eq_true (List.ne_nil_of_mem inside)
  placed := by
    intro g listed
    obtain ⟨slot, chosen, rfl⟩ := List.mem_map.1 listed
    refine ⟨of_decide_eq_true (List.mem_filter.1 chosen).2, fun entry inside => ?_⟩
    exact of_decide_eq_true (List.mem_filter.1 inside).2

end Arranging

end FkServer.Redisopt
