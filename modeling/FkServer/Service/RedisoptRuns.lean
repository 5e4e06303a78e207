import FkServer.Library.Runs
import FkServer.Service.Redisopt

/-!
Sharding by `redisopt.lua` over agents that are transparent each for itself: one request served,
runs of them, and when a caller sees a single Redis.
-/
namespace FkServer.Redisopt

open PlainRedis Shards
open CacheRedisd (Lua LuaReply Cached tostring)

/-- A command with what the caller got and what Redis alone would have answered. -/
structure Answer where
  cmd : Cmd Lua
  reply : LuaReply
  expected : Reply

/-- The reply of Redis; `mset` says `true` for it. -/
def Answer.Plain (a : Answer) : Prop :=
  a.reply = .ofRedis a.expected ∨
    (∃ args, a.cmd = .mset args) ∧ a.reply = .value (.bool true) ∧ a.expected = .text "OK"

/-- The agents on their Redis and a Redis alone beside them. -/
structure Run (State : Type) (n : Nat) where
  system : System State n
  plain : Store
  answers : List Answer

section Runs

variable {State : Type} {n : Nat} (hash : String → Nat) (agent : Agent State)

def step (r : Run State n) (q : Request n) : Run State n :=
  let served := (r.system.tick agent q.now).command hash agent q
  let plain := (r.plain.tick q.now).exec q.now (q.cmd.map tostring)
  { system := served.1
    plain := plain.1
    answers := r.answers ++ [⟨q.cmd, served.2, plain.2⟩] }

/-- No copies yet, and the same in both, whatever it is. -/
def Initial (r : Run State n) : Prop :=
  (∀ slot key, r.system.copies agent slot key = none) ∧ r.system.redis = r.plain ∧ r.answers = []

def Moves (r : Run State n) (q : Request n) (r' : Run State n) : Prop :=
  q.Ordered hash ∧ step hash agent r q = r'

def Follows (r : Run State n) (q : Request n) : Prop := (r.system.tick agent q.now).Fits hash agent q

abbrev OptReaches (ok : Run State n → Request n → Prop) : Run State n → Prop :=
  Runs.Reaches (Initial agent) (Moves hash agent) ok

variable {hash agent}

/-- One request served: the agents' Redis is as the other would be, and so is the reply. -/
structure Served (hash : String → Nat) (agent : Agent State) (s : System State n) (q : Request n) :
    Prop where
  kept : Kept hash agent (s.command hash agent q).1
  redis : (s.command hash agent q).1.redis = (s.redis.exec q.now (q.cmd.map tostring)).1
  answer : Answer.Plain
    ⟨q.cmd, (s.command hash agent q).2, (s.redis.exec q.now (q.cmd.map tostring)).2⟩

theorem mset_served (transparent : agent.Transparent) {s : System State n}
    (kept : Kept hash agent s) (now : Int) {args : List Lua} {slotkeyvalue : SlotKeyValue n}
    (ordered : Slotted hash n args → Arranged hash args slotkeyvalue)
    (fits : Slotted hash n args ↔ Paired args) :
    Served hash agent s ⟨now, .mset args, slotkeyvalue⟩ := by
  by_cases slotted : Slotted hash n args
  · have paired := fits.1 slotted
    have arranged := ordered slotted
    obtain ⟨s', loop, kept', redis⟩ :=
      msetSlots_served transparent now slotkeyvalue arranged.placed kept
    have out : s.command hash agent ⟨now, .mset args, slotkeyvalue⟩ = (s', .value (.bool true)) := by
      rw [← loop]
      exact if_pos slotted
    have plain := exec_mset s.redis now paired
    refine ⟨?_, ?_, ?_⟩
    · rw [out]
      exact kept'
    · rw [out, plain]
      exact redis.trans
        (Store.putFields_congr (arranged.lastValues paired.2 (slotted.texts paired.2)))
    · rw [out, plain]
      exact .inr ⟨⟨args, rfl⟩, rfl, rfl⟩
  · have out : s.command hash agent ⟨now, .mset args, slotkeyvalue⟩ = (s, .error) := if_neg slotted
    have plain := exec_mset_error s.redis now (fits.not.1 slotted)
    refine ⟨?_, ?_, ?_⟩
    · rw [out]
      exact kept
    · rw [out, plain]
    · rw [out, plain]
      exact .inl rfl

theorem command_served (transparent : agent.Transparent) {s : System State n}
    (kept : Kept hash agent s) {q : Request n} (ordered : q.Ordered hash)
    (fits : s.Fits hash agent q) : Served hash agent s q := by
  obtain ⟨now, cmd, slotkeyvalue⟩ := q
  cases cmd with
  | mget keys => exact fits.elim
  | mset args => exact mset_served transparent kept now ordered fits
  | _ =>
      exact ⟨doCommand_kept transparent kept now rfl fits, doSlotCommand_redis transparent kept now _ _,
        .inl (doSlotCommand_reply transparent kept now _ _)⟩

theorem mget_error {s : System State n} {now : Int} (key : Lua) (keys : List Lua) :
    s.mget hash agent now (key :: keys) = (s, .error) := rfl

/-- `mget` never answers as Redis does. -/
theorem mget_not_plain (s : System State n) (now : Int) (keys : List Lua) :
    ¬ Answer.Plain ⟨.mget keys, (s.mget hash agent now keys).2,
      (s.redis.exec now ((Cmd.mget keys).map tostring)).2⟩ := by
  intro plain
  cases plain with
  | inl same =>
      cases keys with
      | nil => cases same
      | cons key keys =>
          rw [mget_error] at same
          cases same
  | inr acknowledged => exact nomatch acknowledged.1

/-- `mset` acknowledges what MSET refuses, or refuses what it takes. -/
theorem mset_not_plain (transparent : agent.Transparent) {s : System State n}
    (kept : Kept hash agent s) (now : Int) {args : List Lua} {slotkeyvalue : SlotKeyValue n}
    (ordered : Slotted hash n args → Arranged hash args slotkeyvalue)
    (misfit : ¬ (Slotted hash n args ↔ Paired args)) :
    ¬ Answer.Plain ⟨.mset args, (s.mset hash agent now args slotkeyvalue).2,
      (s.redis.exec now ((Cmd.mset args).map tostring)).2⟩ := by
  intro plain
  by_cases slotted : Slotted hash n args
  · have ill : ¬ Paired args := fun paired => misfit (iff_of_true slotted paired)
    obtain ⟨s', loop, _⟩ :=
      msetSlots_served transparent now slotkeyvalue (ordered slotted).placed kept
    rw [System.mset, if_pos slotted, loop, exec_mset_error s.redis now ill] at plain
    cases plain with
    | inl same => cases same
    | inr acknowledged => exact nomatch acknowledged.2.2
  · have paired : Paired args := not_not.1 fun ill => misfit (iff_of_false slotted ill)
    rw [System.mset, if_neg slotted, exec_mset s.redis now paired] at plain
    cases plain with
    | inl same => cases same
    | inr acknowledged => exact nomatch acknowledged.2.1

/-- The guard of a request leaves out only what goes wrong. -/
theorem served_iff_fits (transparent : agent.Transparent) {s : System State n}
    (kept : Kept hash agent s) {q : Request n} (ordered : q.Ordered hash) :
    Served hash agent s q ↔ s.Fits hash agent q := by
  refine ⟨fun served => ?_, command_served transparent kept ordered⟩
  obtain ⟨now, cmd, slotkeyvalue⟩ := q
  cases cmd with
  | mget keys => exact mget_not_plain s now keys served.answer
  | mset args =>
      apply not_not.1
      intro misfit
      exact mset_not_plain transparent kept now ordered misfit served.answer
  | _ => exact (doCommand_coherent_iff transparent kept now rfl).1 served.kept.coherent

/-- What every step keeps. -/
structure Sharded (hash : String → Nat) (agent : Agent State) (r : Run State n) : Prop where
  kept : Kept hash agent r.system
  redis : r.system.redis = r.plain
  answers : ∀ a ∈ r.answers, a.Plain

theorem Initial.sharded {r : Run State n} (start : Initial agent r) : Sharded hash agent r := by
  obtain ⟨empty, redis, answers⟩ := start
  refine ⟨⟨fun slot key v held => ?_, fun slot key held => absurd (empty slot key) held⟩, redis, ?_⟩
  · rw [empty slot key] at held
    cases held
  · intro a given
    rw [answers] at given
    cases given

theorem Sharded.step (transparent : agent.Transparent) {r : Run State n} {q : Request n}
    (inv : Sharded hash agent r) (ordered : q.Ordered hash) (follows : Follows hash agent r q) :
    Sharded hash agent (step hash agent r q) := by
  have served : Served hash agent (r.system.tick agent q.now) q :=
    command_served transparent (inv.kept.tick transparent q.now) ordered follows
  have same : (r.system.tick agent q.now).redis = r.plain.tick q.now :=
    congrArg (fun plain => plain.tick q.now) inv.redis
  have redis := served.redis
  have answer := served.answer
  rw [same] at redis answer
  refine ⟨served.kept, redis, fun a given => ?_⟩
  cases List.mem_append.1 given with
  | inl old => exact inv.answers a old
  | inr new =>
      rw [List.mem_singleton.1 new]
      exact answer

/-- With agents that are transparent each for itself, every run of requests that fit leaves one
Redis as it would be alone, no agent with a stale copy, and only replies that Redis gives. -/
theorem answers_plain (transparent : agent.Transparent) {r : Run State n}
    (reached : OptReaches hash agent (Follows hash agent) r) :
    r.system.redis = r.plain ∧ Shards.Coherent (r.system.copies agent) r.system.redis.data ∧
      ∀ a ∈ r.answers, a.Plain := by
  have inv : Sharded hash agent r := by
    refine reached.invariant (fun r start => start.sharded) fun r q r' inv follows moved => ?_
    obtain ⟨ordered, rfl⟩ := moved
    exact inv.step transparent ordered follows
  exact ⟨inv.redis, inv.kept.coherent, inv.answers⟩

end Runs

/-! ### The copies of `cache_redisd` -/

section CacheRedisd

variable {s s' s'' : CacheRedisd.Service} {key : Lua} {now : Int}

/-- No copies are taken but of one key. -/
def TakesOnly (key : Lua) (s s' : CacheRedisd.Service) : Prop :=
  ∀ k, s'.cache k ≠ none → s.cache k ≠ none ∨ k = key

theorem TakesOnly.of_eq (same : s'.cache = s.cache) : TakesOnly key s s' :=
  fun _ held => .inl (same ▸ held)

theorem TakesOnly.refl : TakesOnly key s s := .of_eq rfl

theorem TakesOnly.trans (first : TakesOnly key s s') (second : TakesOnly key s' s'') :
    TakesOnly key s s'' :=
  fun k held => (second k held).elim (first k) .inr

theorem takesOnly_setCache (value : Cached) : TakesOnly key s (s.setCache key value) := by
  intro k held
  by_cases same : k = key
  · exact .inr same
  · exact .inl fun none => held ((Function.update_of_ne same ..).trans none)

theorem takesOnly_clearCache (other : Lua) : TakesOnly key s (s.clearCache other) := by
  intro k held
  left
  intro none
  apply held
  show Function.update s.cache other .none k = .none
  by_cases same : k = other
  · rw [same, Function.update_self]
  · rw [Function.update_of_ne same, none]

theorem takesOnly_updating (rule : Cached → Option Cached) (cmd : Cmd Lua) :
    TakesOnly key s (s.updating now key rule cmd).1 := by
  rw [CacheRedisd.Service.updating]
  split
  · exact .refl
  · split
    · exact .refl
    · exact takesOnly_setCache _

theorem takesOnly_moveRule {other member : Lua} {v : Option Lua}
    (moved : s.moveRule other member v = some s') : TakesOnly key s s' := by
  rw [CacheRedisd.Service.moveRule] at moved
  intro k held
  split at moved
  · cases moved
    exact .inl held
  · rename_i c found
    obtain ⟨c', _, rfl⟩ := Option.map_eq_some_iff.1 moved
    by_cases same : k = other
    · left
      rw [same, found]
      exact Option.some_ne_none c
    · exact (takesOnly_setCache c' k held).imp id fun here => absurd here same

theorem takesOnly_locking {out : CacheRedisd.Service × LuaReply} (taken : TakesOnly key s out.1)
    (k : Lua) : TakesOnly key s (s.locking k out).1 := by
  rw [CacheRedisd.Service.locking]
  split
  · exact .refl
  · exact taken

theorem takesOnly_batchLocking {out : CacheRedisd.Service × LuaReply} (taken : TakesOnly key s out.1)
    (keys : List Lua) : TakesOnly key s (s.batchLocking keys out).1 := by
  unfold CacheRedisd.Service.batchLocking
  split
  · dsimp only
    split
    · exact .of_eq rfl
    · exact taken
  · dsimp only
    split
    · exact .of_eq rfl
    · exact taken

theorem takesOnly_redis (cmd : Cmd Lua) : TakesOnly key s (s.doRedisCommand now cmd).1 :=
  .of_eq rfl

/-- After a command to Redis. -/
theorem takesOnly_of_exec {cmd : Cmd Lua} {reply : Reply} (out : s.exec now cmd = (s', reply)) :
    TakesOnly key s s' :=
  .of_eq (congrArg (fun out => out.1.cache) out).symm

theorem takesOnly_hashGet : TakesOnly key s (s.hashGet now key).1 := by
  unfold CacheRedisd.Service.hashGet
  split
  · exact .refl
  · exact .refl
  · exact .refl
  · exact .refl
  · split
    · exact (takesOnly_of_exec ‹_›).trans (takesOnly_setCache _)
    · exact takesOnly_of_exec ‹_›

theorem takesOnly_hashGetSet (field amount : Lua) :
    TakesOnly key s (s.hashGetSet now key field amount).1 := by
  unfold CacheRedisd.Service.hashGetSet
  split
  · split
    · exact takesOnly_of_exec ‹_›
    · exact (takesOnly_of_exec ‹_›).trans (takesOnly_setCache _)
    · exact takesOnly_of_exec ‹_›
  · exact takesOnly_of_exec ‹_›

theorem takesOnly_hashBatchGet (fields : List Lua) :
    TakesOnly key s (s.hashBatchGet now key fields).1 := by
  unfold CacheRedisd.Service.hashBatchGet
  split
  · exact takesOnly_redis _
  · unfold CacheRedisd.Service.batchRead
    split
    · exact .refl
    · split
      · exact (takesOnly_of_exec ‹_›).trans (takesOnly_setCache _)
      · exact takesOnly_of_exec ‹_›
  · exact .refl

theorem takesOnly_stringGet : TakesOnly key s (s.stringGet now key).1 := by
  unfold CacheRedisd.Service.stringGet
  split
  · exact .refl
  · exact .refl
  · exact .refl
  · split
    · exact (takesOnly_of_exec ‹_›).trans (takesOnly_setCache _)
    · exact (takesOnly_of_exec ‹_›).trans (takesOnly_setCache _)
    · exact takesOnly_of_exec ‹_›

theorem takesOnly_stringMset (args : List Lua) : TakesOnly key s (s.stringMset now args).1 := by
  have cleared : ∀ (keys : List Lua) (s : CacheRedisd.Service), TakesOnly key s
      (keys.foldl (fun s key => s.clearCache (.str (tostring key))) s) := by
    intro keys
    induction keys with
    | nil => exact fun s => .refl
    | cons first keys ih => exact fun s => (takesOnly_clearCache _).trans (ih _)
  exact (cleared _ s).trans (takesOnly_redis _)

theorem takesOnly_stringGetSet (cmd : Cmd Lua) : TakesOnly key s (s.stringGetSet now key cmd).1 := by
  unfold CacheRedisd.Service.stringGetSet
  split
  · exact takesOnly_of_exec ‹_›
  · exact (takesOnly_of_exec ‹_›).trans (takesOnly_clearCache _)

theorem takesOnly_setGet : TakesOnly key s (s.setGet now key).1 := by
  unfold CacheRedisd.Service.setGet
  split
  · exact .refl
  · exact .refl
  · exact .refl
  · exact .refl
  · split
    · exact (takesOnly_of_exec ‹_›).trans (takesOnly_setCache _)
    · exact takesOnly_of_exec ‹_›

theorem takesOnly_setMove (src target member : Lua) :
    TakesOnly key s (s.setMove now src target member).1 := by
  unfold CacheRedisd.Service.setMove
  split
  · exact .refl
  · split
    · exact takesOnly_moveRule ‹_›
    · exact ((takesOnly_moveRule ‹_›).trans (takesOnly_moveRule ‹_›)).trans (takesOnly_redis _)

theorem takesOnly_setPop (count : Option Lua) (picked : List String) :
    TakesOnly key s (s.setPop now key count picked).1 := by
  unfold CacheRedisd.Service.setPop
  split
  · split
    · exact takesOnly_of_exec ‹_›
    · exact takesOnly_of_exec ‹_›
  · split
    · exact takesOnly_of_exec ‹_›
    · exact (takesOnly_of_exec ‹_›).trans (takesOnly_setCache _)
    · exact takesOnly_of_exec ‹_›
  · exact takesOnly_of_exec ‹_›

theorem takesOnly_keyRename (other newkey : Lua) :
    TakesOnly key s (s.keyRename now other newkey).1 := by
  have cleared : TakesOnly key s ((s.clearCache other).clearCache newkey) :=
    (takesOnly_clearCache _).trans (takesOnly_clearCache _)
  unfold CacheRedisd.Service.keyRename
  split
  · rename_i out
    exact cleared.trans (.of_eq (congrArg (fun out => out.1.cache) out).symm)
  · rename_i out
    exact cleared.trans (.of_eq (congrArg (fun out => out.1.cache) out).symm)

/-- What is asked of an agent, `cache_redisd` does: it takes copies of the first key only. -/
theorem command_fresh (cmd : Cmd Lua) (k : Lua) (held : (s.command now cmd).1.cache k ≠ none) :
    s.cache k ≠ none ∨ tostring k = getCommandKey cmd := by
  have fresh (key : Lua) : TakesOnly key s (s.command now cmd).1 → tostring key = getCommandKey cmd →
      s.cache k ≠ none ∨ tostring k = getCommandKey cmd :=
    fun taken same => (taken k held).imp id fun here => (congrArg tostring here).trans same
  cases cmd with
  | hashSet kind key args => exact fresh _ (takesOnly_locking (takesOnly_updating _ _) key) rfl
  | hmget key fields => exact fresh _ (takesOnly_locking (takesOnly_hashBatchGet _) key) rfl
  | hgetall key => exact fresh _ (takesOnly_locking takesOnly_hashGet key) rfl
  | hdel key fields => exact fresh _ (takesOnly_locking (takesOnly_updating _ _) key) rfl
  | hincrby key field amount => exact fresh _ (takesOnly_locking (takesOnly_hashGetSet _ _) key) rfl
  | get key => exact fresh _ (takesOnly_locking takesOnly_stringGet key) rfl
  | mget keys => exact fresh (.str _) (takesOnly_batchLocking (takesOnly_redis _) keys) rfl
  | stringSet nx key value => exact fresh _ (takesOnly_locking (takesOnly_updating _ _) key) rfl
  | setex key args => exact fresh _ (takesOnly_locking (takesOnly_updating _ _) key) rfl
  | mset args =>
      exact fresh (.str _) (takesOnly_batchLocking (takesOnly_stringMset _) args) rfl
  | incr key => exact fresh _ (takesOnly_locking (takesOnly_stringGetSet _) key) rfl
  | append key value => exact fresh _ (takesOnly_locking (takesOnly_stringGetSet _) key) rfl
  | sadd key members => exact fresh _ (takesOnly_locking (takesOnly_updating _ _) key) rfl
  | smembers key => exact fresh _ (takesOnly_locking takesOnly_setGet key) rfl
  | smove src target member =>
      exact fresh _ (takesOnly_batchLocking (takesOnly_setMove src target member) _) rfl
  | spop key count picked => exact fresh _ (takesOnly_locking (takesOnly_setPop _ _) key) rfl
  | srem key members => exact fresh _ (takesOnly_locking (takesOnly_updating _ _) key) rfl
  | setStore op dest keys =>
      exact fresh _ (takesOnly_locking ((takesOnly_clearCache _).trans (takesOnly_redis _)) dest) rfl
  | del keys =>
      cases keys with
      | nil => exact .inl held
      | cons key rest =>
          exact fresh _ (takesOnly_locking ((takesOnly_clearCache _).trans (takesOnly_redis _)) key) rfl
  | rename key newkey => exact fresh _ (takesOnly_batchLocking (takesOnly_keyRename key newkey) _) rfl
  | expire key seconds => exact fresh _ (takesOnly_locking (takesOnly_redis _) key) rfl

end CacheRedisd

/-! ### Agents that read through -/

/-- What GET answers on a value. -/
def textReply (v : Option Value) : Reply :=
  match textOf v with
  | none => .error
  | some text => (text.map Reply.text).getD .nil

/-- A copy is taken by GET, and given up when its key is written. -/
def readThrough : Agent (String → Option (Option Value)) where
  copy := id
  elapse := fun copies store now key => if store.expired now key then none else copies key
  serve := fun copies store now cmd =>
    match cmd with
    | .get key =>
        let held := (copies (tostring key)).getD (store.data (tostring key))
        (Function.update copies (tostring key) (some held), store, .ofRedis (textReply held))
    | _ =>
        let out := store.exec now (cmd.map tostring)
        (fun key => if key ∈ (cmd.map tostring).writes then none else copies key, out.1,
          .ofRedis out.2)

theorem exec_get (store : Store) (now : Int) (key : String) :
    store.exec now (.get key) = (store, textReply (store.data key)) := by
  rw [Store.exec, textReply]
  cases textOf (store.data key) with
  | none => rfl
  | some text => cases text <;> rfl

/-- Either GET, answered from the copy, or another command, passed on. -/
theorem readThrough_serve (copies : String → Option (Option Value)) {store : Store}
    (agrees : Agrees copies store.data) (now : Int) (cmd : Cmd Lua) :
    ∃ copies', readThrough.serve copies store now cmd =
        (copies', (store.exec now (cmd.map tostring)).1,
          .ofRedis (store.exec now (cmd.map tostring)).2) ∧
      Agrees copies' (store.exec now (cmd.map tostring)).1.data ∧
      ∀ key, copies' key ≠ none → copies key ≠ none ∨ key ∈ homes cmd := by
  cases cmd with
  | get key =>
      have held : (copies (tostring key)).getD (store.data (tostring key)) =
          store.data (tostring key) := by
        cases copy : copies (tostring key) with
        | none => rfl
        | some v => exact (agrees _ v copy).symm
      rw [Cmd.map, exec_get]
      refine ⟨Function.update copies (tostring key) (some (store.data (tostring key))), ?_, ?_, ?_⟩
      · simp only [readThrough, held]
      · intro k v copy
        by_cases same : k = tostring key
        · rw [same, Function.update_self] at copy
          rw [same]
          exact Option.some.inj copy
        · rw [Function.update_of_ne same] at copy
          exact agrees k v copy
      · intro k copy
        by_cases same : k = tostring key
        · exact .inr (List.mem_singleton.2 same)
        · rw [Function.update_of_ne same] at copy
          exact .inl copy
  | _ =>
      refine ⟨_, rfl, ?_, fun key copy => .inl fun none => copy ?_⟩
      · intro key v copy
        obtain ⟨unwritten, before⟩ := Option.ite_none_left_eq_some.1 copy
        rw [Store.exec_data _ unwritten]
        exact agrees key v before
      · rw [none, ite_self]

theorem readThrough_transparent : readThrough.Transparent where
  elapse_agrees := by
    intro copies store now agrees key v copy
    obtain ⟨alive, before⟩ := Option.ite_none_left_eq_some.1 copy
    exact (if_neg alive).trans (agrees key v before)
  elapse_fresh := by
    intro copies store now key _ copy none
    apply copy
    show (if _ then _ else copies key) = _
    rw [show copies key = .none from none, ite_self]
  store := by
    intro copies store now cmd agrees
    obtain ⟨_, out, _, _⟩ := readThrough_serve copies agrees now cmd
    rw [out]
  reply := by
    intro copies store now cmd agrees
    obtain ⟨_, out, _, _⟩ := readThrough_serve copies agrees now cmd
    rw [out]
  agrees := by
    intro copies store now cmd agrees
    obtain ⟨_, out, after, _⟩ := readThrough_serve copies agrees now cmd
    rw [out]
    exact after
  fresh := by
    intro copies store now cmd key agrees copy
    obtain ⟨_, out, _, fresh⟩ := readThrough_serve copies agrees now cmd
    rw [out] at copy
    exact fresh key copy

/-- The agents of the default count, with nothing stored yet. -/
def blank : Run (String → Option (Option Value)) 31 where
  system := ⟨fun _ _ => none, ⟨fun _ => none, fun _ => none⟩⟩
  plain := ⟨fun _ => none, fun _ => none⟩
  answers := []

theorem blank_initial : Initial readThrough blank := ⟨fun _ _ => rfl, rfl, rfl⟩

def twoPairs : List Lua := [.str "a", .str "1", .str "b", .str "2"]

theorem twoPairs_slotted : Slotted crc16 31 twoPairs := by
  intro key listed _
  cases listed with
  | head => rfl
  | tail _ later =>
      cases later with
      | head => rfl
      | tail _ none => cases none

/-- `mset a 1 b 2` and `get b` -/
def setTwo : Request 31 := ⟨0, .mset twoPairs, arrange crc16 31 twoPairs⟩
def getOne : Request 31 := ⟨0, .get (.str "b"), []⟩

/-- After the two requests. -/
def pairsRead : Run (String → Option (Option Value)) 31 :=
  step crc16 readThrough (step crc16 readThrough blank setTwo) getOne

theorem pairs_read_back : pairsRead.system.redis = pairsRead.plain ∧
    Shards.Coherent (pairsRead.system.copies readThrough) pairsRead.system.redis.data ∧
      ∀ a ∈ pairsRead.answers, a.Plain := by
  have set : OptReaches crc16 readThrough (Follows crc16 readThrough)
      (step crc16 readThrough blank setTwo) := by
    refine .next setTwo (.start blank_initial) ?_ ⟨arrange_arranged, rfl⟩
    exact iff_of_true twoPairs_slotted ⟨List.cons_ne_nil _ _, rfl⟩
  refine answers_plain readThrough_transparent (.next getOne set ?_ ⟨True.intro, rfl⟩)
  intro key written
  cases written

/-- `mget b` -/
def mgetOne : Request 31 := ⟨0, .mget [.str "b"], []⟩

/-- The place 1 of the only key has no slot. -/
theorem mget_without_slot :
    ¬ ∀ (State : Type) (agent : Agent State), agent.Transparent → ∀ (hash : String → Nat) (n : Nat)
      (r : Run State n), OptReaches hash agent (fun _ _ => True) r →
        r.system.redis = r.plain ∧ Shards.Coherent (r.system.copies agent) r.system.redis.data ∧
          ∀ a ∈ r.answers, a.Plain := by
  intro claim
  have reached : OptReaches crc16 readThrough (fun _ _ => True)
      (step crc16 readThrough blank mgetOne) :=
    .next mgetOne (.start blank_initial) True.intro ⟨True.intro, rfl⟩
  have plain := (claim _ _ readThrough_transparent _ _ _ reached).2.2 _ List.mem_cons_self
  have refused : ¬ Answer.Plain ⟨.mget [.str "b"],
      ((blank.system.tick readThrough 0).mget crc16 readThrough 0 [.str "b"]).2, _⟩ :=
    mget_not_plain _ 0 _
  exact refused plain

end FkServer.Redisopt
