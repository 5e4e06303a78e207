import FkServer.Library.PlainRedis
import FkServer.Library.WaitFor
import FkServer.Service.Lock
import Mathlib.Order.WithBot

/-!
The key locks of `cache_redisd.lua`. A command on one key runs under the lock of that key;
`mget`, `mset`, `smove` and `rename` lock one argument after another and give all locks back when
Redis has answered. Every request is handled by a coroutine of its own.
-/
namespace FkServer.KeyLocks

open PlainRedis

/-- How a command takes the locks of its keys. -/
inductive Locking (Key : Type)
  /-- `new_lock_commander` -/
  | single (key : Key)
  /-- `batch_lock`, over the arguments as they are written. -/
  | batch (keys : List Key)

def Locking.keys {Key : Type} : Locking Key → List Key
  | .single key => [key]
  | .batch keys => keys

/-- The table `command`. `mset` locks its values like its keys; `del` of nothing is an error. -/
def locking {Key : Type} : Cmd Key → Option (Locking Key)
  | .mget keys => some (.batch keys)
  | .mset args => some (.batch args)
  | .smove src target _ => some (.batch [src, target])
  | .rename key newkey => some (.batch [key, newkey])
  | .del [] => none
  | .del (key :: _) => some (.single key)
  | .hashSet _ key _ | .hmget key _ | .hgetall key | .hdel key _ | .hincrby key _ _ | .get key
  | .stringSet _ key _ | .setex key _ | .incr key | .append key _ | .sadd key _ | .smembers key
  | .spop key _ _ | .srem key _ | .setStore _ key _ | .expire key _ => some (.single key)

/-- How far the coroutine of a request has got. -/
inductive Phase (Key : Type)
  | idle
  /-- `lock` has been called for the keys in `called`, and is to be called for `rest`. -/
  | locking (how : Locking Key) (called rest : List Key)
  /-- The command is at Redis. -/
  | asking (how : Locking Key)
  | unlocking (rest : List Key)
  /-- A Lua error ends the coroutine; what it still holds it keeps. -/
  | failing
  | dead

structure Handlers (Key Co : Type) where
  service : Service Key Co
  phase : Co → Phase Key

inductive Event (Key Co : Type)
  /-- A command arrives and gets the coroutine `co`. -/
  | request (co : Co) (cmd : Cmd Key)
  /-- The coroutine that runs makes its next move. -/
  | run
  /-- It answers from the copy, or fails, and does not ask Redis. -/
  | short
  /-- Redis answers, or the call fails. -/
  | answer (co : Co) (ok : Bool)

namespace Handlers

variable {Key Co : Type} [DecidableEq Key] [DecidableEq Co] (h : Handlers Key Co)

/-- One action of the service, after which the coroutine `co` is at another place. -/
def act (action : Action Key Co) (co : Co) (phase : Phase Key) : Option (Handlers Key Co) :=
  (h.service.step action).map fun service =>
    { service := service, phase := Function.update h.phase co phase }

def runPhase (co : Co) : Phase Key → Option (Handlers Key Co)
  | .locking how called (key :: rest) =>
      -- the assertion in `lock` ends the request
      if h.service.status co = .raised then h.act .yield co .dead
      else h.act (.lock key) co (.locking how (called ++ [key]) rest)
  | .locking how _ [] =>
      if h.service.status co = .raised then h.act .yield co .dead
      else h.act .yield co (.asking how)
  | .unlocking (key :: rest) => h.act (.unlock key) co (.unlocking rest)
  | .unlocking [] => h.act .yield co .idle
  | .failing => h.act .yield co .dead
  | .idle | .asking _ | .dead => none

def step : Event Key Co → Option (Handlers Key Co)
  | .request co cmd =>
      match h.phase co, locking cmd with
      | .idle, some how => h.act (.message co) co (.locking how [] how.keys)
      | _, _ => none
  | .run => h.service.running.bind fun co => h.runPhase co (h.phase co)
  | .short => h.service.running.bind fun co =>
      if h.service.status co = .raised then none
      else match h.phase co with
        | .locking (.single key) _ [] =>
            some { h with phase := Function.update h.phase co (.unlocking [key]) }
        | .locking (.batch _) _ [] =>
            some { h with phase := Function.update h.phase co .failing }
        | _ => none
  | .answer co ok =>
      match h.phase co with
      | .asking (.single key) => h.act (.message co) co (.unlocking [key])
      | .asking (.batch keys) =>
          -- without `xpcall` an error leaves the locks as they are
          h.act (.message co) co (if ok then .unlocking keys else .failing)
      | _ => none

def start : Handlers Key Co := ⟨.start, fun _ => .idle⟩

/-- `co` waits for the lock of a key that `other` holds. -/
def Waits (co other : Co) : Prop :=
  ∃ key, co ∈ (h.service.lock key).threadQueue ∧
    (h.service.lock key).currentThread = some other

/-- Some requests each wait for a lock that another of them holds. -/
def Deadlocked : Prop := ∃ set : Finset Co, WaitFor.Stuck h.Waits set

end Handlers

/-! ### What a coroutine holds at each place -/

section Tally

variable {Key : Type} [DecidableEq Key]

/-- Every new key is above the keys before it. -/
def Ascending [Preorder Key] (keys : List Key) : Prop :=
  ∀ before key after, keys = before ++ key :: after → key ∉ before → ∀ k ∈ before, k < key

omit [DecidableEq Key] in
theorem Ascending.of_pairwise [Preorder Key] {keys : List Key}
    (sorted : keys.Pairwise (· < ·)) : Ascending keys := by
  intro before key after whole new k member
  rw [whole] at sorted
  exact (List.pairwise_append.1 sorted).2.2 k member key List.mem_cons_self

inductive Tally [Preorder Key] : Phase Key → Status Key × (Key → Nat) → Prop
  | idle : Tally .idle (.ready, fun _ => 0)
  | taking {how called rest} (ascending : Ascending how.keys) (whole : how.keys = called ++ rest) :
      Tally (.locking how called rest) (.ready, (called.count ·))
  | queued {how before key rest} (ascending : Ascending how.keys)
      (whole : how.keys = (before ++ [key]) ++ rest) (new : key ∉ before) :
      Tally (.locking how (before ++ [key]) rest) (.queued key, (before.count ·))
  | raised {how called rest} (depth) : Tally (.locking how called rest) (.raised, depth)
  | asking (how) : Tally (.asking how) (.ready, (how.keys.count ·))
  | unlocking (rest) : Tally (.unlocking rest) (.ready, (rest.count ·))
  | failing (depth) : Tally .failing (.ready, depth)
  | dead (status depth) (up : Status.sleeping status = false) : Tally .dead (status, depth)

theorem update_count (called : List Key) (key : Key) :
    Function.update (called.count ·) key (called.count key + 1) =
      fun k => (called ++ [key]).count k := by
  funext k
  by_cases same : k = key
  · simp [same]
  · simp [same, Ne.symm same]

theorem update_count_cons (rest : List Key) (key : Key) :
    Function.update ((key :: rest).count ·) key ((key :: rest).count key - 1) =
      fun k => rest.count k := by
  funext k
  by_cases same : k = key
  · simp [same]
  · simp [same, Ne.symm same]

variable [Preorder Key]

/-- Being woken from the queue of a lock is getting it, or the end of the request. -/
theorem Tally.resumed {phase : Phase Key} {now then_ : Status Key × (Key → Nat)}
    (h : Tally phase now) (woken : Service.Resumed now then_) : Tally phase then_ := by
  cases woken with
  | same => exact h
  | granted key =>
      cases h with
      | queued ascending whole new =>
          rw [update_count]
          exact .taking ascending whole
      | dead _ _ up => cases up
  | refused key =>
      cases h with
      | queued => exact .raised _
      | dead _ _ up => cases up
  | woken =>
      cases h with
      | dead _ _ up => cases up

variable {status : Status Key} {depth : Key → Nat}

theorem Tally.of_idle (h : Tally .idle (status, depth)) : status = .ready ∧ depth = fun _ => 0 := by
  cases h
  exact ⟨rfl, rfl⟩

/-- Whoever runs between two locks has exactly those it called for. -/
theorem Tally.of_locking {how : Locking Key} {called rest : List Key}
    (h : Tally (.locking how called rest) (status, depth)) (up : status.sleeping = false)
    (fine : status ≠ .raised) : status = .ready ∧ depth = (called.count ·) ∧
      Ascending how.keys ∧ how.keys = called ++ rest := by
  cases h with
  | taking ascending whole => exact ⟨rfl, rfl, ascending, whole⟩
  | queued => cases up
  | raised => exact absurd rfl fine

theorem Tally.of_asking {how : Locking Key} (h : Tally (.asking how) (status, depth)) :
    status = .ready ∧ depth = (how.keys.count ·) := by
  cases h
  exact ⟨rfl, rfl⟩

theorem Tally.of_unlocking {rest : List Key} (h : Tally (.unlocking rest) (status, depth)) :
    status = .ready ∧ depth = (rest.count ·) := by
  cases h
  exact ⟨rfl, rfl⟩

/-- Whoever is queued at a lock holds only locks of lower keys. -/
theorem Tally.holds_lower {phase : Phase Key} {key lower : Key}
    (h : Tally phase (.queued key, depth)) (holds : 0 < depth lower) : lower < key := by
  cases h with
  | queued ascending whole new =>
      rw [List.append_assoc] at whole
      exact ascending _ key _ whole new lower (List.count_pos_iff.1 holds)
  | dead _ _ up => cases up

end Tally

/-! ### No deadlock -/

namespace Handlers

variable {Key Co : Type} [DecidableEq Key] [DecidableEq Co] [Preorder Key]
variable {h : Handlers Key Co}

structure Steady (h : Handlers Key Co) : Prop where
  settled : h.service.Settled
  tally : ∀ co, Tally (h.phase co) (h.service.status co, h.service.depth co)

theorem Steady.act {h' : Handlers Key Co} {action : Action Key Co} {co : Co} {phase : Phase Key}
    (steady : h.Steady) (moved : h.act action co phase = some h')
    (alone : ∀ w, w ≠ co → h.service.running ≠ some w)
    (self : ∀ s', h.service.step action = some s' → Tally phase (s'.status co, s'.depth co)) :
    h'.Steady := by
  obtain ⟨s', acted, out⟩ := Option.map_eq_some_iff.1 moved
  rw [← out]
  refine ⟨steady.settled.step acted, fun w => ?_⟩
  by_cases same : w = co
  · simp only [same, Function.update_self]
    exact self s' acted
  · simp only [Function.update_of_ne same]
    exact (steady.tally w).resumed (steady.settled.step_resumed acted (alone w same))

/-- A coroutine suspends at a place where its locks are right. -/
theorem Steady.yield {h' : Handlers Key Co} {co : Co} {phase : Phase Key} (steady : h.Steady)
    (runs : h.service.running = some co) (moved : h.act .yield co phase = some h')
    (tally : Tally phase (h.service.status co, h.service.depth co)) : h'.Steady := by
  refine steady.act moved (fun w apart => ?_) fun s' acted => ?_
  · rw [runs]
    exact fun same => apart (Option.some.inj same).symm
  · obtain ⟨_, _, out⟩ := Option.map_eq_some_iff.1 acted
    exact out ▸ tally.resumed (steady.settled.toSound.dispatchWakeup_resumed co)

/-- A message goes to a coroutine that waits for it. -/
theorem Steady.message {h' : Handlers Key Co} {co : Co} {phase : Phase Key} (steady : h.Steady)
    (moved : h.act (.message co) co phase = some h')
    (tally : Tally phase (h.service.status co, h.service.depth co)) : h'.Steady := by
  have idle : h.service.running = none := by
    obtain ⟨s', acted, _⟩ := Option.map_eq_some_iff.1 moved
    rw [Service.step] at acted
    split at acted
    · rename_i free
      exact free.1
    · cases acted
  refine steady.act moved (fun w _ => ?_) fun s' acted => ?_
  · rw [idle]
    simp
  · exact tally.resumed (steady.settled.step_resumed acted (by rw [idle]; simp))

theorem Steady.runPhase {h' : Handlers Key Co} {co : Co} (steady : h.Steady)
    (runs : h.service.running = some co) (moved : h.runPhase co (h.phase co) = some h') :
    h'.Steady := by
  have up := steady.settled.awake co runs
  have tally := steady.tally co
  have alone : ∀ w, w ≠ co → h.service.running ≠ some w := by
    intro w apart same
    exact apart (Option.some.inj (same.symm.trans runs))
  have ends : h.act .yield co .dead = some h' → h'.Steady := fun moved =>
    steady.yield runs moved (.dead _ _ up)
  cases at_ : h.phase co with
  | locking how called rest =>
      rw [at_] at moved tally
      by_cases raised : h.service.status co = .raised
      · cases rest with
        | nil =>
            rw [Handlers.runPhase, if_pos raised] at moved
            exact ends moved
        | cons key rest =>
            rw [Handlers.runPhase, if_pos raised] at moved
            exact ends moved
      · -- whoever runs is not asleep
        obtain ⟨ready, depth, ascending, whole⟩ := tally.of_locking up raised
        cases rest with
        | nil =>
            rw [Handlers.runPhase, if_neg raised] at moved
            refine steady.yield runs moved ?_
            rw [ready, depth, show called = how.keys by rw [whole, List.append_nil]]
            exact .asking how
        | cons key rest =>
            rw [Handlers.runPhase, if_neg raised] at moved
            have split : how.keys = (called ++ [key]) ++ rest := by rw [whole]; simp
            refine steady.act moved alone fun s' acted => ?_
            cases steady.settled.step_lock runs acted with
            | inl entered =>
                rw [entered.1, entered.2, ready, depth, update_count]
                exact .taking ascending split
            | inr waits =>
                have new : key ∉ called := by
                  have none := waits.1
                  rw [depth] at none
                  exact List.count_eq_zero.1 none
                rw [depth] at waits
                exact (Tally.queued ascending split new).resumed waits.2
  | unlocking rest =>
      rw [at_] at moved tally
      obtain ⟨ready, depth⟩ := tally.of_unlocking
      cases rest with
      | nil =>
          refine steady.yield runs moved ?_
          rw [ready, depth]
          exact .idle
      | cons key rest =>
          refine steady.act moved alone fun s' acted => ?_
          have left := steady.settled.step_unlock runs acted
          rw [left.1, left.2, ready, depth, update_count_cons]
          exact .unlocking rest
  | failing =>
      rw [at_] at moved
      exact ends moved
  | idle => rw [at_] at moved; cases moved
  | asking => rw [at_] at moved; cases moved
  | dead => rw [at_] at moved; cases moved

omit [Preorder Key] in
theorem short_cases {h' : Handlers Key Co} (moved : h.step .short = some h') :
    ∃ co how called phase, h.service.running = some co ∧ h.service.status co ≠ .raised ∧
      h.phase co = .locking how called [] ∧
      h' = { h with phase := Function.update h.phase co phase } ∧
      (phase = .unlocking how.keys ∨ phase = .failing) := by
  obtain ⟨co, runs, moved⟩ := Option.bind_eq_some_iff.1 moved
  split at moved
  · cases moved
  · rename_i fine
    split at moved
    · rename_i key called at_
      exact ⟨co, _, called, _, runs, fine, at_, (Option.some.inj moved).symm, .inl rfl⟩
    · rename_i keys called at_
      exact ⟨co, _, called, _, runs, fine, at_, (Option.some.inj moved).symm, .inr rfl⟩
    · cases moved

/-- The guard: a command names its keys in ascending order. -/
def NamesAscending (_ : Handlers Key Co) : Event Key Co → Prop
  | .request _ cmd => ∀ how, locking cmd = some how → Ascending how.keys
  | _ => True

theorem Steady.step {h' : Handlers Key Co} {event : Event Key Co} (steady : h.Steady)
    (guard : h.NamesAscending event) (moved : h.step event = some h') : h'.Steady := by
  cases event with
  | request co cmd =>
      rw [Handlers.step] at moved
      split at moved
      · rename_i how at_ locks
        have tally := steady.tally co
        rw [at_] at tally
        refine steady.message moved ?_
        rw [tally.of_idle.1, tally.of_idle.2]
        exact .taking (guard how locks) rfl
      · cases moved
  | run =>
      obtain ⟨co, runs, moved⟩ := Option.bind_eq_some_iff.1 moved
      exact steady.runPhase runs moved
  | short =>
      obtain ⟨co, how, called, phase, runs, fine, at_, out, ends⟩ := short_cases moved
      have tally := steady.tally co
      rw [at_] at tally
      obtain ⟨ready, depth, -, whole⟩ := tally.of_locking (steady.settled.awake co runs) fine
      rw [List.append_nil] at whole
      rw [out]
      refine ⟨steady.settled, fun w => ?_⟩
      by_cases same : w = co
      · simp only [same, Function.update_self]
        rw [ready, depth, ← whole]
        cases ends with
        | inl unlocks => exact unlocks ▸ .unlocking _
        | inr fails => exact fails ▸ .failing _
      · simp only [Function.update_of_ne same]
        exact steady.tally w
  | answer co ok =>
      have tally := steady.tally co
      rw [Handlers.step] at moved
      split at moved
      · rename_i key at_
        rw [at_] at tally
        refine steady.message moved ?_
        rw [tally.of_asking.1, tally.of_asking.2]
        exact .unlocking [key]
      · rename_i keys at_
        rw [at_] at tally
        refine steady.message moved ?_
        rw [tally.of_asking.1, tally.of_asking.2]
        cases ok with
        | true => exact .unlocking keys
        | false => exact .failing _
      · cases moved

omit [DecidableEq Co] in
theorem start_steady : (start : Handlers Key Co).Steady where
  settled := Service.start_steady.toSettled
  tally _ := .idle

/-- Among waiting requests the keys they wait for go up. -/
def waitedKey (h : Handlers Key Co) (co : Co) : WithBot Key :=
  match h.service.status co with
  | .queued key => key
  | _ => ⊥

omit [DecidableEq Co] in
theorem Steady.not_deadlocked (steady : h.Steady) : ¬ h.Deadlocked := by
  rintro ⟨set, stuck⟩
  refine WaitFor.not_stuck_of_lt h.waitedKey set.finite_toSet ?_ stuck
  rintro co - other inside ⟨key, queued, holds⟩
  have lock := steady.settled.lock key
  have waits : h.service.status co = .queued key := (lock.waiting co queued).1
  have held : 0 < h.service.depth other key := (lock.held other holds).1
  obtain ⟨_, -, next, queued', -⟩ := stuck.2 other inside
  have waits' : h.service.status other = .queued next :=
    ((steady.settled.lock next).waiting other queued').1
  have tally := steady.tally other
  rw [waits'] at tally
  have lower := tally.holds_lower held
  simpa [waitedKey, waits, waits'] using lower

abbrev KeysReach (ok : Handlers Key Co → Event Key Co → Prop) : Handlers Key Co → Prop :=
  Runs.Reaches (fun h => h = start) (fun h event h' => h.step event = some h') ok

/-- Where every command names its keys in one order, no requests wait for each other. -/
theorem never_deadlocks (reached : KeysReach NamesAscending h) : ¬ h.Deadlocked := by
  have steady : h.Steady := by
    refine reached.invariant (fun h start => ?_) fun h event h' steady guard moved => ?_
    · exact start ▸ start_steady
    · exact steady.step guard moved
  exact steady.not_deadlocked

def ascending : Event Nat Nat → Bool
  | .request _ cmd => (locking cmd).all fun how => decide (how.keys.Pairwise (· < ·))
  | _ => true

/-- Coroutines 1 and 2 get the keys 0 and 1; meanwhile 3 and 4 ask for both, in one order. Then 3
holds the first and waits for the second. -/
def oneOrder : List (Event Nat Nat) :=
  [.request 1 (.get 0), .run, .run, .request 2 (.get 1), .run, .run,
    .request 3 (.mget [0, 1]), .run, .request 4 (.mget [0, 1]), .run,
    .answer 1 true, .run, .run, .run]

theorem waiters_in_order : ∃ h : Handlers Nat Nat, (h.service.lock 0).threadQueue = [4] ∧
    (h.service.lock 1).threadQueue = [3] ∧ ¬ h.Deadlocked := by
  have run : (oneOrder.foldlM (fun h event => if ascending event then h.step event else none)
      (start : Handlers Nat Nat)).map (fun h =>
        ((h.service.lock 0).threadQueue, (h.service.lock 1).threadQueue)) = some ([4], [3]) := by
    decide
  obtain ⟨h, ended, queues⟩ := Option.map_eq_some_iff.1 run
  obtain ⟨first, second⟩ := Prod.mk.inj queues
  refine ⟨h, first, second, never_deadlocks (Runs.reaches_of_tested ?_ (.start rfl) ended)⟩
  intro h event tested
  cases event with
  | request co cmd =>
      intro how locks
      rw [ascending, locks] at tested
      exact .of_pairwise (of_decide_eq_true tested)
  | _ => trivial

/-! ### Two orders -/

/-- Coroutines 1 and 2 get the keys 0 and 1; meanwhile 3 and 4 ask for both, in two orders. -/
def crossing : List (Event Nat Nat) :=
  [.request 1 (.get 0), .run, .run, .request 2 (.get 1), .run, .run,
    .request 3 (.mget [0, 1]), .run, .request 4 (.mget [1, 0]), .run,
    .answer 1 true, .run, .run, .run, .answer 2 true, .run, .run, .run]

theorem crossing_deadlocks :
    ¬ ∀ h : Handlers Nat Nat, KeysReach (fun _ _ => True) h → ¬ h.Deadlocked := by
  intro claim
  have run : (crossing.foldlM step (start : Handlers Nat Nat)).map (fun h =>
      ((h.service.lock 0).threadQueue, (h.service.lock 0).currentThread,
        (h.service.lock 1).threadQueue, (h.service.lock 1).currentThread)) =
      some ([4], some 3, [3], some 4) := by
    decide
  obtain ⟨h, ended, locks⟩ := Option.map_eq_some_iff.1 run
  have begun : KeysReach (fun _ _ => True) (start : Handlers Nat Nat) := .start rfl
  refine claim h (Runs.reachable_of_foldlM begun ended) ⟨{3, 4}, ⟨3, by simp⟩, fun co member => ?_⟩
  simp only [Prod.mk.injEq] at locks
  obtain ⟨queue, holder, queue', holder'⟩ := locks
  cases Finset.mem_insert.1 member with
  | inl third => exact ⟨4, by simp, 1, by rw [third, queue']; simp, holder'⟩
  | inr fourth => exact ⟨3, by simp, 0, by rw [Finset.mem_singleton.1 fourth, queue]; simp, holder⟩

end Handlers

end FkServer.KeyLocks
