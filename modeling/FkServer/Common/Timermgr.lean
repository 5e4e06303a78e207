import FkServer.Library.Runs
import Mathlib.Algebra.Order.Ring.Rat
import Mathlib.Logic.Function.Basic
import Mathlib.Tactic.Linarith

/-!
`timermgr.lua`: timers that a tick counts down. A new timer waits in `swap` until the end of the
next tick; timers are known by their object, their id and their name. Times are as exact as
`skynet.time`, which never goes back.
-/
namespace FkServer

structure Timer (Name Func : Type) where
  id : Nat
  remainder : ℚ
  name : Option Name
  interval : ℚ
  callback : Func
  repeated : Bool
  paused : Bool

/-- A callback that has been given to `skynet.fork`. -/
inductive Fork (Func : Type)
  /-- `new_timer` with the time 0. -/
  | now (callback : Func)
  /-- The timer, when, and whether it had been killed or paused and not restarted or resumed. -/
  | timer (r : Nat) (callback : Func) (time : ℚ) (stopped : Bool)

/-- The time, if it is this timer. -/
def Fork.time? {Func : Type} (r : Nat) : Fork Func → Option ℚ
  | .now _ => none
  | .timer r' _ time _ => if r' = r then some time else none

def Fork.Stopped {Func : Type} : Fork Func → Prop
  | .now _ => False
  | .timer _ _ _ stopped => stopped = true

/-- The module's variables, with the timer objects, which are known by their index. The rest is
history: who has been killed or paused last, how often a timer has been scheduled since its start
or restart, and whom the last tick has counted down. -/
structure TimerMgr (Name Func : Type) where
  object : Nat → Option (Timer Name Func)
  created : Nat
  timers : Nat → Option Nat
  swap : Nat → Option Nat
  nametimers : Name → Option Nat
  lastTick : ℚ
  currentId : Nat
  killed : Nat → Bool
  held : Nat → Bool
  fired : Nat → Nat
  counted : List Nat
  forked : List (Fork Func)

namespace TimerMgr

variable {Name Func : Type} [DecidableEq Name] (s : TimerMgr Name Func)

def setObject (r : Nat) (t : Timer Name Func) : TimerMgr Name Func :=
  { s with object := Function.update s.object r (some t) }

omit [DecidableEq Name] in
@[simp] theorem setObject_self (r : Nat) (t : Timer Name Func) :
    (s.setObject r t).object r = some t := Function.update_self ..

omit [DecidableEq Name] in
theorem setObject_of_ne {r r' : Nat} (other : r' ≠ r) (t : Timer Name Func) :
    (s.setObject r t).object r' = s.object r' := Function.update_of_ne other ..

/-- `generate_id`, which goes on until it finds an id that is free. -/
def generateIdFrom (s : TimerMgr Name Func) : Nat → Nat → Option Nat
  | 0, _ => none
  | fuel + 1, current =>
      let id := current % 100000000 + 1
      if s.timers id = none ∧ s.swap id = none then some id else generateIdFrom s fuel id

/-- There are no more ids than that; without a free one it does not return. -/
def generateId : Option Nat := s.generateIdFrom 100000000 s.currentId

/-- How a timer is named in a call. -/
inductive Target (Name : Type)
  | object (r : Nat)
  | id (id : Nat)
  | name (name : Name)

def gettimer : Target Name → Option Nat
  | .object r => some r
  | .id id => s.timers id
  | .name name => s.nametimers name

def pause (r : Nat) : TimerMgr Name Func :=
  match s.object r with
  | none => s
  | some t =>
      let s := if t.paused then s.setObject r { t with paused := true } else s
      { s with held := Function.update s.held r true }

def resume (r : Nat) : TimerMgr Name Func :=
  match s.object r with
  | none => s
  | some t =>
      { s.setObject r { t with paused := false } with held := Function.update s.held r false }

/-- The history of a start or restart. -/
def started (r : Nat) (held : Bool) : TimerMgr Name Func :=
  { s with
    killed := Function.update s.killed r false
    held := Function.update s.held r held
    fired := Function.update s.fired r 0 }

def restart (r : Nat) (func : Option Func) : Option (TimerMgr Name Func) :=
  match s.object r with
  | none => some s
  | some t =>
      let t := { t with
        callback := func.getD t.callback
        paused := false
        remainder := t.interval }
      if s.gettimer (.id t.id) = some r then some ((s.setObject r t).started r false)
      else s.generateId.map fun id =>
        { (s.setObject r { t with id := id }).started r false with
          currentId := id
          swap := Function.update s.swap id (some r) }

def newTimer (time : ℚ) (func : Func) (name : Option Name) (repeated paused : Bool) :
    Option (TimerMgr Name Func) :=
  if time < 0 then some s
  else if time = 0 then some { s with forked := .now func :: s.forked }
  -- the name exists already
  else if name.any fun name => (s.nametimers name).isSome then some s
  else s.generateId.map fun id =>
    { (s.setObject s.created ⟨id, time, name, time, func, repeated, paused⟩).started s.created
        paused with
      created := s.created + 1
      currentId := id
      swap := Function.update s.swap id (some s.created)
      nametimers := match name with
        | none => s.nametimers
        | some name => Function.update s.nametimers name (some s.created) }

def forgetName (name : Option Name) : TimerMgr Name Func :=
  { s with
    nametimers := match name with
      | none => s.nametimers
      | some name => Function.update s.nametimers name none }

/-- Whether a timer is meant by whoever kills this target: the object itself, the timer with this
id, or a timer that is to run under this name. -/
def meant (r : Nat) : Target Name → Bool
  | .object r' => decide (r' = r)
  | .id id => decide (s.timers id = some r ∨ s.swap id = some r)
  | .name name => (s.object r).any fun t =>
      decide (t.name = some name ∧ (s.timers t.id = some r ∨ s.swap t.id = some r))

def killTimer (target : Target Name) : TimerMgr Name Func :=
  let dead := { s with killed := fun r => s.killed r || s.meant r target }
  match (s.gettimer target).bind s.object with
  | none => dead
  | some t =>
      { dead.forgetName t.name with
        timers := Function.update s.timers t.id none
        swap := Function.update s.swap t.id none }

def fork (r : Nat) (callback : Func) : TimerMgr Name Func :=
  { s with
    fired := Function.update s.fired r (s.fired r + 1)
    forked := .timer r callback s.lastTick (s.killed r || s.held r) :: s.forked }

/-- One turn of the loop of `tick`. -/
def count (delta : ℚ) (s : TimerMgr Name Func) (i : Nat) : TimerMgr Name Func :=
  match s.timers i with
  | none => s
  | some r =>
      match s.object r with
      | none => s
      | some t =>
          if t.paused then s
          else
            let t := { t with remainder := t.remainder - delta }
            let s := { s.setObject r t with counted := r :: s.counted }
            if 0 < t.remainder then s
            else if t.repeated then
              (s.fork r t.callback).setObject r { t with remainder := t.interval }
            else
              { (s.fork r t.callback).forgetName t.name with
                timers := Function.update s.timers i none }

/-- The timers of `swap` join the others. -/
def merge : TimerMgr Name Func :=
  { s with
    timers := fun i => (s.swap i).or (s.timers i)
    swap := fun _ => none }

/-- `tick` at a time, with the ids in the order of `pairs`. -/
def tick (now : ℚ) (order : List Nat) : TimerMgr Name Func :=
  (order.foldl (count (now - s.lastTick)) { s with lastTick := now, counted := [] }).merge

inductive Event (Name Func : Type)
  | newTimer (time : ℚ) (func : Func) (name : Option Name) (repeated paused : Bool)
  | pause (r : Nat)
  | resume (r : Nat)
  | restart (r : Nat) (func : Option Func)
  | kill (target : Target Name)
  | tick (now : ℚ) (order : List Nat)

def Step : Event Name Func → TimerMgr Name Func → Prop
  | .newTimer time func name repeated paused, s' =>
      s.newTimer time func name repeated paused = some s'
  | .pause r, s' => s' = s.pause r
  | .resume r, s' => s' = s.resume r
  | .restart r func, s' => s.restart r func = some s'
  | .kill target, s' => s' = s.killTimer target
  | .tick now order, s' => s.lastTick ≤ now ∧ order.Nodup ∧
      (∀ i, i ∈ order ↔ s.timers i ≠ none) ∧ s' = s.tick now order

def start : TimerMgr Name Func where
  object _ := none
  created := 0
  timers _ := none
  swap _ := none
  nametimers _ := none
  lastTick := 0
  currentId := 0
  killed _ := false
  held _ := false
  fired _ := 0
  counted := []
  forked := []

/-! ### The invariant -/

def Registered (s : TimerMgr Name Func) (i r : Nat) : Prop :=
  s.timers i = some r ∨ s.swap i = some r

/-- When a timer has been scheduled, the last time first. -/
def times (s : TimerMgr Name Func) (r : Nat) : List ℚ := s.forked.filterMap (Fork.time? r)

/-- `clock` says up to when a timer has been counted down. -/
structure Sound (s : TimerMgr Name Func) (clock : Nat → ℚ) : Prop where
  known : ∀ i r, s.Registered i r → ∃ t, s.object r = some t ∧ t.id = i
  apart : ∀ i, s.timers i ≠ none → s.swap i = none
  fresh : ∀ r, s.created ≤ r → s.object r = none
  waiting : ∀ i r t, s.Registered i r → s.object r = some t → t.repeated = false → s.fired r = 0
  atMost : ∀ r t, s.object r = some t → t.repeated = false → s.fired r ≤ 1
  alive : ∀ i r, s.Registered i r → s.killed r = false
  paused : ∀ i r t, s.Registered i r → s.object r = some t → s.held r = true → t.paused = true
  positive : ∀ r t, s.object r = some t → 0 < t.interval
  past : ∀ r t, s.object r = some t → t.repeated = true → ∀ time ∈ s.times r,
    t.interval - t.remainder ≤ clock r - time ∧ time ≤ clock r
  spaced : ∀ r t, s.object r = some t → t.repeated = true →
    (s.times r).Pairwise fun newer older => t.interval ≤ newer - older
  timed : ∀ r, s.object r = none → s.times r = []
  clean : ∀ f ∈ s.forked, ¬ f.Stopped

variable {s s' : TimerMgr Name Func} {clock clock' : Nat → ℚ} {r i : Nat} {t : Timer Name Func}

omit [DecidableEq Name] in
/-- A timer is registered under its own id. -/
theorem Sound.one (h : s.Sound clock) {j : Nat} (at_ : s.Registered i r)
    (at_' : s.Registered j r) : i = j := by
  obtain ⟨t, object, id⟩ := h.known i r at_
  obtain ⟨t', object', id'⟩ := h.known j r at_'
  rw [object] at object'
  cases object'
  exact id.symm.trans id'

omit [DecidableEq Name] in
theorem Sound.mono (h : s.Sound clock) (later : ∀ r, clock r ≤ clock' r) : s.Sound clock' :=
  { h with
    past := fun r t object repeated time member => by
      obtain ⟨left, before⟩ := h.past r t object repeated time member
      have later := later r
      exact ⟨by linarith, by linarith⟩ }

/-- What tables lose a timer that is killed or has fired. -/
structure Shrinks (s s' : TimerMgr Name Func) : Prop where
  object : s'.object = s.object
  created : s'.created = s.created
  fired : s'.fired = s.fired
  held : s'.held = s.held
  forked : s'.forked = s.forked
  timers : ∀ i r, s'.timers i = some r → s.timers i = some r
  swap : ∀ i r, s'.swap i = some r → s.swap i = some r

omit [DecidableEq Name] in
theorem Shrinks.registered (shrinks : s.Shrinks s') (at_ : s'.Registered i r) :
    s.Registered i r :=
  at_.imp (shrinks.timers i r) (shrinks.swap i r)

omit [DecidableEq Name] in
theorem Sound.shrink (h : s.Sound clock) (shrinks : s.Shrinks s')
    (alive : ∀ i r, s'.Registered i r → s'.killed r = false) : s'.Sound clock := by
  have times : ∀ r, s'.times r = s.times r := fun r => by
    rw [TimerMgr.times, shrinks.forked, TimerMgr.times]
  refine ⟨fun i r at_ => ?_, fun i some_ => ?_, fun r old => ?_, fun i r t at_ object => ?_,
    fun r t object => ?_, alive, fun i r t at_ object => ?_, fun r t object => ?_,
    fun r t object => ?_, fun r t object => ?_, fun r none => ?_, ?_⟩
  · rw [shrinks.object]
    exact h.known i r (shrinks.registered at_)
  · obtain ⟨r, at_⟩ := Option.ne_none_iff_exists'.1 some_
    have free := h.apart i (by rw [shrinks.timers i r at_]; exact Option.some_ne_none r)
    cases at_' : s'.swap i with
    | none => rfl
    | some r' =>
        rw [shrinks.swap i r' at_'] at free
        cases free
  · rw [shrinks.object]
    exact h.fresh r (shrinks.created ▸ old)
  · rw [shrinks.object] at object
    rw [shrinks.fired]
    exact h.waiting i r t (shrinks.registered at_) object
  · rw [shrinks.object] at object
    rw [shrinks.fired]
    exact h.atMost r t object
  · rw [shrinks.object] at object
    rw [shrinks.held]
    exact h.paused i r t (shrinks.registered at_) object
  · exact h.positive r t (shrinks.object ▸ object)
  · rw [times]
    exact h.past r t (shrinks.object ▸ object)
  · rw [times]
    exact h.spaced r t (shrinks.object ▸ object)
  · rw [times]
    exact h.timed r (shrinks.object ▸ none)
  · rw [shrinks.forked]
    exact h.clean

omit [DecidableEq Name] in
/-- A timer object changes, but not its id, interval and kind. -/
theorem Sound.setObject (h : s.Sound clock) {u : Timer Name Func} (object : s.object r = some t)
    (id : ∀ i, s.Registered i r → u.id = t.id) (interval : u.interval = t.interval) (kind : u.repeated = t.repeated)
    (others : ∀ r', r' ≠ r → clock' r' = clock r')
    (paused : ∀ i, s.Registered i r → s.held r = true → u.paused = true)
    (past : t.repeated = true → ∀ time ∈ s.times r,
      u.interval - u.remainder ≤ clock' r - time ∧ time ≤ clock' r) :
    (s.setObject r u).Sound clock' := by
  have look : ∀ r' o, (s.setObject r u).object r' = some o →
      r' = r ∧ o = u ∨ r' ≠ r ∧ s.object r' = some o := by
    intro r' o at_
    by_cases same : r' = r
    · rw [same, setObject_self] at at_
      exact .inl ⟨same, (Option.some.inj at_).symm⟩
    · rw [setObject_of_ne _ same] at at_
      exact .inr ⟨same, at_⟩
  refine ⟨fun i r' at_ => ?_, h.apart, fun r' old => ?_, fun i r' o at_ objecu => ?_,
    fun r' o objecu => ?_, h.alive, fun i r' o at_ objecu => ?_, fun r' o objecu => ?_,
    fun r' o objecu => ?_, fun r' o objecu => ?_, fun r' none => ?_, h.clean⟩
  · obtain ⟨o, objecu, mine⟩ := h.known i r' at_
    by_cases same : r' = r
    · rw [same, object] at objecu
      cases objecu
      exact ⟨u, by rw [same, setObject_self], (id i (same ▸ at_)).trans mine⟩
    · exact ⟨o, by rw [setObject_of_ne _ same, objecu], mine⟩
  · have none := h.fresh r' old
    have other : r' ≠ r := fun same => by
      rw [same, object] at none
      cases none
    rw [setObject_of_ne _ other, none]
  · rcases look r' o objecu with ⟨same, rfl⟩ | ⟨_, objecu⟩
    · rw [same] at at_ ⊢
      rw [kind]
      exact h.waiting i r t at_ object
    · exact h.waiting i r' o at_ objecu
  · rcases look r' o objecu with ⟨same, rfl⟩ | ⟨_, objecu⟩
    · rw [same, kind]
      exact h.atMost r t object
    · exact h.atMost r' o objecu
  · rcases look r' o objecu with ⟨same, rfl⟩ | ⟨_, objecu⟩
    · rw [same] at at_ ⊢
      exact paused i at_
    · exact h.paused i r' o at_ objecu
  · rcases look r' o objecu with ⟨same, rfl⟩ | ⟨_, objecu⟩
    · rw [interval]
      exact h.positive r t object
    · exact h.positive r' o objecu
  · rcases look r' o objecu with ⟨same, rfl⟩ | ⟨other, objecu⟩
    · rw [same, kind]
      exact past
    · rw [others r' other]
      exact h.past r' o objecu
  · rcases look r' o objecu with ⟨same, rfl⟩ | ⟨_, objecu⟩
    · rw [same, kind, interval]
      exact h.spaced r t object
    · exact h.spaced r' o objecu
  · have other : r' ≠ r := fun same => by
      rw [same, setObject_self] at none
      cases none
    rw [setObject_of_ne _ other] at none
    exact h.timed r' none

omit [DecidableEq Name] in
theorem times_fork (s : TimerMgr Name Func) (r r' : Nat) (callback : Func) :
    (s.fork r callback).times r' =
      if r' = r then s.lastTick :: s.times r' else s.times r' := by
  rw [times, fork, List.filterMap_cons]
  by_cases same : r' = r
  · simp [Fork.time?, same, times]
  · simp [Fork.time?, same, Ne.symm same, times]

omit [DecidableEq Name] in
/-- A timer is scheduled that has not been stopped: one that fires once is not registered any
more, a repeated one has waited for its interval and starts anew. -/
theorem Sound.fork (h : s.Sound clock) (object : s.object r = some t) (callback : Func)
    (going : s.killed r = false ∧ s.held r = false) (now : clock r = s.lastTick)
    (once : t.repeated = false → s.fired r = 0 ∧ ∀ i, ¬ s.Registered i r)
    (again : t.repeated = true → t.interval ≤ t.remainder ∧
      ∀ time ∈ s.times r, t.interval ≤ s.lastTick - time) :
    (s.fork r callback).Sound clock := by
  have same_object : ∀ o, s.object r = some o → o = t := fun o object' =>
    Option.some.inj (object'.symm.trans object)
  refine ⟨h.known, h.apart, h.fresh, fun i r' o at_ object' kind => ?_,
    fun r' o object' kind => ?_, h.alive, h.paused, h.positive, fun r' o object' kind => ?_,
    fun r' o object' kind => ?_, fun r' none => ?_, fun f member => ?_⟩
  · have other : r' ≠ r := fun same => by
      rw [same] at at_ object'
      exact (once (same_object o object' ▸ kind)).2 i at_
    have kept : (s.fork r callback).fired r' = s.fired r' := Function.update_of_ne other ..
    rw [kept]
    exact h.waiting i r' o at_ object' kind
  · by_cases same : r' = r
    · rw [same] at object' ⊢
      have first : (s.fork r callback).fired r = s.fired r + 1 := Function.update_self ..
      rw [first, (once (same_object o object' ▸ kind)).1]
    · have kept : (s.fork r callback).fired r' = s.fired r' := Function.update_of_ne same ..
      rw [kept]
      exact h.atMost r' o object' kind
  · rw [times_fork]
    split
    · rename_i same
      rw [same] at object' ⊢
      cases same_object o object'
      have again := again kind
      intro time member
      cases List.mem_cons.1 member with
      | inl last => exact ⟨by rw [last, now]; linarith [again.1], by rw [last, now]⟩
      | inr old => exact h.past r t object' kind time old
    · exact h.past r' o object' kind
  · rw [times_fork]
    split
    · rename_i same
      rw [same] at object' ⊢
      cases same_object o object'
      exact List.pairwise_cons.2 ⟨(again kind).2, h.spaced r t object' kind⟩
    · exact h.spaced r' o object' kind
  · have other : r' ≠ r := fun same => by
      rw [same] at none
      exact absurd (none.symm.trans object) nofun
    rw [times_fork, if_neg other]
    exact h.timed r' none
  · cases List.mem_cons.1 member with
    | inl last => simp [last, Fork.Stopped, going]
    | inr old => exact h.clean f old

omit [DecidableEq Name] in
/-- The history of a start: what has happened before does not count. -/
theorem Sound.started (h : s.Sound clock) (r : Nat) (held : Bool)
    (paused : ∀ i t, s.Registered i r → s.object r = some t → held = true → t.paused = true) :
    (s.started r held).Sound clock := by
  refine ⟨h.known, h.apart, h.fresh, fun i r' t at_ object kind => ?_, fun r' t object kind => ?_,
    fun i r' at_ => ?_, fun i r' t at_ object stopped => ?_, h.positive, h.past, h.spaced, h.timed,
    h.clean⟩
  · by_cases same : r' = r
    · simp [TimerMgr.started, same]
    · simpa [TimerMgr.started, same] using h.waiting i r' t at_ object kind
  · by_cases same : r' = r
    · simp [TimerMgr.started, same]
    · simpa [TimerMgr.started, same] using h.atMost r' t object kind
  · by_cases same : r' = r
    · simp [TimerMgr.started, same]
    · simpa [TimerMgr.started, same] using h.alive i r' at_
  · by_cases same : r' = r
    · rw [same] at at_ object
      exact paused i t at_ object (by simpa [TimerMgr.started, same] using stopped)
    · exact h.paused i r' t at_ object (by simpa [TimerMgr.started, same] using stopped)

omit [DecidableEq Name] in
/-- A new object, known to no table yet. -/
theorem Sound.create (h : s.Sound clock) (t : Timer Name Func) (positive : 0 < t.interval)
    (fired : s.fired s.created = 0) :
    ({ s.setObject s.created t with created := s.created + 1 } : TimerMgr Name Func).Sound clock := by
  have none := h.fresh s.created (Nat.le_refl _)
  have old : ∀ r o, s.object r = some o → r ≠ s.created := fun r o object same => by
    rw [same, none] at object
    cases object
  have look : ∀ r o, (s.setObject s.created t).object r = some o →
      r = s.created ∧ o = t ∨ r ≠ s.created ∧ s.object r = some o := by
    intro r o at_
    by_cases same : r = s.created
    · rw [same, setObject_self] at at_
      exact .inl ⟨same, (Option.some.inj at_).symm⟩
    · rw [setObject_of_ne _ same] at at_
      exact .inr ⟨same, at_⟩
  have nowhere : ∀ i, ¬ s.Registered i s.created := fun i at_ => by
    obtain ⟨o, object, -⟩ := h.known i _ at_
    exact old _ o object rfl
  have quiet := h.timed s.created none
  refine ⟨fun i r at_ => ?_, h.apart, fun r new => ?_, fun i r o at_ object => ?_,
    fun r o object => ?_, h.alive, fun i r o at_ object => ?_, fun r o object => ?_,
    fun r o object => ?_, fun r o object => ?_, fun r gone => ?_, h.clean⟩
  · obtain ⟨o, object, id⟩ := h.known i r at_
    exact ⟨o, (setObject_of_ne _ (old r o object) t).trans object, id⟩
  · have new : s.created + 1 ≤ r := new
    exact (setObject_of_ne _ (by omega) t).trans (h.fresh r (by omega))
  · rcases look r o object with ⟨same, -⟩ | ⟨_, object⟩
    · exact absurd (same ▸ at_) (nowhere i)
    · exact h.waiting i r o at_ object
  · rcases look r o object with ⟨same, -⟩ | ⟨_, object⟩
    · intro _
      show s.fired r ≤ 1
      rw [same, fired]
      exact Nat.zero_le 1
    · exact h.atMost r o object
  · rcases look r o object with ⟨same, -⟩ | ⟨_, object⟩
    · exact absurd (same ▸ at_) (nowhere i)
    · exact h.paused i r o at_ object
  · rcases look r o object with ⟨-, rfl⟩ | ⟨_, object⟩
    · exact positive
    · exact h.positive r o object
  · rcases look r o object with ⟨same, -⟩ | ⟨_, object⟩
    · intro _ time member
      have member : time ∈ s.times s.created := same ▸ member
      rw [quiet] at member
      cases member
    · exact h.past r o object
  · rcases look r o object with ⟨same, -⟩ | ⟨_, object⟩
    · intro _
      show (s.times r).Pairwise _
      rw [same, quiet]
      exact .nil
    · exact h.spaced r o object
  · have other : r ≠ s.created := fun same => by
      have gone : (s.setObject s.created t).object r = .none := gone
      rw [same, setObject_self] at gone
      cases gone
    exact h.timed r ((setObject_of_ne _ other t).symm.trans gone)

omit [DecidableEq Name] in
/-- A timer that no table holds is put into `swap` under a free id. -/
theorem Sound.register (h : s.Sound clock) (object : s.object r = some t)
    (free : s.timers t.id = none ∧ s.swap t.id = none) (nowhere : ∀ i, ¬ s.Registered i r)
    (fired : s.fired r = 0) (alive : s.killed r = false)
    (paused : s.held r = true → t.paused = true) :
    ({ s with swap := Function.update s.swap t.id (some r) } : TimerMgr Name Func).Sound clock := by
  have look : ∀ i r', ({ s with swap := Function.update s.swap t.id (some r) } :
      TimerMgr Name Func).Registered i r' → i = t.id ∧ r' = r ∨ s.Registered i r' := by
    intro i r' at_
    by_cases same : i = t.id
    · rcases at_ with running | waiting
      · exact .inr (.inl running)
      · rw [same] at waiting
        simp only [Function.update_self, Option.some.injEq] at waiting
        exact .inl ⟨same, waiting.symm⟩
    · rcases at_ with running | waiting
      · exact .inr (.inl running)
      · simp only [Function.update_of_ne same] at waiting
        exact .inr (.inr waiting)
  refine ⟨fun i r' at_ => ?_, fun i some_ => ?_, h.fresh, fun i r' o at_ object' => ?_, h.atMost,
    fun i r' at_ => ?_, fun i r' o at_ object' => ?_, h.positive, h.past, h.spaced, h.timed,
    h.clean⟩
  · rcases look i r' at_ with ⟨same, rfl⟩ | at_
    · exact ⟨t, object, same.symm⟩
    · exact h.known i r' at_
  · have other : i ≠ t.id := fun same => some_ (same ▸ free.1)
    exact (Function.update_of_ne other ..).trans (h.apart i some_)
  · rcases look i r' at_ with ⟨_, rfl⟩ | at_
    · exact fun _ => fired
    · exact h.waiting i r' o at_ object'
  · rcases look i r' at_ with ⟨_, rfl⟩ | at_
    · exact alive
    · exact h.alive i r' at_
  · rcases look i r' at_ with ⟨_, rfl⟩ | at_
    · cases object.symm.trans object'
      exact paused
    · exact h.paused i r' o at_ object'

/-! ### The operations -/

omit [DecidableEq Name] in
theorem Sound.hold (h : s.Sound clock)
    (paused : ∀ i t, s.Registered i r → s.object r = some t → t.paused = true) :
    ({ s with held := Function.update s.held r true } : TimerMgr Name Func).Sound clock := by
  refine { h with paused := fun i r' t at_ object held => ?_ }
  by_cases same : r' = r
  · rw [same] at at_ object
    exact paused i t at_ object
  · exact h.paused i r' t at_ object (by simpa [same] using held)

omit [DecidableEq Name] in
theorem Sound.release (h : s.Sound clock) (r : Nat) :
    ({ s with held := Function.update s.held r false } : TimerMgr Name Func).Sound clock := by
  refine { h with paused := fun i r' t at_ object held => ?_ }
  by_cases same : r' = r
  · simp [same] at held
  · exact h.paused i r' t at_ object (by simpa [same] using held)

omit [DecidableEq Name] in
/-- `timer:pause` of a timer that is paused already, or that no table holds. -/
theorem Sound.pause (h : s.Sound clock)
    (idle : ∀ t, s.object r = some t → t.paused = true ∨ ∀ i, ¬ s.Registered i r) :
    (s.pause r).Sound clock := by
  rw [TimerMgr.pause]
  cases object : s.object r with
  | none => exact h
  | some t =>
      dsimp only
      split
      · have same := h.setObject (u := { t with paused := true }) object (fun _ _ => rfl) rfl rfl
          (fun _ _ => rfl) (fun _ _ _ => rfl) (h.past r t object)
        refine same.hold fun i o _ object' => ?_
        rw [setObject_self] at object'
        exact Option.some.inj object' ▸ rfl
      · rename_i going
        refine h.hold fun i o at_ object' => ?_
        rw [object] at object'
        cases object'
        exact (idle t object).resolve_right fun nowhere => nowhere i at_

omit [DecidableEq Name] in
theorem Sound.resume (h : s.Sound clock) (r : Nat) : (s.resume r).Sound clock := by
  rw [TimerMgr.resume]
  cases object : s.object r with
  | none => exact h
  | some t =>
      have released := h.release r
      exact released.setObject (u := { t with paused := false }) object (fun _ _ => rfl) rfl rfl
        (fun _ _ => rfl) (fun _ _ held => by simp at held) (h.past r t object)

omit [DecidableEq Name] in
theorem generateIdFrom_free {fuel current id : Nat}
    (found : s.generateIdFrom fuel current = some id) :
    s.timers id = none ∧ s.swap id = none := by
  induction fuel generalizing current with
  | zero => cases found
  | succ fuel ih =>
      rw [generateIdFrom] at found
      split at found
      · rename_i free
        exact Option.some.inj found ▸ free
      · exact ih found

theorem Sound.newTimer (h : s.Sound clock) {time : ℚ} {func : Func} {name : Option Name}
    {repeated paused : Bool} (made : s.newTimer time func name repeated paused = some s') :
    s'.Sound clock := by
  unfold TimerMgr.newTimer at made
  split at made
  · cases made
    exact h
  split at made
  · cases made
    exact { h with
      clean := fun f member => by
        cases List.mem_cons.1 member with
        | inl new => exact new ▸ id
        | inr old => exact h.clean f old }
  split at made
  · cases made
    exact h
  · rename_i positive nonzero _
    obtain ⟨id, found, made⟩ := Option.map_eq_some_iff.1 made
    have free := generateIdFrom_free found
    have none := h.fresh s.created (Nat.le_refl _)
    have nowhere : ∀ i, ¬ s.Registered i s.created := fun i at_ => by
      obtain ⟨o, object, -⟩ := h.known i _ at_
      exact absurd (none.symm.trans object) nofun
    have started := h.started s.created paused fun i t at_ _ _ => absurd at_ (nowhere i)
    have created := started.create ⟨id, time, name, time, func, repeated, paused⟩
      (lt_of_le_of_ne (not_lt.1 positive) (Ne.symm nonzero)) (Function.update_self ..)
    have registered := created.register (r := s.created)
      (t := ⟨id, time, name, time, func, repeated, paused⟩) (setObject_self ..) free nowhere
      (Function.update_self ..) (Function.update_self ..) (fun held => by
        simpa [TimerMgr.started, TimerMgr.setObject] using held)
    rw [← made]
    exact { registered with }

omit [DecidableEq Name] in
/-- `timer:restart` of a timer that does not wait in `swap`. -/
theorem Sound.restart (h : s.Sound clock) {func : Option Func}
    (out : ∀ i, s.swap i ≠ some r) (made : s.restart r func = some s') : s'.Sound clock := by
  rw [TimerMgr.restart] at made
  cases object : s.object r with
  | none =>
      rw [object] at made
      cases made
      exact h
  | some t =>
      rw [object] at made
      dsimp only at made
      have started := h.started r false nofun
      have past : t.repeated = true → ∀ time ∈ s.times r,
          t.interval - t.interval ≤ clock r - time ∧ time ≤ clock r := by
        intro repeated time member
        have before := (h.past r t object repeated time member).2
        exact ⟨by linarith, before⟩
      split at made
      · cases made
        exact started.setObject object (fun _ _ => rfl) rfl rfl (fun _ _ => rfl)
          (fun _ _ held => by simp [TimerMgr.started] at held) past
      · rename_i elsewhere
        obtain ⟨id, found, made⟩ := Option.map_eq_some_iff.1 made
        have free := generateIdFrom_free found
        have nowhere : ∀ i, ¬ s.Registered i r := by
          intro i at_
          obtain ⟨o, object', mine⟩ := h.known i r at_
          rw [object] at object'
          cases object'
          cases at_ with
          | inl running => exact elsewhere (mine ▸ running)
          | inr waiting => exact out i waiting
        have changed := started.setObject (u := { t with
          id := id
          callback := func.getD t.callback
          paused := false
          remainder := t.interval }) object (fun i at_ => absurd at_ (nowhere i)) rfl rfl
          (fun _ _ => rfl) (fun _ _ held => by simp [TimerMgr.started] at held) past
        have registered := changed.register (setObject_self ..) free nowhere
          (Function.update_self ..) (Function.update_self ..)
          (fun held => by simp [TimerMgr.started, TimerMgr.setObject] at held)
        rw [← made]
        exact { registered with }

/-- Who is killed under this target is the timer that it finds, if any. -/
def Finds (s : TimerMgr Name Func) (target : Target Name) : Prop :=
  ∀ i r, s.Registered i r → s.meant r target = true → s.gettimer target = some r

theorem Sound.kill (h : s.Sound clock) {target : Target Name} (finds : s.Finds target) :
    (s.killTimer target).Sound clock := by
  rw [TimerMgr.killTimer]
  dsimp only
  cases found : (s.gettimer target).bind s.object with
  | none =>
      refine h.shrink ⟨rfl, rfl, rfl, rfl, rfl, fun _ _ => id, fun _ _ => id⟩ fun i r at_ => ?_
      have at_ : s.Registered i r := at_
      cases meant : s.meant r target with
      | false =>
          show (s.killed r || s.meant r target) = false
          rw [h.alive i r at_, meant]
          rfl
      | true =>
          obtain ⟨t, object, -⟩ := h.known i r at_
          rw [finds i r at_ meant, Option.bind_some, object] at found
          cases found
  | some t =>
      obtain ⟨r₀, target_, object⟩ := Option.bind_eq_some_iff.1 found
      have gone : ∀ (table : Nat → Option Nat) i r,
          Function.update table t.id none i = some r → i ≠ t.id ∧ table i = some r := by
        intro table i r at_
        by_cases same : i = t.id
        · simp [same] at at_
        · exact ⟨same, by simpa [same] using at_⟩
      refine h.shrink ⟨rfl, rfl, rfl, rfl, rfl, fun i r at_ => (gone _ i r at_).2,
        fun i r at_ => (gone _ i r at_).2⟩ fun i r at_ => ?_
      obtain ⟨other, at_⟩ : i ≠ t.id ∧ s.Registered i r := by
        cases at_ with
        | inl running => exact (gone _ i r running).imp_right .inl
        | inr waiting => exact (gone _ i r waiting).imp_right .inr
      show (s.killed r || s.meant r target) = false
      rw [h.alive i r at_, Bool.false_or]
      cases meant : s.meant r target with
      | false => rfl
      | true =>
          -- the one that is found is not registered any more
          obtain ⟨o, object', mine⟩ := h.known i r at_
          have same := target_.symm.trans (finds i r at_ meant)
          cases same
          rw [object] at object'
          cases object'
          exact absurd mine.symm other

/-! ### The tick -/

/-- What one turn changes in the tables, and whom it counts. -/
structure Counts (s s' : TimerMgr Name Func) (i : Nat) : Prop where
  lastTick : s'.lastTick = s.lastTick
  timers : ∀ j r, s'.timers j = some r → s.timers j = some r
  counted : s'.counted = s.counted ∨ ∃ r, s.timers i = some r ∧ s'.counted = r :: s.counted

theorem count_counts (delta : ℚ) (s : TimerMgr Name Func) (i : Nat) :
    s.Counts (count delta s i) i := by
  rw [count]
  split
  · exact ⟨rfl, fun _ _ => id, .inl rfl⟩
  rename_i r at_
  split
  · exact ⟨rfl, fun _ _ => id, .inl rfl⟩
  rename_i t object
  split
  · exact ⟨rfl, fun _ _ => id, .inl rfl⟩
  dsimp only
  split
  · exact ⟨rfl, fun _ _ => id, .inr ⟨r, at_, rfl⟩⟩
  split
  · exact ⟨rfl, fun _ _ => id, .inr ⟨r, at_, rfl⟩⟩
  · refine ⟨rfl, fun j r' at_' => ?_, .inr ⟨r, at_, rfl⟩⟩
    by_cases same : j = i
    · simp [same] at at_'
    · simpa [same, fork, forgetName, setObject] using at_'

/-- A timer that has not been counted down yet is, and fires when its interval is over. -/
theorem Sound.count (h : s.Sound clock) {delta : ℚ} (at_ : s.timers i = some r)
    (before : clock r = s.lastTick - delta) (forward : 0 ≤ delta) :
    (count delta s i).Sound (Function.update clock r s.lastTick) := by
  obtain ⟨t, object, mine⟩ := h.known i r (.inl at_)
  have alive := h.alive i r (.inl at_)
  have now : Function.update clock r s.lastTick r = s.lastTick := Function.update_self ..
  have others : ∀ r', r' ≠ r → Function.update clock r s.lastTick r' = clock r' :=
    fun r' other => Function.update_of_ne other ..
  have later : ∀ r', clock r' ≤ Function.update clock r s.lastTick r' := by
    intro r'
    by_cases same : r' = r
    · rw [same, now, before]
      linarith
    · rw [others r' same]
  rw [TimerMgr.count, at_]
  dsimp only
  rw [object]
  dsimp only
  by_cases going : t.paused = true
  · rw [if_pos going]
    exact h.mono later
  rw [if_neg going]
  have free : s.held r ≠ true := fun held => going (h.paused i r t (.inl at_) object held)
  have past : t.repeated = true → ∀ time ∈ s.times r,
      t.interval - (t.remainder - delta) ≤ s.lastTick - time ∧ time ≤ s.lastTick := by
    intro repeated time member
    obtain ⟨left, old⟩ := h.past r t object repeated time member
    rw [before] at left old
    exact ⟨by linarith, by linarith⟩
  have down : (s.setObject r { t with remainder := t.remainder - delta }).Sound
      (Function.update clock r s.lastTick) :=
    h.setObject object (fun _ _ => rfl) rfl rfl others
      (fun i at_ held => absurd held free) (now.symm ▸ past)
  split
  · exact down.shrink ⟨rfl, rfl, rfl, rfl, rfl, fun _ _ => id, fun _ _ => id⟩ down.alive
  rename_i due
  have due : t.remainder - delta ≤ 0 := not_lt.1 due
  have free : s.held r = false := Bool.not_eq_true _ ▸ free
  split
  · rename_i repeated
    have anew : (s.setObject r { t with remainder := t.interval }).Sound
        (Function.update clock r s.lastTick) := by
      refine h.setObject object (fun _ _ => rfl) rfl rfl others
        (fun i at_ held => by rw [free] at held; cases held) fun kind time member => ?_
      have old := (past kind time member).2
      rw [now]
      exact ⟨by linarith, old⟩
    have fired := anew.fork (t := { t with remainder := t.interval }) (setObject_self ..)
      t.callback ⟨alive, free⟩ now (fun once => by rw [repeated] at once; cases once)
      fun _ => ⟨le_refl _, fun time member => by
        have left := (past repeated time member).1
        show t.interval ≤ s.lastTick - time
        linarith⟩
    exact fired.shrink ⟨Function.update_idem .., rfl, rfl, rfl, rfl, fun _ _ => id, fun _ _ => id⟩
      fired.alive
  · rename_i single
    have once : t.repeated = false := Bool.not_eq_true _ ▸ single
    have kept : ∀ j r', Function.update s.timers i none j = some r' →
        j ≠ i ∧ s.timers j = some r' := by
      intro j r' at_'
      by_cases same : j = i
      · simp [same] at at_'
      · exact ⟨same, by simpa [same] using at_'⟩
    have gone : ({ s.setObject r { t with remainder := t.remainder - delta } with
        timers := Function.update s.timers i none } : TimerMgr Name Func).Sound
          (Function.update clock r s.lastTick) := by
      refine down.shrink ⟨rfl, rfl, rfl, rfl, rfl, fun j r' at_' => (kept j r' at_').2,
        fun _ _ => id⟩ fun j r' at_' => ?_
      exact down.alive j r' (at_'.imp_left fun running => (kept j r' running).2)
    have nowhere : ∀ j, ¬ ({ s.setObject r { t with remainder := t.remainder - delta } with
        timers := Function.update s.timers i none } : TimerMgr Name Func).Registered j r := by
      intro j at_'
      cases at_' with
      | inl running =>
          obtain ⟨other, running⟩ := kept j r running
          exact other (h.one (.inl running) (.inl at_))
      | inr waiting =>
          have waiting : s.swap j = some r := waiting
          have same : j = i := h.one (.inr waiting) (.inl at_)
          have free := h.apart i (by rw [at_]; exact Option.some_ne_none r)
          rw [same, free] at waiting
          cases waiting
    have fired := gone.fork (t := { t with remainder := t.remainder - delta }) (setObject_self ..)
      t.callback ⟨alive, free⟩ now
      (fun _ => ⟨h.waiting i r t (.inl at_) object once, nowhere⟩)
      fun again => by rw [once] at again; cases again
    exact fired.shrink ⟨rfl, rfl, rfl, rfl, rfl, fun _ _ => id, fun _ _ => id⟩ fired.alive

/-- The loop of `tick`: whoever is still to come has not been counted. -/
theorem Sound.loop (order : List Nat) {delta : ℚ} (forward : 0 ≤ delta) (h : s.Sound clock)
    (nodup : order.Nodup) (counted : s.counted.Nodup) (bound : ∀ r, clock r ≤ s.lastTick)
    (todo : ∀ i ∈ order, ∀ r, s.timers i = some r →
      clock r = s.lastTick - delta ∧ r ∉ s.counted) :
    (order.foldl (TimerMgr.count delta) s).Sound (fun _ => s.lastTick) ∧
      (order.foldl (TimerMgr.count delta) s).counted.Nodup ∧
      (order.foldl (TimerMgr.count delta) s).lastTick = s.lastTick := by
  induction order generalizing s clock with
  | nil => exact ⟨h.mono bound, counted, rfl⟩
  | cons i order ih =>
      obtain ⟨new, nodup⟩ := List.nodup_cons.1 nodup
      have counts := count_counts delta s i
      have rest := fun j member => todo j (List.mem_cons_of_mem i member)
      cases at_ : s.timers i with
      | none =>
          have still : TimerMgr.count delta s i = s := by rw [TimerMgr.count, at_]
          rw [List.foldl_cons, still]
          exact ih h nodup counted bound rest
      | some r =>
          obtain ⟨before, out⟩ := todo i List.mem_cons_self r at_
          have next := h.count at_ before forward
          have other : ∀ j ∈ order, ∀ r', s.timers j = some r' → r' ≠ r := by
            intro j member r' running same
            rw [same] at running
            exact new (h.one (.inl running) (.inl at_) ▸ member)
          have mine : (TimerMgr.count delta s i).counted = s.counted ∨
              (TimerMgr.count delta s i).counted = r :: s.counted := by
            refine counts.counted.imp_right ?_
            rintro ⟨r', at_', list⟩
            rw [at_] at at_'
            cases at_'
            exact list
          have distinct : (TimerMgr.count delta s i).counted.Nodup := by
            cases mine with
            | inl same => rw [same]; exact counted
            | inr more => rw [more]; exact List.nodup_cons.2 ⟨out, counted⟩
          have clocks : ∀ r', Function.update clock r s.lastTick r' ≤
              (TimerMgr.count delta s i).lastTick := by
            intro r'
            rw [counts.lastTick]
            by_cases same : r' = r
            · simp [same]
            · simpa [same] using bound r'
          have later : ∀ j ∈ order, ∀ r', (TimerMgr.count delta s i).timers j = some r' →
              Function.update clock r s.lastTick r' =
                (TimerMgr.count delta s i).lastTick - delta ∧
              r' ∉ (TimerMgr.count delta s i).counted := by
            intro j member r' running
            have running := counts.timers j r' running
            have apart := other j member r' running
            obtain ⟨before', out'⟩ := rest j member r' running
            rw [Function.update_of_ne apart, counts.lastTick]
            refine ⟨before', fun inside => ?_⟩
            cases mine with
            | inl same => exact out' (same ▸ inside)
            | inr more =>
                rw [more] at inside
                cases List.mem_cons.1 inside with
                | inl same => exact apart same
                | inr old => exact out' old
          have done := ih next nodup distinct clocks later
          rw [counts.lastTick] at done
          exact done

omit [DecidableEq Name] in
theorem Sound.merge (h : s.Sound clock) : s.merge.Sound clock := by
  have look : ∀ i r, s.merge.Registered i r → s.Registered i r := by
    intro i r at_
    cases at_ with
    | inl joined =>
        have joined : (s.swap i).or (s.timers i) = some r := joined
        cases waiting : s.swap i with
        | none =>
            rw [waiting] at joined
            exact .inl joined
        | some r' =>
            rw [waiting] at joined
            exact .inr (joined ▸ waiting)
    | inr none => cases none
  exact { h with
    known := fun i r at_ => h.known i r (look i r at_)
    apart := fun _ _ => rfl
    waiting := fun i r t at_ => h.waiting i r t (look i r at_)
    alive := fun i r at_ => h.alive i r (look i r at_)
    paused := fun i r t at_ => h.paused i r t (look i r at_) }

/-! ### Every run -/

/-- The guard: no timer is paused that runs, no timer is restarted or killed by its id before it
has left `swap`, and a timer that is killed by its name is found under it. -/
def Apt (s : TimerMgr Name Func) : Event Name Func → Prop
  | .pause r => ∀ t, s.object r = some t → t.paused = true ∨ ∀ i, ¬ s.Registered i r
  | .restart r _ => ∀ i, s.swap i ≠ some r
  | .kill target => s.Finds target
  | _ => True

/-- What the clock and the last tick's list are after an operation. -/
def Quiet (s s' : TimerMgr Name Func) : Prop := s'.lastTick = s.lastTick ∧ s'.counted = s.counted

theorem newTimer_quiet {time : ℚ} {func : Func} {name : Option Name} {repeated paused : Bool}
    (made : s.newTimer time func name repeated paused = some s') : s.Quiet s' := by
  unfold newTimer at made
  split at made
  · cases made
    exact ⟨rfl, rfl⟩
  split at made
  · cases made
    exact ⟨rfl, rfl⟩
  split at made
  · cases made
    exact ⟨rfl, rfl⟩
  · obtain ⟨id, -, made⟩ := Option.map_eq_some_iff.1 made
    rw [← made]
    exact ⟨rfl, rfl⟩

omit [DecidableEq Name] in
theorem restart_quiet {func : Option Func} (made : s.restart r func = some s') : s.Quiet s' := by
  unfold restart at made
  split at made
  · cases made
    exact ⟨rfl, rfl⟩
  dsimp only at made
  split at made
  · cases made
    exact ⟨rfl, rfl⟩
  · obtain ⟨id, -, made⟩ := Option.map_eq_some_iff.1 made
    rw [← made]
    exact ⟨rfl, rfl⟩

omit [DecidableEq Name] in
theorem pause_quiet (s : TimerMgr Name Func) (r : Nat) : s.Quiet (s.pause r) := by
  rw [TimerMgr.pause]
  split
  · exact ⟨rfl, rfl⟩
  dsimp only
  split
  · exact ⟨rfl, rfl⟩
  · exact ⟨rfl, rfl⟩

omit [DecidableEq Name] in
theorem resume_quiet (s : TimerMgr Name Func) (r : Nat) : s.Quiet (s.resume r) := by
  rw [TimerMgr.resume]
  split
  · exact ⟨rfl, rfl⟩
  · exact ⟨rfl, rfl⟩

theorem kill_quiet (s : TimerMgr Name Func) (target : Target Name) :
    s.Quiet (s.killTimer target) := by
  rw [TimerMgr.killTimer]
  dsimp only
  split
  · exact ⟨rfl, rfl⟩
  · exact ⟨rfl, rfl⟩

/-- Between two operations every timer has been counted down to the last tick. -/
structure Settled (s : TimerMgr Name Func) : Prop extends Sound s fun _ => s.lastTick where
  counted : s.counted.Nodup

omit [DecidableEq Name] in
theorem Sound.settle {now : ℚ} (h : s.Sound fun _ => now) (time : s.lastTick = now)
    (counted : s.counted.Nodup) : s.Settled := by
  subst time
  exact ⟨h, counted⟩

omit [DecidableEq Name] in
theorem Settled.quiet (h : s.Settled) (sound : s'.Sound fun _ => s.lastTick)
    (quiet : s.Quiet s') : s'.Settled :=
  sound.settle quiet.1 (quiet.2.symm ▸ h.counted)

theorem Settled.step {event : Event Name Func} (h : s.Settled) (guard : s.Apt event)
    (moved : s.Step event s') : s'.Settled := by
  have sound := h.toSound
  cases event with
  | newTimer time func name repeated paused =>
      exact h.quiet (sound.newTimer moved) (newTimer_quiet moved)
  | pause r =>
      rw [show s' = s.pause r from moved]
      exact h.quiet (sound.pause guard) (pause_quiet s r)
  | resume r =>
      rw [show s' = s.resume r from moved]
      exact h.quiet (sound.resume r) (resume_quiet s r)
  | restart r func =>
      exact h.quiet (sound.restart guard moved) (restart_quiet moved)
  | kill target =>
      rw [show s' = s.killTimer target from moved]
      exact h.quiet (sound.kill guard) (kill_quiet s target)
  | tick now order =>
      obtain ⟨forward, nodup, -, out⟩ := moved
      have begun : ({ s with lastTick := now, counted := [] } : TimerMgr Name Func).Sound
          fun _ => s.lastTick := { sound with }
      obtain ⟨looped, distinct, time⟩ := begun.loop order (show 0 ≤ now - s.lastTick by linarith)
        nodup List.nodup_nil (fun _ => forward) fun i _ r _ => ⟨by simp, List.not_mem_nil⟩
      rw [out, TimerMgr.tick]
      exact looped.merge.settle time distinct

omit [DecidableEq Name] in
theorem start_settled : (start : TimerMgr Name Func).Settled where
  known := nofun
  apart _ _ := rfl
  fresh _ _ := rfl
  waiting := nofun
  atMost := nofun
  alive := nofun
  paused := nofun
  positive := nofun
  past := nofun
  spaced := nofun
  timed _ _ := rfl
  clean := nofun
  counted := List.nodup_nil

/-- What the timers promise. -/
structure Orderly (s : TimerMgr Name Func) : Prop where
  one : ∀ r i j, s.Registered i r → s.Registered j r → i = j
  counted : s.counted.Nodup
  /-- A timer that fires once has been scheduled at most once since its start or restart. -/
  once : ∀ r t, s.object r = some t → t.repeated = false → s.fired r ≤ 1
  /-- Between two callbacks of a repeated timer its interval has passed. -/
  spaced : ∀ r t, s.object r = some t → t.repeated = true →
    (s.times r).Pairwise fun newer older => t.interval ≤ newer - older
  /-- Nobody has been scheduled after being killed or paused. -/
  stopped : ∀ f ∈ s.forked, ¬ f.Stopped

abbrev TimersReach (ok : TimerMgr Name Func → Event Name Func → Prop) :
    TimerMgr Name Func → Prop :=
  Runs.Reaches (fun s => s = start) (fun s event s' => s.Step event s') ok

/-- In every run whose operations find the timers as the guard says, the timers keep their
promises. -/
theorem timers_orderly (reached : TimersReach Apt s) : s.Orderly := by
  have settled : s.Settled := by
    induction reached with
    | start begun => exact begun ▸ start_settled
    | next event _ guard moved settled => exact settled.step guard moved
  exact ⟨fun r i j => settled.one, settled.counted, settled.atMost, settled.spaced, settled.clean⟩

/-- A repeated timer of one second that has fired at the time 1. -/
def merged : TimerMgr Unit Unit :=
  ((start.newTimer 1 () none true false).getD start).tick 0 []

def ticked : TimerMgr Unit Unit := merged.tick 1 [1]

/-- It is restarted, and a tick comes half a second later. -/
def restarted : TimerMgr Unit Unit := (ticked.restart 0 none).getD ticked

def halfTicked : TimerMgr Unit Unit := restarted.tick (3 / 2) [1]

theorem restarted_timer :
    (halfTicked.tick 2 [1]).times 0 = [2, 1] ∧ (halfTicked.tick 2 [1]).Orderly := by
  refine ⟨by with_unfolding_all rfl, timers_orderly ?_⟩
  have alone : ∀ i, i ∈ [1] ↔ merged.timers i ≠ none := by
    intro i
    change _ ↔ (Function.update (fun _ => none) 1 (some 0) i).or none ≠ none
    by_cases first : i = 1 <;> simp [first]
  have timers : restarted.timers = merged.timers ∧ halfTicked.timers = merged.timers := by
    with_unfolding_all exact ⟨rfl, rfl⟩
  have times : restarted.lastTick ≤ 3 / 2 ∧ halfTicked.lastTick ≤ 2 := by decide +kernel
  have restarts : ticked.restart 0 none = some restarted := by with_unfolding_all rfl
  have first : TimersReach Apt ticked := by
    refine .next (.tick 1 [1]) (.next (.tick 0 []) (.next (.newTimer 1 () none true false)
      (.start rfl) trivial rfl) trivial ⟨le_rfl, .nil, fun i => ?_, rfl⟩) trivial
      ⟨zero_le_one, by decide, alone, rfl⟩
    exact iff_of_false List.not_mem_nil fun some_ => some_ rfl
  exact .next (.tick 2 [1]) (.next (.tick (3 / 2) [1]) (.next (.restart 0 none) first
    (fun _ => (Option.some_ne_none 0).symm) restarts) trivial
    ⟨times.1, by decide, timers.1 ▸ alone, rfl⟩) trivial ⟨times.2, by decide, timers.2 ▸ alone, rfl⟩

/-! ### A timer that is restarted before the first tick -/

theorem restarted_twice : ¬ ∀ s : TimerMgr Unit Unit, TimersReach (fun _ _ => True) s → s.Orderly := by
  intro claim
  have run : ((start.newTimer 1 () none true false).bind fun s : TimerMgr Unit Unit =>
      s.restart 0 none).map (fun s => (s.swap 1, s.swap 2)) = some (some 0, some 0) := rfl
  obtain ⟨s, ended, ids⟩ := Option.map_eq_some_iff.1 run
  obtain ⟨s₁, made, restarted⟩ := Option.bind_eq_some_iff.1 ended
  obtain ⟨first, second⟩ := Prod.mk.inj ids
  have reached : TimersReach (fun _ _ => True) s :=
    .next (.restart 0 none) (.next (.newTimer 1 () none true false) (.start rfl) trivial made)
      trivial restarted
  have same := (claim s reached).one 0 1 2 (.inr first) (.inr second)
  cases same

end TimerMgr

end FkServer
