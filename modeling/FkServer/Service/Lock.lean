import FkServer.Library.Runs
import Mathlib.Data.List.Nodup
import Mathlib.Logic.Function.Basic

/-!
`lock.lua`: a re-entrant lock for the coroutines of one service, with skynet's scheduling around
it. A coroutine runs until it suspends; then `dispatch_wakeup` resumes the coroutines that were
woken, in order, and only after that the next message is taken.
-/
namespace FkServer

structure Lock (Co : Type) where
  currentThread : Option Co
  ref : Int
  threadQueue : List Co

namespace Lock

variable {Co : Type} [DecidableEq Co] (l : Lock Co) (co : Co)

def new : Lock Co := ⟨none, 0, []⟩

/-- `self.current_thread and co ~= self.current_thread` -/
def busy : Bool := l.currentThread.any fun h => h != co

/-- How `m:lock` ends. -/
def take : Lock Co := { l with currentThread := some co, ref := l.ref + 1 }

def enqueue : Lock Co := { l with threadQueue := l.threadQueue ++ [co] }

/-- `m:unlock`, and the waiter it wakes. -/
def unlock : Lock Co × Option Co :=
  if l.ref - 1 = 0 then (⟨none, l.ref - 1, l.threadQueue.tail⟩, l.threadQueue.head?)
  else ({ l with ref := l.ref - 1 }, none)

end Lock

/-- What a coroutine does that does not run. -/
inductive Status (Key : Type)
  | ready
  /-- In the `skynet.wait` of a lock. -/
  | queued (key : Key)
  /-- In some other `skynet.wait`. -/
  | asleep
  /-- The assertion after the wait has failed. -/
  | raised
deriving DecidableEq

def Status.sleeping {Key : Type} : Status Key → Bool
  | .queued _ | .asleep => true
  | .ready | .raised => false

def Status.waitsFor {Key : Type} [DecidableEq Key] (status : Status Key) (key : Key) : Bool :=
  decide (status = .queued key)

/-- A service whose locks are named by keys. `depth` counts the locks of a coroutine that are not
undone yet; `queuedUp`, `obtained` and `failed` are its history. -/
structure Service (Key Co : Type) where
  lock : Key → Lock Co
  running : Option Co
  status : Co → Status Key
  wakeupQueue : List Co
  depth : Co → Key → Nat
  /-- Who has begun to wait for a lock, in order. -/
  queuedUp : Key → List Co
  /-- Who has got a lock after waiting, in order. -/
  obtained : Key → List Co
  /-- Whose assertion has failed. -/
  failed : List (Key × Co)

/-- What happens next. `lock(fn, …)` is a `lock`, what the function does, and an `unlock`, which
`xpcall` reaches also when the function fails. -/
inductive Action (Key Co : Type)
  /-- A message starts a coroutine or brings the answer to its call. -/
  | message (co : Co)
  | lock (key : Key)
  | unlock (key : Key)
  /-- The coroutine waits for an answer, or ends. -/
  | yield
  /-- `skynet.wait` for something else. -/
  | sleep
  /-- `skynet.wakeup` of a coroutine in such a wait. -/
  | wakeup (co : Co)

namespace Service

variable {Key Co : Type} [DecidableEq Key] [DecidableEq Co] (s : Service Key Co)

def setStatus (co : Co) (status : Status Key) : Service Key Co :=
  { s with status := Function.update s.status co status }

def setDepth (co : Co) (key : Key) (n : Nat) : Service Key Co :=
  { s with depth := Function.update s.depth co (Function.update (s.depth co) key n) }

def setLock (key : Key) (l : Lock Co) : Service Key Co :=
  { s with lock := Function.update s.lock key l }

/-- `skynet.wakeup` -/
def wake (co : Co) : Service Key Co :=
  if (s.status co).sleeping then { s with wakeupQueue := s.wakeupQueue ++ [co] } else s

def enter (key : Key) (co : Co) : Service Key Co :=
  (s.setLock key ((s.lock key).take co)).setDepth co key (s.depth co key + 1)

/-- The coroutine goes to the end of the queue and sleeps. -/
def park (key : Key) (co : Co) : Service Key Co :=
  { (s.setLock key ((s.lock key).enqueue co)).setStatus co (.queued key) with
    queuedUp := Function.update s.queuedUp key (s.queuedUp key ++ [co]) }

def leave (key : Key) (co : Co) : Service Key Co :=
  let freed := (s.setLock key (s.lock key).unlock.1).setDepth co key (s.depth co key - 1)
  match (s.lock key).unlock.2 with
  | none => freed
  | some waiter => freed.wake waiter

/-- A coroutine goes on after its wait. -/
def resume (co : Co) : Service Key Co :=
  match s.status co with
  | .queued key =>
      if (s.lock key).ref = 0 then
        { (s.setStatus co .ready).enter key co with
          running := some co
          obtained := Function.update s.obtained key (s.obtained key ++ [co]) }
      else { s.setStatus co .raised with running := some co, failed := (key, co) :: s.failed }
  | _ => { s.setStatus co .ready with running := some co }

/-- The running coroutine has suspended. -/
def dispatchWakeup : Service Key Co :=
  match s.wakeupQueue.dropWhile fun co => !(s.status co).sleeping with
  | [] => { s with running := none, wakeupQueue := [] }
  | co :: rest => { s with wakeupQueue := rest }.resume co

def step : Action Key Co → Option (Service Key Co)
  | .message co =>
      if s.running = none ∧ (s.status co).sleeping = false then some { s with running := some co }
      else none
  | .lock key => s.running.map fun co =>
      if (s.lock key).busy co then (s.park key co).dispatchWakeup else s.enter key co
  | .unlock key => s.running.bind fun co =>
      if 0 < s.depth co key then some (s.leave key co) else none
  | .yield => s.running.map fun _ => s.dispatchWakeup
  | .sleep => s.running.map fun co => (s.setStatus co .asleep).dispatchWakeup
  | .wakeup co =>
      if s.running.isSome ∧ s.status co = .asleep ∧ co ∉ s.wakeupQueue then some (s.wake co)
      else none

def start : Service Key Co where
  lock _ := .new
  running := none
  status _ := .ready
  wakeupQueue := []
  depth _ _ := 0
  queuedUp _ := []
  obtained _ := []
  failed := []

end Service

/-! ### One lock -/

namespace Lock

variable {Co : Type} {l : Lock Co} {depth : Co → Nat} {queued queued' : Co → Prop}
variable {woken woken' : List Co} {co : Co}

/-- Whoever holds the lock holds it alone, and whoever waits is in its queue or has been woken. -/
structure Kept (l : Lock Co) (depth : Co → Nat) (queued : Co → Prop) (woken : List Co) : Prop where
  held : ∀ h, l.currentThread = some h → 0 < depth h ∧ l.ref = depth h ∧ ∀ w, w ≠ h → depth w = 0
  free : l.currentThread = none → l.ref = 0 ∧ ∀ w, depth w = 0
  waiting : ∀ w ∈ l.threadQueue, queued w ∧ w ∉ woken
  nodup : l.threadQueue.Nodup
  covers : ∀ w, queued w → w ∈ l.threadQueue ∨ w ∈ woken
  handed : l.currentThread = none → l.threadQueue ≠ [] → ∃ w ∈ woken, queued w

theorem Kept.free_of_ref (h : l.Kept depth queued woken) (zero : l.ref = 0) :
    l.currentThread = none := by
  cases current : l.currentThread with
  | none => rfl
  | some other =>
      have held := h.held other current
      omega

theorem Kept.holder (h : l.Kept depth queued woken) (inside : 0 < depth co) :
    l.currentThread = some co := by
  cases current : l.currentThread with
  | none =>
      have zero := (h.free current).2 co
      omega
  | some holder =>
      by_cases same : co = holder
      · rw [same]
      · have zero := (h.held holder current).2.2 co same
        omega

/-- The same for who is queued and woken, as far as this lock is concerned. -/
theorem Kept.frame (h : l.Kept depth queued woken) (same : ∀ w, queued' w ↔ queued w)
    (mine : ∀ w, queued w → (w ∈ woken' ↔ w ∈ woken)) : l.Kept depth queued' woken' where
  held := h.held
  free := h.free
  nodup := h.nodup
  waiting w member := by
    obtain ⟨at_, apart⟩ := h.waiting w member
    exact ⟨(same w).2 at_, fun member' => apart ((mine w at_).1 member')⟩
  covers w at_ := by
    have at_' := (same w).1 at_
    exact (h.covers w at_').imp_right (mine w at_').2
  handed free some := by
    obtain ⟨w, member, at_⟩ := h.handed free some
    exact ⟨w, (mine w at_).2 member, (same w).2 at_⟩

/-- It finds the lock taken. -/
theorem Kept.refused (h : l.Kept depth queued (co :: woken)) (taken : l.ref ≠ 0) :
    l.Kept depth (fun w => queued w ∧ w ≠ co) woken := by
  refine ⟨h.held, h.free, fun w member => ?_, h.nodup, fun w at_ => ?_, fun none => ?_⟩
  · obtain ⟨at_, apart⟩ := h.waiting w member
    exact ⟨⟨at_, fun same => apart (same ▸ List.mem_cons_self)⟩, fun member' =>
      apart (List.mem_cons_of_mem _ member')⟩
  · exact (h.covers w at_.1).imp_right fun member =>
      (List.mem_cons.1 member).resolve_left at_.2
  · exact absurd (h.free none).1 taken

variable [DecidableEq Co]

theorem Kept.take (h : l.Kept depth queued woken) (mine : l.busy co = false) :
    (l.take co).Kept (Function.update depth co (depth co + 1)) queued woken := by
  -- before, the lock was free or the coroutine's own
  have before : l.ref = depth co ∧ ∀ w, w ≠ co → depth w = 0 := by
    cases current : l.currentThread with
    | none =>
        obtain ⟨ref, depths⟩ := h.free current
        exact ⟨by rw [ref, depths co]; rfl, fun w _ => depths w⟩
    | some holder =>
        have same : holder = co := by simpa [Lock.busy, current] using mine
        rw [same] at current
        exact (h.held co current).2
  refine ⟨?_, nofun, h.waiting, h.nodup, h.covers, nofun⟩
  intro holder current
  cases current
  refine ⟨by simp, ?_, fun w apart => ?_⟩
  · simp [Lock.take, before.1]
  · rw [Function.update_of_ne apart]
    exact before.2 w apart

theorem Kept.enqueue (h : l.Kept depth queued woken) (busy : l.busy co = true)
    (up : ¬ queued co) (apart : co ∉ woken) :
    (l.enqueue co).Kept depth (fun w => w = co ∨ queued w) woken := by
  have absent : co ∉ l.threadQueue := fun member => up (h.waiting co member).1
  refine ⟨h.held, h.free, ?_, ?_, ?_, ?_⟩
  · intro w member
    cases List.mem_append.1 member with
    | inl old => exact ⟨.inr (h.waiting w old).1, (h.waiting w old).2⟩
    | inr new =>
        rw [List.mem_singleton.1 new]
        exact ⟨.inl rfl, apart⟩
  · exact List.nodup_append.2 ⟨h.nodup, List.nodup_singleton co, fun a old b new same =>
      absent (by rw [List.mem_singleton.1 new] at same; exact same ▸ old)⟩
  · intro w at_
    cases at_ with
    | inl same => exact .inl (by rw [same]; simp [Lock.enqueue])
    | inr at_ => exact (h.covers w at_).imp_left fun old => List.mem_append_left _ old
  · intro none _
    have free : l.currentThread = Option.none := none
    simp [Lock.busy, free] at busy

omit [DecidableEq Co] in
theorem unlock_mem {w : Co} (woke : l.unlock.2 = some w) : w ∈ l.threadQueue := by
  rw [Lock.unlock] at woke
  split at woke
  · exact List.mem_of_mem_head? woke
  · cases woke

omit [DecidableEq Co] in
/-- Of the queue the first is woken, if any. -/
theorem unlock_queue : l.unlock.2.toList ++ l.unlock.1.threadQueue = l.threadQueue := by
  rw [Lock.unlock]
  split
  · cases l.threadQueue with
    | nil => rfl
    | cons first rest => rfl
  · rfl

theorem Kept.unlock (h : l.Kept depth queued woken) (inside : 0 < depth co) :
    l.unlock.1.Kept (Function.update depth co (depth co - 1)) queued
      (woken ++ l.unlock.2.toList) := by
  have current := h.holder inside
  have held := h.held co current
  have queue := unlock_queue (l := l)
  have distinct := h.nodup
  rw [← queue] at distinct
  have mem : ∀ w, w ∈ l.unlock.1.threadQueue → w ∈ l.threadQueue := fun w member =>
    queue ▸ List.mem_append_right _ member
  refine ⟨?_, ?_, ?_, (List.nodup_append.1 distinct).2.1, ?_, ?_⟩
  · intro holder current'
    by_cases last : l.ref - 1 = 0
    · rw [Lock.unlock, if_pos last] at current'
      cases current'
    · rw [Lock.unlock, if_neg last] at current' ⊢
      have same : holder = co := Option.some.inj (current'.symm.trans current)
      rw [same, Function.update_self]
      refine ⟨by omega, by show l.ref - 1 = _; omega, fun w apart => ?_⟩
      rw [Function.update_of_ne apart]
      exact held.2.2 w apart
  · intro none
    by_cases last : l.ref - 1 = 0
    · rw [Lock.unlock, if_pos last]
      refine ⟨last, fun w => ?_⟩
      by_cases same : w = co
      · rw [same, Function.update_self]
        omega
      · rw [Function.update_of_ne same]
        exact held.2.2 w same
    · rw [Lock.unlock, if_neg last] at none
      have free : l.currentThread = Option.none := none
      rw [current] at free
      cases free
  · intro w member
    have old := h.waiting w (mem w member)
    refine ⟨old.1, fun member' => ?_⟩
    cases List.mem_append.1 member' with
    | inl was => exact old.2 was
    | inr new => exact (List.nodup_append.1 distinct).2.2 w new w member rfl
  · intro w at_
    cases h.covers w at_ with
    | inr was => exact .inr (List.mem_append_left _ was)
    | inl old =>
        rw [← queue] at old
        cases List.mem_append.1 old with
        | inl first => exact .inr (List.mem_append_right _ first)
        | inr later => exact .inl later
  · intro none some
    by_cases last : l.ref - 1 = 0
    · have first : l.unlock.2 = l.threadQueue.head? := by rw [Lock.unlock, if_pos last]
      cases old : l.threadQueue with
      | nil =>
          rw [Lock.unlock, if_pos last, old] at some
          exact absurd rfl some
      | cons w rest =>
          refine ⟨w, ?_, (h.waiting w (old ▸ List.mem_cons_self)).1⟩
          rw [first, old]
          simp
    · rw [Lock.unlock, if_neg last] at none
      have free : l.currentThread = Option.none := none
      rw [current] at free
      cases free

/-- The first that was woken finds the lock free and takes it. -/
theorem Kept.resumed (h : l.Kept depth queued (co :: woken)) (zero : l.ref = 0) :
    (l.take co).Kept (Function.update depth co (depth co + 1)) (fun w => queued w ∧ w ≠ co)
      woken := by
  have free := h.free_of_ref zero
  have kept := h.take (show l.busy co = false by simp [Lock.busy, free])
  refine ⟨kept.held, kept.free, fun w member => ?_, kept.nodup, fun w at_ => ?_, nofun⟩
  · obtain ⟨at_, apart⟩ := kept.waiting w member
    exact ⟨⟨at_, fun same => apart (same ▸ List.mem_cons_self)⟩, fun member' =>
      apart (List.mem_cons_of_mem _ member')⟩
  · exact (kept.covers w at_.1).imp_right fun member =>
      (List.mem_cons.1 member).resolve_left at_.2

end Lock

/-! ### All locks of a service -/

namespace Service

variable {Key Co : Type} {s : Service Key Co} {key : Key} {co : Co}

structure Sound (s : Service Key Co) : Prop where
  lock : ∀ key, (s.lock key).Kept (fun co => s.depth co key) (fun co => s.status co = .queued key)
    s.wakeupQueue
  woken : ∀ co ∈ s.wakeupQueue, (s.status co).sleeping = true
  nodup : s.wakeupQueue.Nodup

/-- Between two steps whoever runs is awake, and nobody woken is left when nobody runs. -/
structure Settled (s : Service Key Co) : Prop extends Sound s where
  awake : ∀ co, s.running = some co → (s.status co).sleeping = false
  idle : s.running = none → s.wakeupQueue = []

theorem Sound.notMem_woken (h : s.Sound) (up : (s.status co).sleeping = false) :
    co ∉ s.wakeupQueue := by
  intro member
  rw [h.woken co member] at up
  cases up

theorem not_queued (up : (s.status co).sleeping = false) (key : Key) :
    s.status co ≠ .queued key := by
  intro at_
  rw [at_] at up
  cases up

variable [DecidableEq Key] [DecidableEq Co]

omit [DecidableEq Key] in
/-- Nothing but the status of a coroutine that is not in the queue of a lock changes. -/
theorem Sound.setStatus (h : s.Sound) (out : ∀ key, s.status co ≠ .queued key)
    (apart : co ∉ s.wakeupQueue) {status : Status Key} (other : ∀ key, status ≠ .queued key) :
    (s.setStatus co status).Sound where
  lock key := by
    refine (h.lock key).frame (fun w => ?_) fun _ _ => Iff.rfl
    by_cases same : w = co
    · simp [Service.setStatus, same, other key, out key]
    · simp [Service.setStatus, same]
  woken w member := by
    have other : w ≠ co := fun same => apart (same ▸ member)
    simpa [Service.setStatus, other] using h.woken w member
  nodup := h.nodup

theorem Sound.park (h : s.Sound) (up : (s.status co).sleeping = false)
    (busy : (s.lock key).busy co = true) : (s.park key co).Sound where
  lock k := by
    by_cases same : k = key
    · have kept := (h.lock key).enqueue busy (not_queued up key) (h.notMem_woken up)
      rw [same]
      simp only [Service.park, Service.setLock, Service.setStatus, Function.update_self]
      refine kept.frame (fun w => ?_) fun _ _ => Iff.rfl
      by_cases who : w = co
      · simp [who]
      · simp [who]
    · simp only [Service.park, Service.setLock, Service.setStatus, Function.update_of_ne same]
      refine (h.lock k).frame (fun w => ?_) fun _ _ => Iff.rfl
      by_cases who : w = co
      · simp [who, not_queued up k, Ne.symm same]
      · simp [who]
  woken w member := by
    have other : w ≠ co := fun same => h.notMem_woken up (same ▸ member)
    simpa [Service.park, Service.setLock, Service.setStatus, other] using h.woken w member
  nodup := h.nodup

omit [DecidableEq Key] [DecidableEq Co] in
/-- Somebody who waits for something else is woken. -/
theorem Sound.wake (h : s.Sound) (asleep : s.status co = .asleep) (apart : co ∉ s.wakeupQueue) :
    (s.wake co).Sound := by
  have up : (s.status co).sleeping = true := by rw [asleep]; rfl
  rw [Service.wake, if_pos up]
  refine ⟨fun key => (h.lock key).frame (fun _ => Iff.rfl) fun w at_ => ?_, fun w member => ?_, ?_⟩
  · rw [List.mem_append, or_iff_left]
    intro member
    rw [List.mem_singleton.1 member, asleep] at at_
    cases at_
  · cases List.mem_append.1 member with
    | inl old => exact h.woken w old
    | inr new => exact List.mem_singleton.1 new ▸ up
  · exact List.nodup_append.2 ⟨h.nodup, List.nodup_singleton co, fun a old b new same => by
      rw [List.mem_singleton.1 new] at same
      exact apart (same ▸ old)⟩

/-- A lock and its count change together, and some of its waiters are woken. -/
theorem Sound.setLock (h : s.Sound) {l : Lock Co} {n : Nat} {waiters : List Co}
    (kept : l.Kept (Function.update (fun w => s.depth w key) co n)
      (fun w => s.status w = .queued key) (s.wakeupQueue ++ waiters))
    (new : ∀ w ∈ waiters, s.status w = .queued key ∧ w ∉ s.wakeupQueue) (nodup : waiters.Nodup) :
    ({ (s.setLock key l).setDepth co key n with
      wakeupQueue := s.wakeupQueue ++ waiters } : Service Key Co).Sound where
  lock k := by
    by_cases same : k = key
    · rw [same]
      simp only [Service.setLock, Service.setDepth, Function.update_self]
      convert kept using 2 with w
      by_cases who : w = co
      · simp [who]
      · simp [who]
    · simp only [Service.setLock, Service.setDepth, Function.update_of_ne same]
      have frame : (s.lock k).Kept (fun w => s.depth w k) (fun w => s.status w = .queued k)
          (s.wakeupQueue ++ waiters) := by
        refine (h.lock k).frame (fun _ => Iff.rfl) fun w at_ => ?_
        rw [List.mem_append, or_iff_left]
        intro member
        have at_' := (new w member).1
        rw [at_] at at_'
        exact same (Status.queued.inj at_')
      convert frame using 2 with w
      by_cases who : w = co
      · simp [who, same]
      · simp [who]
  woken w member := by
    cases List.mem_append.1 member with
    | inl old => exact h.woken w old
    | inr waiter =>
        show (s.status w).sleeping = true
        rw [(new w waiter).1]
        rfl
  nodup := List.nodup_append.2 ⟨h.nodup, nodup, fun a old b waiter same =>
    (new b waiter).2 (same ▸ old)⟩

theorem Sound.enter (h : s.Sound) (mine : (s.lock key).busy co = false) :
    (s.enter key co).Sound := by
  have kept := (h.lock key).take mine
  rw [← List.append_nil s.wakeupQueue] at kept
  have sound := h.setLock kept nofun List.nodup_nil
  rw [List.append_nil] at sound
  exact sound

theorem Sound.leave_eq (h : s.Sound) : s.leave key co =
    { (s.setLock key (s.lock key).unlock.1).setDepth co key (s.depth co key - 1) with
      wakeupQueue := s.wakeupQueue ++ (s.lock key).unlock.2.toList } := by
  rw [Service.leave]
  cases waiter : (s.lock key).unlock.2 with
  | none => simp [Service.setLock, Service.setDepth]
  | some w =>
      have at_ := ((h.lock key).waiting w (Lock.unlock_mem waiter)).1
      have asleep : (s.status w).sleeping = true := by rw [at_]; rfl
      simp [Service.wake, Service.setLock, Service.setDepth, asleep]

theorem Sound.leave (h : s.Sound) (inside : 0 < s.depth co key) : (s.leave key co).Sound := by
  rw [h.leave_eq]
  refine h.setLock ((h.lock key).unlock inside) (fun w waiter => ?_) ?_
  · exact (h.lock key).waiting w (Lock.unlock_mem (Option.mem_toList.1 waiter))
  · cases (s.lock key).unlock.2 with
    | none => exact List.nodup_nil
    | some w => exact List.nodup_singleton w

/-- The first that was woken goes on. -/
theorem Sound.resume (h : s.Sound) {rest : List Co} (first : s.wakeupQueue = co :: rest) :
    ({ s with wakeupQueue := rest }.resume co).Sound := by
  have distinct := h.nodup
  rw [first] at distinct
  have apart := (List.nodup_cons.1 distinct).1
  have up := h.woken co (first ▸ List.mem_cons_self)
  -- one word of the queue less, for whoever is not the first
  have rest_woken : ∀ w ∈ rest, w ≠ co ∧ (s.status w).sleeping = true := fun w member =>
    ⟨fun same => apart (same ▸ member), h.woken w (first ▸ List.mem_cons_of_mem _ member)⟩
  have frame : ∀ key status, s.status co ≠ .queued key → status ≠ .queued key →
      (s.lock key).Kept (fun w => s.depth w key)
        (fun w => Function.update s.status co status w = .queued key) rest := by
    intro key status out out'
    refine (h.lock key).frame (fun w => ?_) fun w at_ => ?_
    · by_cases same : w = co
      · simp [same, out, out']
      · simp [same]
    · rw [first, List.mem_cons, or_iff_right]
      exact fun same => out (same ▸ at_)
  have woken : ∀ status, ∀ w ∈ rest, (Function.update s.status co status w).sleeping = true := by
    intro status w member
    rw [Function.update_of_ne (rest_woken w member).1]
    exact (rest_woken w member).2
  have nodup := (List.nodup_cons.1 distinct).2
  have own : ∀ key status, s.status co = .queued key → status ≠ .queued key → ∀ w,
      Function.update s.status co status w = .queued key ↔ s.status w = .queued key ∧ w ≠ co := by
    intro key status at_ out w
    by_cases same : w = co
    · simp [same, out]
    · simp [same]
  cases at_ : s.status co with
  | queued key =>
      have kept := h.lock key
      rw [first] at kept
      have other : ∀ k, k ≠ key → s.status co ≠ .queued k := fun k apart eq =>
        apart (Status.queued.inj (eq.symm.trans at_))
      by_cases zero : (s.lock key).ref = 0
      · rw [Service.resume]
        simp only [at_, zero, if_true]
        refine ⟨fun k => ?_, woken .ready, nodup⟩
        by_cases same : k = key
        · rw [same]
          have taken := (kept.resumed zero).frame (own key .ready at_ nofun) fun _ _ => Iff.rfl
          simp only [Service.enter, Service.setLock, Service.setDepth, Service.setStatus,
            Function.update_self]
          convert taken using 2 with w
          by_cases who : w = co
          · simp [who]
          · simp [who]
        · simp only [Service.enter, Service.setLock, Service.setDepth, Service.setStatus,
            Function.update_of_ne same]
          convert frame k .ready (other k same) nofun using 2 with w
          by_cases who : w = co
          · simp [who, same]
          · simp [who]
      · rw [Service.resume]
        simp only [at_, zero, if_false]
        refine ⟨fun k => ?_, woken .raised, nodup⟩
        by_cases same : k = key
        · rw [same]
          exact (kept.refused zero).frame (own key .raised at_ nofun) fun _ _ => Iff.rfl
        · exact frame k .raised (other k same) nofun
  | asleep =>
      rw [Service.resume]
      simp only [at_]
      exact ⟨fun k => frame k .ready (by rw [at_]; exact nofun) nofun, woken .ready, nodup⟩
  | ready =>
      rw [at_] at up
      cases up
  | raised =>
      rw [at_] at up
      cases up

theorem resume_running (s : Service Key Co) (co : Co) : (s.resume co).running = some co ∧
    ((s.resume co).status co).sleeping = false := by
  rw [Service.resume]
  split
  · split
    · exact ⟨rfl, by simp [Service.enter, Service.setLock, Service.setDepth, Service.setStatus,
        Status.sleeping]⟩
    · exact ⟨rfl, by simp [Service.setStatus, Status.sleeping]⟩
  · exact ⟨rfl, by simp [Service.setStatus, Status.sleeping]⟩

/-- What the end of a suspension is. -/
theorem Sound.dispatchWakeup_cases (h : s.Sound) :
    s.wakeupQueue = [] ∧ s.dispatchWakeup = { s with running := none } ∨
      ∃ co rest, s.wakeupQueue = co :: rest ∧
        s.dispatchWakeup = { s with wakeupQueue := rest }.resume co := by
  rw [Service.dispatchWakeup]
  cases queue : s.wakeupQueue with
  | nil =>
      refine .inl ⟨rfl, ?_⟩
      show ({ s with running := none, wakeupQueue := [] } : Service Key Co) = _
      rw [← queue]
  | cons co rest =>
      have up := h.woken co (queue ▸ List.mem_cons_self)
      exact .inr ⟨co, rest, rfl, by simp [up]⟩

/-- What the wakeups may change for one coroutine. -/
inductive Resumed : Status Key × (Key → Nat) → Status Key × (Key → Nat) → Prop
  | same (status : Status Key) (depth : Key → Nat) : Resumed (status, depth) (status, depth)
  | granted (key : Key) (depth : Key → Nat) : Resumed (.queued key, depth)
      (.ready, Function.update depth key (depth key + 1))
  | refused (key : Key) (depth : Key → Nat) : Resumed (.queued key, depth) (.raised, depth)
  | woken (depth : Key → Nat) : Resumed (.asleep, depth) (.ready, depth)

theorem Sound.dispatchWakeup_resumed (h : s.Sound) (w : Co) :
    Resumed (s.status w, s.depth w) (s.dispatchWakeup.status w, s.dispatchWakeup.depth w) := by
  cases h.dispatchWakeup_cases with
  | inl nobody =>
      rw [nobody.2]
      exact .same _ _
  | inr somebody =>
      obtain ⟨co, rest, queue, resumed⟩ := somebody
      have up := h.woken co (queue ▸ List.mem_cons_self)
      rw [resumed, Service.resume]
      by_cases who : w = co
      · rw [who]
        cases at_ : s.status co with
        | queued key =>
            by_cases zero : (s.lock key).ref = 0
            · simp only [zero, if_true, Service.enter, Service.setLock, Service.setDepth,
                Service.setStatus, Function.update_self]
              exact .granted key _
            · simp only [zero, if_false, Service.setStatus, Function.update_self]
              exact .refused key _
        | asleep =>
            simp only [Service.setStatus, Function.update_self]
            exact .woken _
        | ready =>
            rw [at_] at up
            cases up
        | raised =>
            rw [at_] at up
            cases up
      · have kept : ∀ t : Service Key Co, t.status w = s.status w → t.depth w = s.depth w →
            Resumed (s.status w, s.depth w) (t.status w, t.depth w) := by
          intro t status depth
          rw [status, depth]
          exact .same _ _
        split
        · split
          · exact kept _ (Function.update_of_ne who ..) (Function.update_of_ne who ..)
          · exact kept _ (Function.update_of_ne who ..) rfl
        · exact kept _ (Function.update_of_ne who ..) rfl

theorem Sound.dispatchWakeup (h : s.Sound) : s.dispatchWakeup.Settled := by
  cases h.dispatchWakeup_cases with
  | inl nobody =>
      rw [nobody.2]
      exact ⟨⟨h.lock, h.woken, h.nodup⟩, nofun, fun _ => nobody.1⟩
  | inr somebody =>
      obtain ⟨co, rest, queue, resumed⟩ := somebody
      have runs := resume_running { s with wakeupQueue := rest } co
      rw [resumed]
      refine ⟨h.resume queue, fun w running => ?_, fun none => ?_⟩
      · rw [runs.1] at running
        exact Option.some.inj running ▸ runs.2
      · rw [runs.1] at none
        cases none

theorem Settled.step {s' : Service Key Co} {action : Action Key Co} (h : s.Settled)
    (moved : s.step action = some s') : s'.Settled := by
  cases action with
  | message co =>
      rw [Service.step] at moved
      split at moved
      · rename_i free
        cases moved
        refine ⟨⟨h.lock, h.woken, h.nodup⟩, fun w runs => ?_, nofun⟩
        exact Option.some.inj runs ▸ free.2
      · cases moved
  | lock key =>
      obtain ⟨co, runs, out⟩ := Option.map_eq_some_iff.1 moved
      have up := h.awake co runs
      cases busy : (s.lock key).busy co with
      | true =>
          rw [if_pos busy] at out
          exact out ▸ (h.toSound.park up busy).dispatchWakeup
      | false =>
          rw [if_neg (by rw [busy]; exact Bool.false_ne_true)] at out
          have sound := h.toSound.enter busy
          rw [← out]
          exact ⟨sound, h.awake, h.idle⟩
  | unlock key =>
      obtain ⟨co, runs, out⟩ := Option.bind_eq_some_iff.1 moved
      split at out
      · rename_i inside
        have sound := h.toSound.leave inside
        rw [← Option.some.inj out]
        rw [h.toSound.leave_eq] at sound ⊢
        refine ⟨sound, h.awake, fun none => ?_⟩
        have free : s.running = Option.none := none
        rw [runs] at free
        cases free
      · cases out
  | yield =>
      obtain ⟨co, _, out⟩ := Option.map_eq_some_iff.1 moved
      exact out ▸ h.toSound.dispatchWakeup
  | sleep =>
      obtain ⟨co, runs, out⟩ := Option.map_eq_some_iff.1 moved
      have up := h.awake co runs
      have dozing : (s.setStatus co .asleep).Sound :=
        h.toSound.setStatus (not_queued up) (h.notMem_woken up) (by simp)
      exact out ▸ dozing.dispatchWakeup
  | wakeup co =>
      rw [Service.step] at moved
      split at moved
      · rename_i asleep
        cases moved
        have woken := h.toSound.wake asleep.2.1 asleep.2.2
        rw [Service.wake, if_pos (by rw [asleep.2.1]; rfl)] at woken ⊢
        refine ⟨woken, h.awake, fun none => ?_⟩
        have free : s.running = Option.none := none
        rw [free] at asleep
        cases asleep.1
      · cases moved

/-- Whoever does not run is at most woken. -/
theorem Settled.step_resumed {s' : Service Key Co} {action : Action Key Co} {w : Co}
    (h : s.Settled) (moved : s.step action = some s') (other : s.running ≠ some w) :
    Resumed (s.status w, s.depth w) (s'.status w, s'.depth w) := by
  have apart : ∀ co, s.running = some co → w ≠ co := fun co runs same => other (same ▸ runs)
  cases action with
  | message co =>
      rw [Service.step] at moved
      split at moved
      · cases moved
        exact .same _ _
      · cases moved
  | lock key =>
      obtain ⟨co, runs, out⟩ := Option.map_eq_some_iff.1 moved
      cases busy : (s.lock key).busy co with
      | true =>
          rw [if_pos busy] at out
          have parked := (h.toSound.park (h.awake co runs) busy).dispatchWakeup_resumed w
          rw [out, show (s.park key co).status w = s.status w from
            Function.update_of_ne (apart co runs) ..] at parked
          exact parked
      | false =>
          rw [if_neg (by rw [busy]; exact Bool.false_ne_true)] at out
          rw [← out, show (s.enter key co).depth w = s.depth w from
            Function.update_of_ne (apart co runs) ..]
          exact .same _ _
  | unlock key =>
      obtain ⟨co, runs, out⟩ := Option.bind_eq_some_iff.1 moved
      split at out
      · cases out
        rw [h.toSound.leave_eq]
        simp only [Service.setDepth, Service.setLock, Function.update_of_ne (apart co runs)]
        exact .same _ _
      · cases out
  | yield =>
      obtain ⟨co, _, out⟩ := Option.map_eq_some_iff.1 moved
      exact out ▸ h.toSound.dispatchWakeup_resumed w
  | sleep =>
      obtain ⟨co, runs, out⟩ := Option.map_eq_some_iff.1 moved
      have up := h.awake co runs
      have dozing : (s.setStatus co .asleep).Sound :=
        h.toSound.setStatus (not_queued up) (h.notMem_woken up) (by simp)
      have woken := dozing.dispatchWakeup_resumed w
      rw [out, show (s.setStatus co .asleep).status w = s.status w from
        Function.update_of_ne (apart co runs) ..] at woken
      exact woken
  | wakeup co =>
      rw [Service.step] at moved
      split at moved
      · cases moved
        rw [Service.wake]
        split
        · exact .same _ _
        · exact .same _ _
      · cases moved

/-- What `lock` does to its caller: it enters, or queues at a lock it has no part of. -/
theorem Settled.step_lock {s' : Service Key Co} (h : s.Settled) (runs : s.running = some co)
    (moved : s.step (.lock key) = some s') :
    s'.status co = s.status co ∧
        s'.depth co = Function.update (s.depth co) key (s.depth co key + 1) ∨
      s.depth co key = 0 ∧
        Resumed (.queued key, s.depth co) (s'.status co, s'.depth co) := by
  rw [Service.step, runs] at moved
  cases busy : (s.lock key).busy co with
  | false =>
      simp only [busy, Option.map_some, Option.some.injEq] at moved
      rw [← moved]
      exact .inl ⟨rfl, Function.update_self ..⟩
  | true =>
      simp only [busy, Option.map_some, Option.some.injEq, if_true] at moved
      have parked := (h.toSound.park (h.awake co runs) busy).dispatchWakeup_resumed co
      rw [moved, show (s.park key co).status co = .queued key from
        Function.update_self ..] at parked
      refine .inr ⟨?_, parked⟩
      obtain ⟨holder, current, apart⟩ := Option.any_eq_true _ _ |>.1 busy
      refine ((h.lock key).held holder ?_).2.2 co fun same => ?_
      · exact current
      · rw [same] at apart
        simp at apart

theorem Settled.step_unlock {s' : Service Key Co} (h : s.Settled) (runs : s.running = some co)
    (moved : s.step (.unlock key) = some s') : s'.status co = s.status co ∧
      s'.depth co = Function.update (s.depth co) key (s.depth co key - 1) := by
  rw [Service.step, runs, Option.bind_some] at moved
  split at moved
  · cases moved
    rw [h.toSound.leave_eq]
    exact ⟨rfl, Function.update_self ..⟩
  · cases moved

/-! ### Locks that are handed on before they are taken again -/

def Suspends (s : Service Key Co) : Action Key Co → Prop
  | .yield | .sleep => True
  | .lock key => ∃ co, s.running = some co ∧ (s.lock key).busy co = true
  | _ => False

/-- The guard: whoever suspends holds no lock of which a woken waiter has not run yet. -/
def HandsOn (s : Service Key Co) (action : Action Key Co) : Prop :=
  s.Suspends action → ∀ co key, s.running = some co → (s.lock key).currentThread = some co →
    ∀ w ∈ s.wakeupQueue, s.status w ≠ .queued key

/-- The woken waiters of a lock. -/
def wokenFor (s : Service Key Co) (key : Key) : List Co :=
  s.wakeupQueue.filter fun w => (s.status w).waitsFor key

/-- Nobody is lost and nobody overtaken. -/
structure InOrder (s : Service Key Co) : Prop where
  order : ∀ key, s.queuedUp key =
    s.obtained key ++ s.wokenFor key ++ (s.lock key).threadQueue
  asserted : s.failed = []

/-- A lock with a woken waiter is free, or in the hands of whoever runs. -/
structure Steady (s : Service Key Co) : Prop extends Settled s, InOrder s where
  turn : ∀ key, ∀ w ∈ s.wakeupQueue, s.status w = .queued key →
    ∀ h, (s.lock key).currentThread = some h → s.running = some h

omit [DecidableEq Co] in
theorem mem_wokenFor {w : Co} :
    w ∈ s.wokenFor key ↔ w ∈ s.wakeupQueue ∧ s.status w = .queued key := by
  simp [wokenFor, Status.waitsFor]

/-- The next one woken finds its lock free. -/
theorem Sound.dispatchWakeup_steady (h : s.Sound) (ordered : s.InOrder)
    (open_ : ∀ key, ∀ w ∈ s.wakeupQueue, s.status w = .queued key →
      (s.lock key).currentThread = none) : s.dispatchWakeup.Steady := by
  have settled := h.dispatchWakeup
  cases h.dispatchWakeup_cases with
  | inl nobody =>
      rw [nobody.2] at settled ⊢
      refine ⟨settled, ⟨ordered.order, ordered.asserted⟩, fun key w member => ?_⟩
      have none : s.wakeupQueue = [] := nobody.1
      exact absurd (none ▸ member : w ∈ ([] : List Co)) List.not_mem_nil
  | inr somebody =>
      obtain ⟨co, rest, queue, resumed⟩ := somebody
      have apart : ∀ w ∈ rest, w ≠ co := fun w member same =>
        (List.nodup_cons.1 (queue ▸ h.nodup)).1 (same ▸ member)
      have first : co ∈ s.wakeupQueue := queue ▸ List.mem_cons_self
      -- whom the queue still holds for a lock
      have left : ∀ key status, status ≠ .queued key → s.wokenFor key =
          (if s.status co = .queued key then [co] else []) ++
            rest.filter fun w => (Function.update s.status co status w).waitsFor key := by
        intro key status out
        have same : (rest.filter fun w => (Function.update s.status co status w).waitsFor key) =
            rest.filter fun w => (s.status w).waitsFor key := by
          refine List.filter_congr fun w member => ?_
          rw [Function.update_of_ne (apart w member)]
        rw [same, wokenFor, queue, List.filter_cons]
        by_cases at_ : s.status co = .queued key
        · simp [at_, Status.waitsFor]
        · simp [at_, Status.waitsFor]
      have turn : ∀ key status, ∀ w ∈ rest, Function.update s.status co status w = .queued key →
          (s.lock key).currentThread = none := by
        intro key status w member at_
        rw [Function.update_of_ne (apart w member)] at at_
        exact open_ key w (queue ▸ List.mem_cons_of_mem _ member) at_
      rw [resumed] at settled ⊢
      rw [Service.resume] at settled ⊢
      cases at_ : s.status co with
      | queued key =>
          have zero : (s.lock key).ref = 0 := ((h.lock key).free (open_ key co first at_)).1
          simp only [at_, zero, if_true] at settled ⊢
          refine ⟨settled, ⟨fun k => ?_, ordered.asserted⟩, fun k w member at_' holder => ?_⟩
          · by_cases same : k = key
            · have kept := left key .ready nofun
              rw [if_pos at_] at kept
              have whole := ordered.order key
              rw [kept, ← List.append_assoc] at whole
              rw [same]
              simp only [Service.enter, Service.setLock, Service.setDepth, Service.setStatus,
                Function.update_self, Lock.take, wokenFor]
              exact whole
            · have kept := left k .ready nofun
              rw [if_neg fun eq => same (Status.queued.inj (eq.symm.trans at_)),
                List.nil_append] at kept
              have whole := ordered.order k
              rw [kept] at whole
              simp only [Service.enter, Service.setLock, Service.setDepth, Service.setStatus,
                Function.update_of_ne same, wokenFor]
              exact whole
          · by_cases same : k = key
            · intro taken
              rw [same] at taken
              simp only [Service.enter, Service.setLock, Service.setDepth, Service.setStatus,
                Function.update_self, Lock.take] at taken
              exact taken
            · intro taken
              have free := turn k .ready w member at_'
              simp only [Service.enter, Service.setLock, Service.setDepth, Service.setStatus,
                Function.update_of_ne same] at taken
              rw [free] at taken
              cases taken
      | asleep =>
          simp only [at_] at settled ⊢
          refine ⟨settled, ⟨fun k => ?_, ordered.asserted⟩, fun k w member at_' holder current => ?_⟩
          · have kept := left k .ready nofun
            rw [at_, if_neg nofun, List.nil_append] at kept
            have whole := ordered.order k
            rw [kept] at whole
            exact whole
          · have free := turn k .ready w member at_'
            have held : (s.lock k).currentThread = some holder := current
            rw [free] at held
            cases held
      | ready =>
          have up := h.woken co first
          rw [at_] at up
          cases up
      | raised =>
          have up := h.woken co first
          rw [at_] at up
          cases up

/-- Whoever suspends leaves the locks of woken waiters free. -/
theorem Steady.freed (h : s.Steady) {action : Action Key Co} (guard : s.HandsOn action)
    (suspends : s.Suspends action) (runs : s.running = some co) :
    ∀ key, ∀ w ∈ s.wakeupQueue, s.status w = .queued key →
      (s.lock key).currentThread = none := by
  intro key w member at_
  cases current : (s.lock key).currentThread with
  | none => rfl
  | some holder =>
      have same := h.turn key w member at_ holder current
      rw [runs] at same
      rw [← Option.some.inj same] at current
      exact absurd at_ (guard suspends co key runs current w member)

theorem InOrder.park (h : s.InOrder) (apart : co ∉ s.wakeupQueue) : (s.park key co).InOrder where
  order k := by
    have woken : (s.park key co).wokenFor k = s.wokenFor k := by
      refine List.filter_congr fun w member => ?_
      have other : w ≠ co := fun same => apart (same ▸ member)
      rw [show (s.park key co).status w = s.status w from Function.update_of_ne other ..]
    rw [woken]
    by_cases same : k = key
    · rw [same]
      simp only [Service.park, Service.setLock, Service.setStatus, Function.update_self,
        Lock.enqueue]
      rw [h.order key]
      simp
    · simp only [Service.park, Service.setLock, Service.setStatus, Function.update_of_ne same]
      exact h.order k
  asserted := h.asserted

theorem Steady.leave (h : s.Steady) (settled : (s.leave key co).Settled) :
    (s.leave key co).Steady := by
  have waiters : ∀ w ∈ (s.lock key).unlock.2.toList, s.status w = .queued key ∧
      (s.lock key).unlock.1.currentThread = none := by
    intro w waiter
    have woke := Option.mem_toList.1 waiter
    refine ⟨((h.lock key).waiting w (Lock.unlock_mem woke)).1, ?_⟩
    rw [Lock.unlock] at woke ⊢
    split
    · rfl
    · rename_i more
      rw [if_neg more] at woke
      cases woke
  have current : ∀ holder, (s.lock key).unlock.1.currentThread = some holder →
      (s.lock key).currentThread = some holder := by
    intro holder held
    rw [Lock.unlock] at held
    split at held
    · cases held
    · exact held
  rw [h.toSound.leave_eq] at settled ⊢
  refine ⟨settled, ⟨fun k => ?_, h.asserted⟩, fun k w member at_ holder held => ?_⟩
  · have order := h.order k
    by_cases same : k = key
    · have all : ((s.lock key).unlock.2.toList.filter fun w => (s.status w).waitsFor key) =
          (s.lock key).unlock.2.toList :=
        List.filter_eq_self.2 fun w waiter => decide_eq_true (waiters w waiter).1
      rw [same] at order ⊢
      rw [← Lock.unlock_queue (l := s.lock key)] at order
      simp only [Service.setLock, Service.setDepth, Function.update_self, wokenFor,
        List.filter_append, all]
      rw [order, wokenFor]
      simp only [List.append_assoc]
    · have none : ((s.lock key).unlock.2.toList.filter fun w => (s.status w).waitsFor k) = [] := by
        refine List.filter_eq_nil_iff.2 fun w waiter at_ => same ?_
        have at_' := (waiters w waiter).1
        rw [of_decide_eq_true at_] at at_'
        exact Status.queued.inj at_'
      simp only [Service.setLock, Service.setDepth, Function.update_of_ne same, wokenFor,
        List.filter_append, none, List.append_nil]
      exact order
  · by_cases same : k = key
    · rw [same] at held at_
      simp only [Service.setLock, Service.setDepth, Function.update_self] at held
      cases List.mem_append.1 member with
      | inl old => exact h.turn key w old at_ holder (current holder held)
      | inr new =>
          rw [(waiters w new).2] at held
          cases held
    · simp only [Service.setLock, Service.setDepth, Function.update_of_ne same] at held
      cases List.mem_append.1 member with
      | inl old => exact h.turn k w old at_ holder held
      | inr new =>
          have at_' := (waiters w new).1
          have at_'' : s.status w = .queued k := at_
          rw [at_''] at at_'
          exact absurd (Status.queued.inj at_') same

theorem Steady.step {s' : Service Key Co} {action : Action Key Co} (h : s.Steady)
    (guard : s.HandsOn action) (moved : s.step action = some s') : s'.Steady := by
  have settled := h.toSettled.step moved
  cases action with
  | message co =>
      rw [Service.step] at moved
      split at moved
      · rename_i free
        cases moved
        refine ⟨settled, ⟨h.order, h.asserted⟩, fun key w member => ?_⟩
        have none := h.idle free.1
        exact absurd (none ▸ member : w ∈ ([] : List Co)) List.not_mem_nil
      · cases moved
  | lock key =>
      obtain ⟨co, runs, out⟩ := Option.map_eq_some_iff.1 moved
      have up := h.awake co runs
      have apart := h.toSound.notMem_woken up
      cases busy : (s.lock key).busy co with
      | true =>
          rw [if_pos busy] at out
          rw [← out]
          refine (h.toSound.park up busy).dispatchWakeup_steady (h.toInOrder.park apart) ?_
          intro k w member at_
          have other : w ≠ co := fun same => apart (same ▸ member)
          have at_' : s.status w = .queued k := by
            rw [← at_]
            exact (Function.update_of_ne other ..).symm
          have free := h.freed guard ⟨co, runs, busy⟩ runs k w member at_'
          by_cases same : k = key
          · rw [same] at free ⊢
            simpa [Service.park, Service.setLock, Service.setStatus, Lock.enqueue] using free
          · simpa [Service.park, Service.setLock, Service.setStatus, same] using free
      | false =>
          rw [if_neg (by rw [busy]; exact Bool.false_ne_true)] at out
          rw [← out] at settled ⊢
          refine ⟨settled, ⟨fun k => ?_, h.asserted⟩, fun k w member at_ holder held => ?_⟩
          · have order := h.order k
            by_cases same : k = key
            · rw [same] at order ⊢
              simpa [Service.enter, Service.setLock, Service.setDepth, Lock.take, wokenFor]
                using order
            · simpa [Service.enter, Service.setLock, Service.setDepth, same, wokenFor] using order
          · by_cases same : k = key
            · rw [same] at held
              simp only [Service.enter, Service.setLock, Service.setDepth, Function.update_self,
                Lock.take] at held
              exact held ▸ runs
            · simp only [Service.enter, Service.setLock, Service.setDepth,
                Function.update_of_ne same] at held
              exact h.turn k w member at_ holder held
  | unlock key =>
      obtain ⟨co, runs, out⟩ := Option.bind_eq_some_iff.1 moved
      split at out
      · cases out
        exact h.leave settled
      · cases out
  | yield =>
      obtain ⟨co, runs, out⟩ := Option.map_eq_some_iff.1 moved
      exact out ▸ h.toSound.dispatchWakeup_steady h.toInOrder (h.freed guard trivial runs)
  | sleep =>
      obtain ⟨co, runs, out⟩ := Option.map_eq_some_iff.1 moved
      have up := h.awake co runs
      have apart := h.toSound.notMem_woken up
      have dozing : (s.setStatus co .asleep).Sound :=
        h.toSound.setStatus (not_queued up) apart (by simp)
      have same : ∀ w ∈ s.wakeupQueue, (s.setStatus co .asleep).status w = s.status w :=
        fun w member => Function.update_of_ne (fun eq : w = co => apart (eq ▸ member)) ..
      refine out ▸ dozing.dispatchWakeup_steady ⟨fun k => ?_, h.asserted⟩ fun k w member at_ => ?_
      · have woken : (s.setStatus co .asleep).wokenFor k = s.wokenFor k :=
          List.filter_congr fun w member => by rw [same w member]
        rw [woken]
        exact h.order k
      · rw [same w member] at at_
        exact h.freed guard trivial runs k w member at_
  | wakeup co =>
      rw [Service.step] at moved
      split at moved
      · rename_i asleep
        cases moved
        rw [Service.wake, if_pos (by rw [asleep.2.1]; rfl)] at settled ⊢
        refine ⟨settled, ⟨fun k => ?_, h.asserted⟩, fun k w member at_ => ?_⟩
        · have order := h.order k
          simpa [wokenFor, Status.waitsFor, asleep.2.1] using order
        · cases List.mem_append.1 member with
          | inl old => exact h.turn k w old at_
          | inr new =>
              have at_' : s.status w = .queued k := at_
              rw [List.mem_singleton.1 new, asleep.2.1] at at_'
              cases at_'
      · cases moved

omit [DecidableEq Co] in
theorem start_steady : (start : Service Key Co).Steady where
  lock _ := ⟨nofun, fun _ => ⟨rfl, fun _ => rfl⟩, nofun, List.nodup_nil, nofun, fun _ some =>
    absurd rfl some⟩
  woken := nofun
  nodup := List.nodup_nil
  awake := nofun
  idle _ := rfl
  order _ := rfl
  asserted := rfl
  turn := nofun

/-- What a lock promises, for every key. -/
structure Excludes (s : Service Key Co) : Prop where
  alone : ∀ key co co', 0 < s.depth co key → 0 < s.depth co' key → co = co'
  asserted : s.failed = []
  fair : ∀ key, s.obtained key <+: s.queuedUp key
  /-- Nobody stays queued at a free lock unless one of the waiters has been woken. -/
  woken : ∀ co key, s.status co = .queued key → (s.lock key).currentThread = none →
    s.wokenFor key ≠ []

omit [DecidableEq Co] in
theorem Steady.excludes (h : s.Steady) : s.Excludes where
  alone key co co' inside inside' :=
    Option.some.inj (((h.lock key).holder inside).symm.trans ((h.lock key).holder inside'))
  asserted := h.asserted
  fair key := by
    rw [h.order key, List.append_assoc]
    exact List.prefix_append _ _
  woken co key at_ free := by
    cases (h.lock key).covers co at_ with
    | inl queued =>
        obtain ⟨w, member, at_'⟩ := (h.lock key).handed free (List.ne_nil_of_mem queued)
        exact List.ne_nil_of_mem (mem_wokenFor.2 ⟨member, at_'⟩)
    | inr member => exact List.ne_nil_of_mem (mem_wokenFor.2 ⟨member, at_⟩)

abbrev LockReaches (ok : Service Key Co → Action Key Co → Prop) : Service Key Co → Prop :=
  Runs.Reaches (fun s => s = start) (fun s action s' => s.step action = some s') ok

/-- In every run in which locks are handed on before they are taken again, all promises hold. -/
theorem lock_excludes (reached : LockReaches HandsOn s) : s.Excludes := by
  have steady : s.Steady := by
    refine reached.invariant (fun s start => ?_) fun s action s' steady guard moved => ?_
    · rw [start]
      exact start_steady
    · exact steady.step guard moved
  exact steady.excludes

/-! ### A lock that is taken again at once -/

/-- Coroutine 2 waits for the lock of coroutine 1, which gives it back and ends. -/
def handedOn : List (Action Unit Nat) :=
  [.message 1, .lock (), .yield, .message 2, .lock (), .message 1, .unlock (), .yield]

theorem waiter_woken : ∃ s : Service Unit Nat, s.obtained () = [2] ∧ s.depth 2 () = 1 ∧
    s.Excludes := by
  have run : (handedOn.foldlM (fun s action =>
      if decide (s.wakeupQueue = []) || decide ((s.lock ()).currentThread = none) then
        s.step action
      else none) (start : Service Unit Nat)).map (fun s => (s.obtained (), s.depth 2 ())) =
      some ([2], 1) := rfl
  obtain ⟨s, ended, now⟩ := Option.map_eq_some_iff.1 run
  obtain ⟨waited, inside⟩ := Prod.mk.inj now
  refine ⟨s, waited, inside, lock_excludes (Runs.reaches_of_tested ?_ (.start rfl) ended)⟩
  intro s action tested _ co key _ holds w woken
  cases Bool.or_eq_true_iff.1 tested with
  | inl nobody => rw [of_decide_eq_true nobody] at woken; cases woken
  | inr free => rw [of_decide_eq_true free] at holds; cases holds

/-- Coroutine 1 gives the lock back, takes it again and waits for an answer; coroutine 2 was woken
in between. -/
def retaken : List (Action Unit Nat) :=
  [.message 1, .lock (), .yield, .message 2, .lock (), .message 1, .unlock (), .lock (), .yield]

theorem retaken_asserts :
    ¬ ∀ s : Service Unit Nat, LockReaches (fun _ _ => True) s → s.Excludes := by
  intro claim
  have run : (retaken.foldlM step (start : Service Unit Nat)).map failed = some [((), 2)] := rfl
  obtain ⟨s, ended, failed⟩ := Option.map_eq_some_iff.1 run
  have begun : LockReaches (fun _ _ => True) (start : Service Unit Nat) := .start rfl
  have reached := Runs.reachable_of_foldlM begun ended
  have none := (claim s reached).asserted
  rw [failed] at none
  cases none

end Service

end FkServer
