import FkServer.Library.Runs
import FkServer.Library.Tickets
import Mathlib.Data.Finset.Card
import Mathlib.Logic.Function.Basic

/-!
`mutexd.lua`: locks by name for the clients of all services, one at a time or several at once.
Every request runs in a coroutine, which skynet uses again when the request has been answered.
-/
namespace FkServer

/-- A request for locks. -/
inductive Wish (Id : Type)
  | aquire (id : Id)
  | aquireBatch (ids : List Id)

/-- The two namespaces. -/
inductive Name (Id : Type)
  | single (id : Id)
  | batch (id : Id)
deriving DecidableEq

def Wish.names {Id : Type} : Wish Id → List (Name Id)
  | .aquire id => [.single id]
  | .aquireBatch ids => ids.map .batch

structure Queue (Co : Type) where
  threads : List Co
  currentThread : Co

/-- The tables of the service; the requests in the order of their arrival, whose index is their
ticket; and who has been let in and has given what back. -/
structure Mutexd (Id Co : Type) where
  threadQueue : Id → Option (Queue Co)
  batchQueue : Id → Option (List Co)
  /-- The ticket of a coroutine in `skynet.wait`, and how many wakeups it waits for. -/
  waiting : Co → Option (Nat × Nat)
  asked : List (Wish Id)
  granted : List Nat
  released : List (Nat × Name Id)

namespace Mutexd

variable {Id Co : Type} [DecidableEq Id] [DecidableEq Co] (s : Mutexd Id Co)

def setThreadQueue (id : Id) (queue : Option (Queue Co)) : Mutexd Id Co :=
  { s with threadQueue := Function.update s.threadQueue id queue }

def setBatchQueue (id : Id) (threads : Option (List Co)) : Mutexd Id Co :=
  { s with batchQueue := Function.update s.batchQueue id threads }

def setWaiting (co : Co) (wait : Option (Nat × Nat)) : Mutexd Id Co :=
  { s with waiting := Function.update s.waiting co wait }

def ask (wish : Wish Id) : Mutexd Id Co := { s with asked := s.asked ++ [wish] }

omit [DecidableEq Id] in
@[simp] theorem setWaiting_self (co : Co) (wait : Option (Nat × Nat)) :
    (s.setWaiting co wait).waiting co = wait := Function.update_self ..

omit [DecidableEq Id] in
theorem setWaiting_of_ne {co w : Co} (apart : w ≠ co) (wait : Option (Nat × Nat)) :
    (s.setWaiting co wait).waiting w = s.waiting w := Function.update_of_ne apart ..

def grant (t : Nat) : Mutexd Id Co := { s with granted := s.granted ++ [t] }

def giveBack (t : Nat) (x : Name Id) : Mutexd Id Co := { s with released := (t, x) :: s.released }

/-- `aquire`, until it waits or returns. -/
def aquire (co : Co) (id : Id) : Mutexd Id Co :=
  let queue := (s.threadQueue id).getD ⟨[], co⟩
  if co ≠ queue.currentThread then
    ((s.ask (.aquire id)).setThreadQueue id
      (some { queue with threads := queue.threads ++ [co] })).setWaiting co
        (some (s.asked.length, 1))
  else
    ((s.ask (.aquire id)).setThreadQueue id (some { queue with currentThread := co })).grant
      s.asked.length

/-- `skynet.wakeup` of a coroutine, as far as it sleeps. -/
def wakeup (co : Co) : List Co := if (s.waiting co).isSome then [co] else []

/-- `release`, and whom it wakes. -/
def release (t : Nat) (id : Id) : Mutexd Id Co × List Co :=
  match s.threadQueue id with
  | none => (s.giveBack t (.single id), [])
  | some ⟨co :: threads, current⟩ =>
      ((s.giveBack t (.single id)).setThreadQueue id (some ⟨threads, current⟩), s.wakeup co)
  | some ⟨[], _⟩ => ((s.giveBack t (.single id)).setThreadQueue id none, [])

/-- The loop of `aquire_batch`, with `wait`. -/
def joinBatch (co : Co) : List Id → Mutexd Id Co → Nat → Mutexd Id Co × Nat
  | [], s, wait => (s, wait)
  | id :: ids, s, wait =>
      match s.batchQueue id with
      | none => joinBatch co ids (s.setBatchQueue id (some [])) wait
      | some threads => joinBatch co ids (s.setBatchQueue id (some (threads ++ [co]))) (wait + 1)

def aquireBatch (co : Co) (ids : List Id) : Mutexd Id Co :=
  let joined := joinBatch co ids (s.ask (.aquireBatch ids)) 0
  if joined.2 = 0 then joined.1.grant s.asked.length
  else joined.1.setWaiting co (some (s.asked.length, joined.2))

/-- `release_batch`, and whom it wakes. -/
def releaseBatch (t : Nat) : List Id → Mutexd Id Co → List Co → Mutexd Id Co × List Co
  | [], s, woken => (s, woken)
  | id :: ids, s, woken =>
      match s.batchQueue id with
      -- the assertion
      | none => (s, woken)
      | some (co :: threads) =>
          releaseBatch t ids ((s.giveBack t (.batch id)).setBatchQueue id (some threads))
            (woken ++ s.wakeup co)
      | some [] => releaseBatch t ids ((s.giveBack t (.batch id)).setBatchQueue id none) woken

/-- `queue.current_thread = co`, after the wait of `aquire`. -/
def become (co : Co) : Option (Wish Id) → Mutexd Id Co
  | some (.aquire id) =>
      s.setThreadQueue id ((s.threadQueue id).map fun queue => { queue with currentThread := co })
  | _ => s

/-- A coroutine goes on after one of its waits. -/
def resume (co : Co) : Mutexd Id Co :=
  match s.waiting co with
  | none => s
  | some (t, wait) =>
      if wait = 1 then ((s.become co s.asked[t]?).setWaiting co none).grant t
      else s.setWaiting co (some (t, wait - 1))

def dispatchWakeup (woken : List Co) : Mutexd Id Co := woken.foldl resume s

def namesOf (t : Nat) : List (Name Id) := (s.asked[t]?).elim [] Wish.names

def Wants (t : Nat) (x : Name Id) : Prop := x ∈ s.namesOf t

def Gone (t : Nat) (x : Name Id) : Prop := (t, x) ∈ s.released

/-- The request has been let in and has not given the name back. -/
def Holds (t : Nat) (x : Name Id) : Prop := t ∈ s.granted ∧ s.Wants t x ∧ ¬ s.Gone t x

instance (t : Nat) (x : Name Id) : Decidable (s.Wants t x) :=
  inferInstanceAs (Decidable (x ∈ s.namesOf t))

instance (t : Nat) (x : Name Id) : Decidable (s.Gone t x) :=
  inferInstanceAs (Decidable ((t, x) ∈ s.released))

instance (t : Nat) (x : Name Id) : Decidable (s.Holds t x) :=
  inferInstanceAs (Decidable (t ∈ s.granted ∧ s.Wants t x ∧ ¬ s.Gone t x))

/-- A message for the service, which an idle coroutine handles. Clients release what they hold,
the names of a batch together or one by one. -/
inductive Event (Id Co : Type)
  | aquire (co : Co) (id : Id)
  | release (t : Nat) (id : Id)
  | aquireBatch (co : Co) (ids : List Id)
  | releaseBatch (t : Nat) (ids : List Id)

def step : Event Id Co → Option (Mutexd Id Co)
  | .aquire co id => if s.waiting co = none then some (s.aquire co id) else none
  | .aquireBatch co ids => if s.waiting co = none then some (s.aquireBatch co ids) else none
  | .release t id =>
      if s.Holds t (.single id) then
        some ((s.release t id).1.dispatchWakeup (s.release t id).2)
      else none
  | .releaseBatch t ids =>
      if ids.Nodup ∧ ∀ id ∈ ids, s.Holds t (.batch id) then
        some ((releaseBatch t ids s []).1.dispatchWakeup (releaseBatch t ids s []).2)
      else none

def start : Mutexd Id Co := ⟨fun _ => none, fun _ => none, fun _ => none, [], [], []⟩

/-! ### What the requests do to the lines of the names -/

def queue : Name Id → Option (List Co)
  | .single id => (s.threadQueue id).map Queue.threads
  | .batch id => s.batchQueue id

/-- Whether a coroutine stands in the queue of a name. -/
def Behind (co : Co) (x : Name Id) : Prop := co ∈ (s.queue x).getD []

instance (co : Co) (x : Name Id) : Decidable (s.Behind co x) :=
  inferInstanceAs (Decidable (co ∈ (s.queue x).getD []))

/-- The queue of a name after a coroutine has joined: it is the first if there is none. -/
def joined (co : Co) (queue : Option (List Co)) : List Co :=
  queue.elim [] fun threads => threads ++ [co]

omit [DecidableEq Co] in
@[simp] theorem joined_none (co : Co) : joined co none = [] := rfl

omit [DecidableEq Co] in
@[simp] theorem joined_some (co : Co) (threads : List Co) :
    joined co (some threads) = threads ++ [co] := rfl

/-- The names of a request that are taken. -/
def taken (names : List (Name Id)) : Nat := names.countP fun x => (s.queue x).isSome

/-- A request joins the lines of all its names at once. -/
structure Joins (s s' : Mutexd Id Co) (co : Co) (wish : Wish Id) : Prop where
  asked : s'.asked = s.asked ++ [wish]
  released : s'.released = s.released
  queue : ∀ x, s'.queue x = if x ∈ wish.names then some (joined co (s.queue x)) else s.queue x
  waiting : s'.waiting = if s.taken wish.names = 0 then s.waiting
    else Function.update s.waiting co (some (s.asked.length, s.taken wish.names))
  granted : s'.granted = if s.taken wish.names = 0 then s.granted ++ [s.asked.length]
    else s.granted

/-- A request is let in after its last wait. -/
structure LetsIn (s s' : Mutexd Id Co) (co : Co) (t : Nat) : Prop where
  asked : s'.asked = s.asked
  released : s'.released = s.released
  queue : ∀ x, s'.queue x = s.queue x
  waiting : s'.waiting = Function.update s.waiting co none
  granted : s'.granted = s.granted ++ [t]

/-- A name is given back, and the next in its queue is at the front. -/
structure Leaves (s s' : Mutexd Id Co) (t : Nat) (x : Name Id) : Prop where
  asked : s'.asked = s.asked
  granted : s'.granted = s.granted
  waiting : s'.waiting = s.waiting
  released : s'.released = (t, x) :: s.released
  queue : ∀ y, s'.queue y = if y = x then
    (s.queue x).bind fun threads => threads.head?.map fun _ => threads.tail else s.queue y

variable {s} {co : Co}

theorem aquire_joins {id : Id}
    (other : ∀ queue, s.threadQueue id = some queue → co ≠ queue.currentThread) :
    s.Joins (s.aquire co id) co (.aquire id) := by
  have away : ∀ (s' : Mutexd Id Co) x, x ∉ (Wish.aquire id).names →
      s'.batchQueue = s.batchQueue → (∀ i, i ≠ id → s'.threadQueue i = s.threadQueue i) →
      s'.queue x = s.queue x := by
    intro s' x out batch single
    cases x with
    | single i =>
        have apart : i ≠ id := fun same => out (by simp [Wish.names, same])
        simp [Mutexd.queue, single i apart]
    | batch i => simp [Mutexd.queue, batch]
  have mine : ∀ x, x ∈ (Wish.aquire id).names → x = .single id := fun x => List.mem_singleton.1
  cases at_ : s.threadQueue id with
  | none =>
      have free : s.taken (Wish.aquire id).names = 0 := by
        simp [taken, Wish.names, Mutexd.queue, at_]
      have out : s.aquire co id = { s with
          threadQueue := Function.update s.threadQueue id (some ⟨[], co⟩)
          asked := s.asked ++ [.aquire id]
          granted := s.granted ++ [s.asked.length] } := by
        simp [Mutexd.aquire, at_, ask, setThreadQueue, grant]
      rw [out]
      refine ⟨rfl, rfl, fun x => ?_, (if_pos free).symm, (if_pos free).symm⟩
      split
      · rename_i member
        simp [mine x member, Mutexd.queue, at_]
      · rename_i member
        exact away _ x member rfl fun i apart => Function.update_of_ne apart ..
  | some queue =>
      have apart := other queue at_
      have busy : s.taken (Wish.aquire id).names = 1 := by
        simp [taken, Wish.names, Mutexd.queue, at_]
      have out : s.aquire co id = { s with
          threadQueue := Function.update s.threadQueue id
            (some { queue with threads := queue.threads ++ [co] })
          asked := s.asked ++ [.aquire id]
          waiting := Function.update s.waiting co (some (s.asked.length, 1)) } := by
        simp [Mutexd.aquire, at_, apart, ask, setThreadQueue, setWaiting]
      rw [out]
      refine ⟨rfl, rfl, fun x => ?_, by simp [busy], by simp [busy]⟩
      split
      · rename_i member
        simp [mine x member, Mutexd.queue, at_]
      · rename_i member
        exact away _ x member rfl fun i apart => Function.update_of_ne apart ..

omit [DecidableEq Co] in
/-- What the loop of `aquire_batch` has done at its end. -/
theorem joinBatch_spec (ids : List Id) (nodup : ids.Nodup) (s : Mutexd Id Co) (wait : Nat) :
    joinBatch co ids s wait =
      ({ s with
        batchQueue := fun id =>
          if id ∈ ids then some (joined co (s.batchQueue id)) else s.batchQueue id },
        wait + ids.countP fun id => (s.batchQueue id).isSome) := by
  induction ids generalizing s wait with
  | nil => simp [joinBatch]
  | cons id ids ih =>
      obtain ⟨new, nodup⟩ := List.nodup_cons.1 nodup
      have rest : ∀ threads, (ids.countP fun i =>
          (Function.update s.batchQueue id threads i).isSome) =
            ids.countP fun i => (s.batchQueue i).isSome := by
        intro threads
        refine List.countP_congr fun i member => ?_
        rw [Function.update_of_ne fun same : i = id => new (same ▸ member)]
      have table : ∀ threads, (fun i => if i ∈ ids then
          some (joined co (Function.update s.batchQueue id threads i))
          else Function.update s.batchQueue id threads i) =
            fun i => if i = id then threads else
              if i ∈ ids then some (joined co (s.batchQueue i)) else s.batchQueue i := by
        intro threads
        funext i
        by_cases same : i = id
        · simp [same, new]
        · simp [same]
      rw [joinBatch]
      cases at_ : s.batchQueue id with
      | none =>
          simp only [setBatchQueue, ih nodup, rest, table, List.countP_cons, at_]
          simp only [Option.isSome_none, Bool.false_eq_true, if_false, Nat.add_zero, Prod.mk.injEq,
            and_true, Mutexd.mk.injEq, true_and]
          funext i
          by_cases same : i = id
          · simp [same, at_]
          · simp [same]
      | some threads =>
          simp only [setBatchQueue, ih nodup, rest, table, List.countP_cons, at_]
          simp only [Option.isSome_some, if_true, Prod.mk.injEq, Mutexd.mk.injEq, true_and,
            and_true]
          refine ⟨?_, by omega⟩
          funext i
          by_cases same : i = id
          · simp [same, at_]
          · simp [same]

theorem aquireBatch_joins {ids : List Id} (nodup : ids.Nodup) :
    s.Joins (s.aquireBatch co ids) co (.aquireBatch ids) := by
  have count : (ids.countP fun id => (s.batchQueue id).isSome) =
      s.taken (Wish.aquireBatch ids).names := by
    rw [taken, Wish.names, List.countP_map]
    rfl
  have look : ∀ x, (if x ∈ (Wish.aquireBatch ids).names then
      some (joined co (s.queue x)) else s.queue x) =
        match x with
        | .single id => s.queue (.single id)
        | .batch id =>
            if id ∈ ids then some (joined co (s.batchQueue id)) else s.batchQueue id := by
    intro x
    cases x with
    | single id => simp [Wish.names]
    | batch id => simp [Wish.names, Mutexd.queue]
  by_cases free : s.taken (Wish.aquireBatch ids).names = 0
  · have out : s.aquireBatch co ids = { s with
        batchQueue := fun id =>
          if id ∈ ids then some (joined co (s.batchQueue id)) else s.batchQueue id
        asked := s.asked ++ [.aquireBatch ids]
        granted := s.granted ++ [s.asked.length] } := by
      simp [Mutexd.aquireBatch, joinBatch_spec ids nodup, ask, count, free, grant]
    rw [out]
    refine ⟨rfl, rfl, fun x => ?_, (if_pos free).symm, (if_pos free).symm⟩
    rw [look]
    cases x with
    | single id => rfl
    | batch id => rfl
  · have out : s.aquireBatch co ids = { s with
        batchQueue := fun id =>
          if id ∈ ids then some (joined co (s.batchQueue id)) else s.batchQueue id
        asked := s.asked ++ [.aquireBatch ids]
        waiting := Function.update s.waiting co
          (some (s.asked.length, s.taken (Wish.aquireBatch ids).names)) } := by
      simp [Mutexd.aquireBatch, joinBatch_spec ids nodup, ask, count, free, setWaiting]
    rw [out]
    refine ⟨rfl, rfl, fun x => ?_, (if_neg free).symm, (if_neg free).symm⟩
    rw [look]
    cases x with
    | single id => rfl
    | batch id => rfl

omit [DecidableEq Co] in
/-- What one turn of `release` or `release_batch` does. -/
theorem release_leaves (s : Mutexd Id Co) (t : Nat) (id : Id) :
    s.Leaves (s.release t id).1 t (.single id) := by
  have queues : ∀ s' : Mutexd Id Co, s'.batchQueue = s.batchQueue →
      (∀ i, i ≠ id → s'.threadQueue i = s.threadQueue i) →
      ((s'.threadQueue id).map Queue.threads = ((s.threadQueue id).map Queue.threads).bind
        fun threads => threads.head?.map fun _ => threads.tail) →
      ∀ y, s'.queue y = if y = .single id then (s.queue (.single id)).bind fun threads =>
        threads.head?.map fun _ => threads.tail else s.queue y := by
    intro s' batch single own y
    cases y with
    | single i =>
        by_cases same : i = id
        · rw [if_pos (by rw [same]), same]
          exact own
        · rw [if_neg (by simp [same])]
          simp [Mutexd.queue, single i same]
    | batch i => simp [Mutexd.queue, batch]
  rw [release]
  split
  · rename_i at_
    refine ⟨rfl, rfl, rfl, rfl, queues _ rfl (fun _ _ => rfl) ?_⟩
    simp [giveBack, at_]
  · rename_i first threads current at_
    refine ⟨rfl, rfl, rfl, rfl, queues _ rfl (fun i apart => Function.update_of_ne apart ..) ?_⟩
    simp [giveBack, setThreadQueue, at_]
  · rename_i current at_
    refine ⟨rfl, rfl, rfl, rfl, queues _ rfl (fun i apart => Function.update_of_ne apart ..) ?_⟩
    simp [giveBack, setThreadQueue, at_]

/-- The new `current_thread` does not matter for the queues. -/
theorem become_letsIn (s : Mutexd Id Co) (co : Co) (wish : Option (Wish Id)) (t : Nat) :
    s.LetsIn (((s.become co wish).setWaiting co none).grant t) co t := by
  cases wish with
  | none => exact ⟨rfl, rfl, fun _ => rfl, rfl, rfl⟩
  | some wish =>
      cases wish with
      | aquireBatch ids => exact ⟨rfl, rfl, fun _ => rfl, rfl, rfl⟩
      | aquire id =>
          refine ⟨rfl, rfl, fun x => ?_, rfl, rfl⟩
          cases x with
          | batch i => rfl
          | single i =>
              by_cases same : i = id
              · simp only [same, queue, become, setThreadQueue, setWaiting, grant,
                  Function.update_self, Option.map_map]
                rfl
              · simp only [queue, become, setThreadQueue, setWaiting, grant,
                  Function.update_of_ne same]

/-! ### The lines -/

open Tickets

def ticket (s : Mutexd Id Co) (co : Co) : Nat := ((s.waiting co).map Prod.fst).getD 0

/-- Behind whoever has a name wait, in order, the tickets of the coroutines in its queue. -/
def Lined (s : Mutexd Id Co) (x : Name Id) : Option (List Co) → Prop
  | none => Line s.Wants s.Gone x []
  | some threads => (∃ first, Line s.Wants s.Gone x (first :: threads.map s.ticket)) ∧
      ∀ co ∈ threads, s.waiting co ≠ none

/-- The names in whose queue a coroutine stands. -/
def names (s : Mutexd Id Co) (t : Nat) (co : Co) : Finset (Name Id) :=
  (s.namesOf t).toFinset.filter (s.Behind co)

structure Sound (s : Mutexd Id Co) (woken : List Co) : Prop where
  line : ∀ x, s.Lined x (s.queue x)
  nodup : ∀ t, (s.namesOf t).Nodup
  /-- A coroutine waits for a wakeup for each queue it stands in. -/
  count : ∀ co t n, s.waiting co = some (t, n) →
    0 < n ∧ n = woken.count co + (s.names t co).card
  one : ∀ co co' t n n', s.waiting co = some (t, n) → s.waiting co' = some (t, n') → co = co'
  out : ∀ co t n, s.waiting co = some (t, n) → t < s.asked.length ∧ t ∉ s.granted
  served : ∀ t < s.asked.length, t ∉ s.granted → ∃ co n, s.waiting co = some (t, n)
  known : ∀ t ∈ s.granted, t < s.asked.length
  left : ∀ t x, s.Gone t x → t ∈ s.granted ∧ Front s.Wants s.Gone t x
  fair : InTurn s.Wants s.granted

variable {s' : Mutexd Id Co} {woken : List Co} {t : Nat} {x : Name Id}

omit [DecidableEq Id] [DecidableEq Co] in
theorem Wants.lt (h : s.Wants t x) : t < s.asked.length := by
  by_contra late
  rw [Mutexd.Wants, namesOf, List.getElem?_eq_none (by omega)] at h
  cases h

omit [DecidableEq Id] [DecidableEq Co] in
theorem ticket_of {n : Nat} (at_ : s.waiting co = some (t, n)) : s.ticket co = t := by
  rw [ticket, at_]
  rfl

theorem Sound.up {threads : List Co} (h : s.Sound woken) (at_ : s.queue x = some threads)
    {w : Co} (member : w ∈ threads) : s.waiting w ≠ none := by
  have line := h.line x
  rw [at_] at line
  exact line.2 w member

/-! ### A request arrives -/

section Join

variable {wish : Wish Id}

theorem Joins.namesOf (joins : s.Joins s' co wish) (t : Nat) :
    s'.namesOf t = if t = s.asked.length then wish.names else s.namesOf t := by
  rw [Mutexd.namesOf, joins.asked]
  split
  · rename_i last
    simp [last]
  · rename_i other
    rw [Mutexd.namesOf]
    cases Nat.lt_or_gt_of_ne other with
    | inl old => rw [List.getElem?_append_left old]
    | inr beyond =>
        rw [List.getElem?_eq_none (by simp; omega), List.getElem?_eq_none (by omega)]

theorem Joins.wants_last (joins : s.Joins s' co wish) (x : Name Id) :
    s'.Wants s.asked.length x ↔ x ∈ wish.names := by
  rw [Mutexd.Wants, joins.namesOf, if_pos rfl]

theorem Joins.wants_old (joins : s.Joins s' co wish) (old : t < s.asked.length) (x : Name Id) :
    s'.Wants t x ↔ s.Wants t x := by
  rw [Mutexd.Wants, joins.namesOf, if_neg (by omega), Mutexd.Wants]

theorem Joins.wants (joins : s.Joins s' co wish) (t : Nat) (x : Name Id) :
    s'.Wants t x ↔ s.Wants t x ∨ (t = s.asked.length ∧ x ∈ wish.names) := by
  by_cases last : t = s.asked.length
  · have none : ¬ s.Wants t x := fun old => absurd old.lt (by omega)
    rw [last, joins.wants_last]
    rw [last] at none
    simp [none]
  · rw [Mutexd.Wants, joins.namesOf, if_neg last]
    simp [Mutexd.Wants, last]

theorem Joins.gone (joins : s.Joins s' co wish) (t : Nat) (x : Name Id) :
    s'.Gone t x ↔ s.Gone t x := by
  rw [Mutexd.Gone, joins.released, Mutexd.Gone]

/-- Nobody who waits already is the one who joins. -/
theorem Joins.kept (joins : s.Joins s' co wish) {w : Co} (apart : w ≠ co) :
    s'.waiting w = s.waiting w := by
  rw [joins.waiting]
  split
  · rfl
  · exact Function.update_of_ne apart ..

theorem Joins.mine (joins : s.Joins s' co wish) (idle : s.waiting co = none) {n : Nat}
    (at_ : s'.waiting co = some (t, n)) :
    t = s.asked.length ∧ n = s.taken wish.names ∧ 0 < n := by
  rw [joins.waiting] at at_
  split at at_
  · rw [idle] at at_
    cases at_
  · rw [Function.update_self] at at_
    cases at_
    exact ⟨rfl, rfl, by omega⟩

theorem Sound.join_ready (h : s.Sound woken) (joins : s.Joins s' co wish)
    (free : s.taken wish.names = 0) : Admitted s'.Wants s'.Gone s.asked.length := by
  intro x want t before want'
  have none : s.queue x = none := by
    have all := List.countP_eq_zero.1 free x ((joins.wants_last x).1 want)
    simpa using all
  have line := h.line x
  rw [none] at line
  rw [joins.gone]
  by_contra here
  exact List.not_mem_nil ((line.mem t).2 ⟨(joins.wants_old before x).1 want', here⟩)

theorem Sound.join_lined (h : s.Sound woken) (idle : s.waiting co = none)
    (joins : s.Joins s' co wish) (x : Name Id) : s'.Lined x (s'.queue x) := by
  have line := h.line x
  have others : ∀ threads, s.queue x = some threads → ∀ w ∈ threads, w ≠ co :=
    fun threads at_ w member same => h.up at_ member (same ▸ idle)
  have tickets : ∀ threads, s.queue x = some threads →
      threads.map s'.ticket = threads.map s.ticket := by
    intro threads at_
    refine List.map_congr_left fun w member => ?_
    rw [ticket, joins.kept (others threads at_ w member), ticket]
  rw [joins.queue]
  by_cases member : x ∈ wish.names
  · rw [if_pos member]
    have want : ∀ t, s'.Wants t x ↔ s.Wants t x ∨ t = s.asked.length := fun t => by
      rw [joins.wants]
      simp [member]
    have new : ¬ s.Gone s.asked.length x := fun out =>
      absurd (h.known _ (h.left _ x out).1) (Nat.lt_irrefl _)
    have longer : ∀ l, Line s.Wants s.Gone x l →
        Line s'.Wants s'.Gone x (l ++ [s.asked.length]) := by
      intro l line
      have last : ∀ t ∈ l, t < s.asked.length := fun t inside => ((line.mem t).1 inside).1.lt
      exact (line.join last want new).congr (fun _ => Iff.rfl) fun t => joins.gone t x
    cases at_ : s.queue x with
    | none =>
        rw [at_] at line
        exact ⟨⟨_, longer [] line⟩, nofun⟩
    | some threads =>
        rw [at_] at line
        obtain ⟨⟨first, line⟩, up⟩ := line
        have busy : s.taken wish.names ≠ 0 := fun free => by
          have all := List.countP_eq_zero.1 free x member
          rw [at_] at all
          exact all rfl
        have mine : s'.waiting co = some (s.asked.length, s.taken wish.names) := by
          rw [joins.waiting, if_neg busy, Function.update_self]
        refine ⟨⟨first, ?_⟩, fun w member => ?_⟩
        · rw [joined_some, List.map_append, tickets threads at_, List.map_singleton,
            ticket_of mine]
          exact longer _ line
        · cases List.mem_append.1 member with
          | inl old =>
              rw [joins.kept (others threads at_ w old)]
              exact up w old
          | inr new =>
              rw [List.mem_singleton.1 new, mine]
              exact Option.some_ne_none _
  · rw [if_neg member]
    have want : ∀ t, s'.Wants t x ↔ s.Wants t x := fun t => by
      rw [joins.wants]
      simp [member]
    cases at_ : s.queue x with
    | none =>
        rw [at_] at line
        exact line.congr want fun t => joins.gone t x
    | some threads =>
        rw [at_] at line
        refine ⟨?_, fun w inside => ?_⟩
        · rw [tickets threads at_]
          exact line.1.imp fun first line => line.congr want fun t => joins.gone t x
        · rw [joins.kept (others threads at_ w inside)]
          exact line.2 w inside

theorem Sound.join_count (h : s.Sound []) (idle : s.waiting co = none)
    (joins : s.Joins s' co wish) (nodup : wish.names.Nodup) {w : Co} {n : Nat}
    (at_ : s'.waiting w = some (t, n)) :
    0 < n ∧ n = [].count w + (s'.names t w).card := by
  by_cases same : w = co
  · rw [same] at at_ ⊢
    obtain ⟨last, all, some⟩ := joins.mine idle at_
    have own : s'.names s.asked.length co =
        wish.names.toFinset.filter fun x => (s.queue x).isSome := by
      rw [names, joins.namesOf, if_pos rfl]
      refine Finset.filter_congr fun x member => ?_
      rw [Behind, joins.queue, if_pos (List.mem_toFinset.1 member)]
      cases s.queue x with
      | none => simp
      | some threads => simp
    refine ⟨some, ?_⟩
    rw [last, own, all, taken, List.countP_eq_length_filter, ← List.toFinset_filter,
      List.toFinset_card_of_nodup (nodup.filter _)]
    simp
  · rw [joins.kept same] at at_
    have old := (h.out w t n at_).1
    have behind : s'.names t w = s.names t w := by
      rw [names, names, joins.namesOf, if_neg (by omega)]
      refine Finset.filter_congr fun x _ => ?_
      rw [Behind, Behind, joins.queue]
      split
      · cases s.queue x with
        | none => rfl
        | some threads => simp [same]
      · rfl
    rw [behind]
    exact h.count w t n at_

theorem Joins.mem_granted (joins : s.Joins s' co wish) (old : t ∈ s.granted) :
    t ∈ s'.granted := by
  rw [joins.granted]
  split
  · exact List.mem_append_left _ old
  · exact old

theorem Joins.granted_old (joins : s.Joins s' co wish) (member : t ∈ s'.granted) :
    t ∈ s.granted ∨ t = s.asked.length ∧ s.taken wish.names = 0 := by
  rw [joins.granted] at member
  split at member
  · rename_i free
    exact (List.mem_append.1 member).imp_right fun last => ⟨List.mem_singleton.1 last, free⟩
  · exact .inl member

theorem Joins.length (joins : s.Joins s' co wish) : s'.asked.length = s.asked.length + 1 := by
  rw [joins.asked, List.length_append, List.length_singleton]

theorem Sound.join_fair (h : s.Sound woken) (joins : s.Joins s' co wish) :
    InTurn s'.Wants s'.granted := by
  have old : InTurn s'.Wants s.granted := h.fair.mono fun t' member t less x want => by
    have known := h.known t' member
    exact (joins.wants_old (by omega) x).1 want
  rw [joins.granted]
  split
  · rename_i free
    refine old.snoc fun x want t before want' => ?_
    have out := h.join_ready joins free x want t before want'
    exact (h.left t x ((joins.gone t x).1 out)).1
  · exact old

/-- A request that finds its names free is let in; any other waits behind those before it. -/
theorem Sound.join (h : s.Sound []) (idle : s.waiting co = none) (joins : s.Joins s' co wish)
    (nodup : wish.names.Nodup) : s'.Sound [] where
  line := h.join_lined idle joins
  nodup t := by
    rw [joins.namesOf]
    split
    · exact nodup
    · exact h.nodup t
  count w t n at_ := h.join_count idle joins nodup at_
  one w w' t n n' at_ at_' := by
    by_cases same : w = co
    · by_cases same' : w' = co
      · rw [same, same']
      · rw [same] at at_
        rw [joins.kept same'] at at_'
        have old := (h.out w' t n' at_').1
        have last := (joins.mine idle at_).1
        omega
    · rw [joins.kept same] at at_
      by_cases same' : w' = co
      · rw [same'] at at_'
        have old := (h.out w t n at_).1
        have last := (joins.mine idle at_').1
        omega
      · rw [joins.kept same'] at at_'
        exact h.one w w' t n n' at_ at_'
  out w t n at_ := by
    rw [joins.length]
    by_cases same : w = co
    · rw [same] at at_
      obtain ⟨last, all, some⟩ := joins.mine idle at_
      refine ⟨by omega, fun member => ?_⟩
      cases joins.granted_old member with
      | inl old =>
          have known := h.known t old
          omega
      | inr free => omega
    · rw [joins.kept same] at at_
      obtain ⟨old, out⟩ := h.out w t n at_
      refine ⟨by omega, fun member => ?_⟩
      cases joins.granted_old member with
      | inl was => exact out was
      | inr last => omega
  served t known out := by
    rw [joins.length] at known
    by_cases last : t = s.asked.length
    · have busy : s.taken wish.names ≠ 0 := fun free =>
        out (by rw [joins.granted, if_pos free, last]; simp)
      exact ⟨co, _, by rw [joins.waiting, if_neg busy, Function.update_self, last]⟩
    · obtain ⟨w, n, at_⟩ := h.served t (by omega) fun was => out (joins.mem_granted was)
      have apart : w ≠ co := fun same => by
        rw [same, idle] at at_
        cases at_
      exact ⟨w, n, by rw [joins.kept apart, at_]⟩
  known t member := by
    rw [joins.length]
    cases joins.granted_old member with
    | inl old => exact Nat.lt_succ_of_lt (h.known t old)
    | inr last => omega
  left t x out := by
    have was := h.left t x ((joins.gone t x).1 out)
    have known := h.known t was.1
    refine ⟨joins.mem_granted was.1, fun t' before want => ?_⟩
    rw [joins.gone]
    exact was.2 t' before ((joins.wants_old (by omega) x).1 want)
  fair := h.join_fair joins

end Join

/-! ### A name is given back -/

section Leave

/-- Who holds a name is at the front of its line. -/
theorem Sound.front (h : s.Sound woken) (holds : s.Holds t x) : ∃ threads,
    s.queue x = some threads ∧ Line s.Wants s.Gone x (t :: threads.map s.ticket) := by
  have line := h.line x
  cases at_ : s.queue x with
  | none =>
      rw [at_] at line
      exact absurd ((line.mem t).2 holds.2) List.not_mem_nil
  | some threads =>
      rw [at_] at line
      obtain ⟨⟨first, line⟩, up⟩ := line
      cases List.mem_cons.1 ((line.mem t).2 holds.2) with
      | inl same => exact ⟨threads, rfl, same ▸ line⟩
      | inr queued =>
          obtain ⟨w, member, mine⟩ := List.mem_map.1 queued
          obtain ⟨⟨t', n⟩, at_⟩ := Option.ne_none_iff_exists'.1 (up w member)
          rw [ticket_of at_] at mine
          exact absurd holds.1 (mine ▸ (h.out w t' n at_).2)

omit [DecidableEq Co] in
theorem Leaves.wants (leaves : s.Leaves s' t x) : s'.Wants = s.Wants := by
  funext t' y
  rw [Mutexd.Wants, Mutexd.namesOf, leaves.asked, Mutexd.Wants, Mutexd.namesOf]

omit [DecidableEq Co] in
theorem Leaves.gone (leaves : s.Leaves s' t x) (t' : Nat) (y : Name Id) :
    s'.Gone t' y ↔ s.Gone t' y ∨ t' = t ∧ y = x := by
  rw [Mutexd.Gone, leaves.released, List.mem_cons, Prod.mk.injEq, Or.comm, Mutexd.Gone]

omit [DecidableEq Co] in
theorem Leaves.ticket (leaves : s.Leaves s' t x) : s'.ticket = s.ticket := by
  funext w
  rw [Mutexd.ticket, leaves.waiting, Mutexd.ticket]

theorem Sound.leave_lined (h : s.Sound woken) (leaves : s.Leaves s' t x) (holds : s.Holds t x)
    (y : Name Id) : s'.Lined y (s'.queue y) := by
  rw [leaves.queue]
  split
  · rename_i same
    rw [same]
    obtain ⟨threads, at_, line⟩ := h.front holds
    have shorter : Line s'.Wants s'.Gone x (threads.map s'.ticket) := by
      rw [leaves.wants, leaves.ticket]
      exact line.leave fun t' => by simp [leaves.gone]
    rw [at_]
    cases threads with
    | nil => exact shorter
    | cons co rest =>
        refine ⟨⟨_, shorter⟩, fun w member => ?_⟩
        rw [leaves.waiting]
        exact h.up at_ (List.mem_cons_of_mem _ member)
  · rename_i other
    have same : ∀ t', s'.Gone t' y ↔ s.Gone t' y := fun t' => by simp [leaves.gone, other]
    have line := h.line y
    cases at_ : s.queue y with
    | none =>
        rw [at_] at line
        rw [Lined, leaves.wants]
        exact line.congr (fun _ => Iff.rfl) same
    | some threads =>
        rw [at_] at line
        rw [Lined, leaves.wants, leaves.ticket, leaves.waiting]
        exact ⟨line.1.imp fun first line => line.congr (fun _ => Iff.rfl) same, line.2⟩

/-- One queue less and one wakeup more for the first, nothing for the others. -/
theorem Sound.leave_count (h : s.Sound woken) (leaves : s.Leaves s' t x) (holds : s.Holds t x)
    {w : Co} {t' n : Nat} (at_ : s'.waiting w = some (t', n)) :
    0 < n ∧ n = (woken ++ ((s.queue x).bind List.head?).toList).count w + (s'.names t' w).card := by
  rw [leaves.waiting] at at_
  obtain ⟨some, all⟩ := h.count w t' n at_
  obtain ⟨threads, queue, line⟩ := h.front holds
  have asked : s'.namesOf t' = s.namesOf t' := by rw [namesOf, leaves.asked, namesOf]
  have elsewhere : ∀ y, y ≠ x → (s'.Behind w y ↔ s.Behind w y) := fun y other => by
    rw [Behind, leaves.queue, if_neg other, Behind]
  refine ⟨some, ?_⟩
  rw [all, List.count_append, queue, Option.bind_some]
  by_cases first : threads.head? = Option.some w
  · obtain ⟨rest, cons⟩ : ∃ rest, threads = w :: rest := by
      cases threads with
      | nil => cases first
      | cons co rest =>
          cases first
          exact ⟨rest, rfl⟩
    rw [cons] at queue line first
    have before : s.Behind w x := by
      rw [Behind, queue]
      exact List.mem_cons_self
    have after : ¬ s'.Behind w x := by
      intro member
      rw [Behind, leaves.queue, if_pos rfl, queue] at member
      have twice := (List.pairwise_cons.1 line.sorted.of_cons).1 (s.ticket w)
        (List.mem_map_of_mem member)
      exact Nat.lt_irrefl _ twice
    have want : x ∈ (s.namesOf t').toFinset := by
      have member := ((line.mem (s.ticket w)).1 (by simp)).1
      rw [ticket_of at_] at member
      exact List.mem_toFinset.2 member
    have erased : s'.names t' w = (s.names t' w).erase x := by
      ext y
      rw [Finset.mem_erase, names, names, Finset.mem_filter, Finset.mem_filter, asked]
      by_cases same : y = x
      · simp [same, after]
      · simp [same, elsewhere y same]
    have inside : x ∈ s.names t' w := Finset.mem_filter.2 ⟨want, before⟩
    have some_ := Finset.card_pos.2 ⟨x, inside⟩
    rw [cons, erased, Finset.card_erase_of_mem inside]
    simp
    omega
  · have same : s'.names t' w = s.names t' w := by
      rw [names, names, asked]
      refine Finset.filter_congr fun y _ => ?_
      by_cases same : y = x
      · rw [same, Behind, Behind, leaves.queue, if_pos rfl, queue]
        cases threads with
        | nil => simp
        | cons co rest =>
            have apart : w ≠ co := fun same => first (by rw [same]; rfl)
            simp [apart]
      · exact elsewhere y same
    have none : threads.head?.toList.count w = 0 :=
      List.count_eq_zero.2 fun member => first (Option.mem_toList.1 member)
    rw [same, none, Nat.add_zero]

/-- Whoever holds a name gives it back. -/
theorem Sound.leave (h : s.Sound woken) (leaves : s.Leaves s' t x) (holds : s.Holds t x) :
    s'.Sound (woken ++ ((s.queue x).bind List.head?).toList) where
  line := h.leave_lined leaves holds
  nodup t' := by
    rw [namesOf, leaves.asked]
    exact h.nodup t'
  count w t' n at_ := h.leave_count leaves holds at_
  one := by
    rw [leaves.waiting]
    exact h.one
  out := by
    rw [leaves.waiting, leaves.asked, leaves.granted]
    exact h.out
  served := by
    rw [leaves.waiting, leaves.asked, leaves.granted]
    exact h.served
  known := by
    rw [leaves.asked, leaves.granted]
    exact h.known
  left t' y out := by
    rw [leaves.granted, leaves.wants]
    cases (leaves.gone t' y).1 out with
    | inl was =>
        obtain ⟨in_, before⟩ := h.left t' y was
        exact ⟨in_, fun t'' less want => (leaves.gone t'' y).2 (.inl (before t'' less want))⟩
    | inr now =>
        obtain ⟨threads, -, line⟩ := h.front holds
        rw [now.1, now.2]
        exact ⟨holds.1, fun t'' less want => (leaves.gone t'' x).2 (.inl (line.first t'' less want))⟩
  fair := by
    rw [leaves.wants, leaves.granted]
    exact h.fair

omit [DecidableEq Co] in
/-- Giving back one name leaves what else the request holds. -/
theorem Leaves.holds (leaves : s.Leaves s' t x) {t' : Nat} {y : Name Id} (holds : s.Holds t' y)
    (other : y ≠ x) : s'.Holds t' y := by
  refine ⟨?_, ?_, fun out => ?_⟩
  · rw [leaves.granted]
    exact holds.1
  · rw [leaves.wants]
    exact holds.2.1
  · cases (leaves.gone t' y).1 out with
    | inl was => exact holds.2.2 was
    | inr now => exact other now.2

end Leave

/-! ### Wakeups -/

section Wake

/-- A coroutine that waits for no more than this wakeup is at the front everywhere. -/
theorem Sound.resume_ready (h : s.Sound (co :: woken)) (at_ : s.waiting co = some (t, 1)) :
    (∀ y threads, s.queue y = some threads → co ∉ threads) ∧ Admitted s.Wants s.Gone t := by
  have all := (h.count co t 1 at_).2
  rw [List.count_cons_self] at all
  have none : s.names t co = ∅ := Finset.card_eq_zero.1 (by omega)
  have nowhere : ∀ y threads, s.queue y = some threads → co ∉ threads := by
    intro y threads queue member
    have line := h.line y
    rw [queue] at line
    obtain ⟨⟨first, line⟩, -⟩ := line
    have want := ((line.mem (s.ticket co)).1
      (List.mem_cons_of_mem _ (List.mem_map_of_mem member))).1
    rw [ticket_of at_] at want
    have inside : y ∈ s.names t co :=
      Finset.mem_filter.2 ⟨List.mem_toFinset.2 want, by rw [Behind, queue]; exact member⟩
    rw [none] at inside
    exact Finset.notMem_empty y inside
  refine ⟨nowhere, fun y want => ?_⟩
  have here : ¬ s.Gone t y := fun out => (h.out co t 1 at_).2 (h.left t y out).1
  have line := h.line y
  cases queue : s.queue y with
  | none =>
      rw [queue] at line
      exact absurd ((line.mem t).2 ⟨want, here⟩) List.not_mem_nil
  | some threads =>
      rw [queue] at line
      obtain ⟨⟨first, line⟩, up⟩ := line
      cases List.mem_cons.1 ((line.mem t).2 ⟨want, here⟩) with
      | inl same => exact (same ▸ line).first
      | inr queued =>
          obtain ⟨w, member, mine⟩ := List.mem_map.1 queued
          obtain ⟨⟨t', n⟩, at_'⟩ := Option.ne_none_iff_exists'.1 (up w member)
          rw [ticket_of at_'] at mine
          rw [mine] at at_'
          exact absurd member (h.one w co t n 1 at_' at_ ▸ nowhere y threads queue)

/-- Somebody is let in after its last wakeup. -/
theorem Sound.resume_last (h : s.Sound (co :: woken)) (at_ : s.waiting co = some (t, 1))
    (lets : s.LetsIn s' co t) : s'.Sound woken := by
  obtain ⟨nowhere, ready⟩ := h.resume_ready at_
  obtain ⟨known, new⟩ := h.out co t 1 at_
  have wants : s'.Wants = s.Wants := by
    funext t' y
    rw [Mutexd.Wants, namesOf, lets.asked, Mutexd.Wants, namesOf]
  have gone : s'.Gone = s.Gone := by
    funext t' y
    rw [Mutexd.Gone, lets.released, Mutexd.Gone]
  have kept : ∀ w, w ≠ co → s'.waiting w = s.waiting w := fun w apart => by
    rw [lets.waiting, Function.update_of_ne apart]
  have waits : ∀ w t' n, s'.waiting w = some (t', n) → w ≠ co ∧ s.waiting w = some (t', n) := by
    intro w t' n at_'
    by_cases same : w = co
    · rw [same, lets.waiting, Function.update_self] at at_'
      cases at_'
    · rw [kept w same] at at_'
      exact ⟨same, at_'⟩
  refine ⟨fun y => ?_, fun t' => ?_, ?_, ?_, ?_, ?_, ?_, ?_, ?_⟩
  · have line := h.line y
    rw [lets.queue]
    cases queue : s.queue y with
    | none =>
        rw [queue] at line
        rw [Lined, wants, gone]
        exact line
    | some threads =>
        rw [queue] at line
        have apart : ∀ w ∈ threads, w ≠ co := fun w member same =>
          nowhere y threads queue (same ▸ member)
        have tickets : threads.map s'.ticket = threads.map s.ticket :=
          List.map_congr_left fun w member => by rw [ticket, kept w (apart w member), ticket]
        rw [Lined, wants, gone, tickets]
        refine ⟨line.1, fun w member => ?_⟩
        rw [kept w (apart w member)]
        exact line.2 w member
  · rw [namesOf, lets.asked]
    exact h.nodup t'
  · intro w t' n at_'
    obtain ⟨apart, was⟩ := waits w t' n at_'
    have count := h.count w t' n was
    have same : s'.names t' w = s.names t' w := by
      rw [names, names, namesOf, lets.asked]
      exact Finset.filter_congr fun y _ => by rw [Behind, lets.queue, Behind]
    rw [List.count_cons_of_ne (Ne.symm apart)] at count
    rw [same]
    exact count
  · intro w w' t' n n' at_' at_''
    exact h.one w w' t' n n' (waits w t' n at_').2 (waits w' t' n' at_'').2
  · intro w t' n at_'
    obtain ⟨apart, was⟩ := waits w t' n at_'
    obtain ⟨known', out⟩ := h.out w t' n was
    rw [lets.asked, lets.granted]
    refine ⟨known', fun member => ?_⟩
    cases List.mem_append.1 member with
    | inl old => exact out old
    | inr last =>
        rw [List.mem_singleton.1 last] at was
        exact apart (h.one w co t n 1 was at_)
  · intro t' known' out
    rw [lets.asked] at known'
    rw [lets.granted] at out
    obtain ⟨w, n, was⟩ := h.served t' known' fun old => out (List.mem_append_left _ old)
    have apart : w ≠ co := fun same => by
      rw [same, at_] at was
      cases was
      exact out (List.mem_append_right _ (List.mem_singleton.2 rfl))
    exact ⟨w, n, by rw [kept w apart, was]⟩
  · intro t' member
    rw [lets.asked]
    rw [lets.granted] at member
    cases List.mem_append.1 member with
    | inl old => exact h.known t' old
    | inr last => exact List.mem_singleton.1 last ▸ known
  · intro t' y out
    rw [gone] at out
    obtain ⟨old, before⟩ := h.left t' y out
    rw [lets.granted, wants, gone]
    exact ⟨List.mem_append_left _ old, before⟩
  · rw [lets.granted, wants]
    exact h.fair.snoc fun y want t' before want' => (h.left t' y (ready y want t' before want')).1

/-- Somebody waits for one wakeup less. -/
theorem Sound.resume_more (h : s.Sound (co :: woken)) {n : Nat} (at_ : s.waiting co = some (t, n))
    (more : n ≠ 1) : (s.setWaiting co (some (t, n - 1))).Sound woken := by
  have ticket : (s.setWaiting co (some (t, n - 1))).ticket = s.ticket := by
    funext w
    by_cases same : w = co
    · rw [same, Mutexd.ticket, setWaiting_self, Mutexd.ticket, at_]
      rfl
    · rw [Mutexd.ticket, setWaiting_of_ne _ same, Mutexd.ticket]
  have waits : ∀ w t' n', (s.setWaiting co (some (t, n - 1))).waiting w = some (t', n') →
      ∃ n'', s.waiting w = some (t', n'') ∧ (if w = co then n'' = n' + 1 ∧ n'' ≠ 1 else n'' = n') := by
    intro w t' n' at_'
    have some_ := (h.count co t n at_).1
    by_cases same : w = co
    · rw [same, setWaiting_self] at at_'
      cases at_'
      exact ⟨n, by rw [same, at_], by rw [if_pos same]; omega⟩
    · rw [setWaiting_of_ne _ same] at at_'
      exact ⟨n', at_', by rw [if_neg same]⟩
  refine ⟨fun y => ?_, h.nodup, ?_, ?_, ?_, ?_, h.known, h.left, h.fair⟩
  · have line := h.line y
    show Lined _ y (s.queue y)
    cases queue : s.queue y with
    | none =>
        rw [queue] at line
        exact line
    | some threads =>
        rw [queue] at line
        refine ⟨?_, fun w member => ?_⟩
        · rw [ticket]
          exact line.1
        · by_cases same : w = co
          · rw [same, setWaiting_self]
            exact Option.some_ne_none _
          · rw [setWaiting_of_ne _ same]
            exact line.2 w member
  · intro w t' n' at_'
    obtain ⟨n'', was, less⟩ := waits w t' n' at_'
    have count := h.count w t' n'' was
    show 0 < n' ∧ n' = woken.count w + (s.names t' w).card
    by_cases same : w = co
    · rw [if_pos same] at less
      rw [same, List.count_cons_self] at count
      rw [same]
      omega
    · rw [if_neg same] at less
      rw [List.count_cons_of_ne (Ne.symm same)] at count
      omega
  · intro w w' t' n₁ n₂ at_₁ at_₂
    obtain ⟨_, was₁, -⟩ := waits w t' n₁ at_₁
    obtain ⟨_, was₂, -⟩ := waits w' t' n₂ at_₂
    exact h.one w w' t' _ _ was₁ was₂
  · intro w t' n' at_'
    obtain ⟨n'', was, -⟩ := waits w t' n' at_'
    exact h.out w t' n'' was
  · intro t' known out
    obtain ⟨w, n', was⟩ := h.served t' known out
    by_cases same : w = co
    · rw [same, at_] at was
      cases was
      exact ⟨co, n - 1, by rw [setWaiting_self]⟩
    · exact ⟨w, n', by rw [setWaiting_of_ne _ same, was]⟩

theorem Sound.resume (h : s.Sound (co :: woken)) : (s.resume co).Sound woken := by
  rw [Mutexd.resume]
  split
  · rename_i idle
    refine ⟨h.line, h.nodup, fun w t' n at_ => ?_, h.one, h.out, h.served, h.known, h.left, h.fair⟩
    have apart : w ≠ co := fun same => by
      rw [same, idle] at at_
      cases at_
    have count := h.count w t' n at_
    rw [List.count_cons_of_ne (Ne.symm apart)] at count
    exact count
  · rename_i t wait at_
    split
    · rename_i last
      rw [last] at at_
      exact h.resume_last at_ (become_letsIn s co _ t)
    · rename_i more
      exact h.resume_more at_ more

theorem Sound.dispatchWakeup (h : s.Sound woken) : (s.dispatchWakeup woken).Sound [] := by
  induction woken generalizing s with
  | nil => exact h
  | cons co rest ih => exact ih h.resume

end Wake

/-! ### Every run -/

theorem Sound.wakeup (h : s.Sound woken) {first : Co} {rest : List Co}
    (at_ : s.queue x = some (first :: rest)) : s.wakeup first = [first] := by
  have up := h.up at_ List.mem_cons_self
  rw [Mutexd.wakeup, if_pos (Option.isSome_iff_ne_none.2 up)]

theorem Sound.release {id : Id} (h : s.Sound []) (holds : s.Holds t (.single id)) :
    (s.release t id).1.Sound (s.release t id).2 := by
  have left := h.leave (release_leaves s t id) holds
  have woken : (s.release t id).2 = ((s.queue (.single id)).bind List.head?).toList := by
    rw [Mutexd.release]
    split
    · rename_i at_
      simp [queue, at_]
    · rename_i first threads current at_
      have queued : s.queue (.single id) = some (first :: threads) := by simp [queue, at_]
      simp [queued, h.wakeup queued]
    · rename_i current at_
      simp [queue, at_]
  rw [woken]
  exact left

omit [DecidableEq Co] in
/-- One turn of the loop of `release_batch`. -/
theorem batch_leaves {id : Id} (s : Mutexd Id Co) (t : Nat) (threads : Option (List Co))
    (next : threads = (s.batchQueue id).bind fun all => all.head?.map fun _ => all.tail) :
    s.Leaves ((s.giveBack t (.batch id)).setBatchQueue id threads) t (.batch id) := by
  refine ⟨rfl, rfl, rfl, rfl, fun y => ?_⟩
  cases y with
  | single i => simp [queue, giveBack, setBatchQueue]
  | batch i =>
      by_cases same : i = id
      · simp [queue, setBatchQueue, same, next]
      · simp [queue, setBatchQueue, giveBack, same]

theorem Sound.releaseBatch (ids : List Id) (nodup : ids.Nodup) (h : s.Sound woken)
    (holds : ∀ id ∈ ids, s.Holds t (.batch id)) :
    (releaseBatch t ids s woken).1.Sound (releaseBatch t ids s woken).2 := by
  induction ids generalizing s woken with
  | nil => exact h
  | cons id ids ih =>
      obtain ⟨new, nodup⟩ := List.nodup_cons.1 nodup
      have mine := holds id List.mem_cons_self
      obtain ⟨threads, at_, -⟩ := h.front mine
      have table : s.batchQueue id = some threads := at_
      have keeps : ∀ s' : Mutexd Id Co, s.Leaves s' t (.batch id) →
          ∀ i ∈ ids, s'.Holds t (.batch i) := by
        intro s' leaves i member
        refine leaves.holds (holds i (List.mem_cons_of_mem _ member)) fun same => ?_
        exact new (Name.batch.inj same ▸ member)
      rw [Mutexd.releaseBatch, table]
      cases threads with
      | nil =>
          have leaves := batch_leaves s t none (by rw [table]; rfl)
          have left := h.leave leaves mine
          rw [at_] at left
          exact ih nodup (by simpa using left) (keeps _ leaves)
      | cons first rest =>
          have leaves := batch_leaves s t (some rest) (by rw [table]; rfl)
          have left := h.leave leaves mine
          rw [at_] at left
          simp only [h.wakeup at_]
          exact ih nodup left (keeps _ leaves)

/-- The guard: a single name is not asked for by the coroutine that was let in last, and no batch
names an id twice. -/
def Apart (s : Mutexd Id Co) : Event Id Co → Prop
  | .aquire co id => ∀ queue, s.threadQueue id = some queue → co ≠ queue.currentThread
  | .aquireBatch _ ids => ids.Nodup
  | _ => True

theorem Sound.step {event : Event Id Co} (h : s.Sound []) (guard : s.Apart event)
    (moved : s.step event = some s') : s'.Sound [] := by
  cases event with
  | aquire co id =>
      rw [Mutexd.step] at moved
      split at moved
      · rename_i idle
        cases moved
        exact h.join idle (aquire_joins guard) (List.nodup_singleton _)
      · cases moved
  | release t id =>
      rw [Mutexd.step] at moved
      split at moved
      · rename_i holds
        cases moved
        exact (h.release holds).dispatchWakeup
      · cases moved
  | aquireBatch co ids =>
      rw [Mutexd.step] at moved
      split at moved
      · rename_i idle
        cases moved
        have distinct : ids.Nodup := guard
        exact h.join idle (aquireBatch_joins distinct)
          (distinct.map fun _ _ same => Name.batch.inj same)
      · cases moved
  | releaseBatch t ids =>
      rw [Mutexd.step] at moved
      split at moved
      · rename_i holds
        cases moved
        exact (h.releaseBatch ids holds.1 holds.2).dispatchWakeup
      · cases moved

theorem start_sound : (start : Mutexd Id Co).Sound [] where
  line x := by
    have none : (start : Mutexd Id Co).queue x = .none := by cases x <;> rfl
    rw [none]
    exact ⟨List.Pairwise.nil, fun t => ⟨nofun, fun wants => absurd wants.1.lt (Nat.not_lt_zero t)⟩⟩
  nodup _ := List.nodup_nil
  count := nofun
  one := nofun
  out := nofun
  served := nofun
  known := nofun
  left := nofun
  fair := nofun

/-- What the service promises in every state. -/
structure Grants (s : Mutexd Id Co) : Prop where
  alone : ∀ x t t', s.Holds t x → s.Holds t' x → t = t'
  /-- Who wants the same is let in in the order of the requests. -/
  fair : InTurn s.Wants s.granted
  /-- What somebody holds is locked in the tables. -/
  locked : ∀ x t, s.Holds t x → (s.queue x).isSome
  /-- Whoever is not let in waits for a name that an earlier request has not given back. -/
  waits : ∀ t < s.asked.length, t ∉ s.granted →
    ∃ t' < t, ∃ x, s.Wants t x ∧ s.Wants t' x ∧ ¬ s.Gone t' x

theorem Sound.grants (h : s.Sound []) : s.Grants where
  alone x t t' holds holds' := by
    obtain ⟨_, -, line⟩ := h.front holds
    obtain ⟨_, -, line'⟩ := h.front holds'
    exact line.first.alone line'.first holds.2.1 holds'.2.1 holds.2.2 holds'.2.2
  fair := h.fair
  locked x t holds := by
    obtain ⟨threads, at_, -⟩ := h.front holds
    rw [at_]
    rfl
  waits t known out := by
    obtain ⟨co, n, at_⟩ := h.served t known out
    obtain ⟨some, all⟩ := h.count co t n at_
    rw [List.count_nil, Nat.zero_add] at all
    obtain ⟨x, member⟩ := Finset.card_pos.1 (all ▸ some)
    obtain ⟨want, behind⟩ := Finset.mem_filter.1 member
    rw [Behind] at behind
    cases queue : s.queue x with
    | none =>
        rw [queue] at behind
        exact absurd behind List.not_mem_nil
    | some threads =>
        rw [queue] at behind
        have line := h.line x
        rw [queue] at line
        obtain ⟨⟨first, line⟩, -⟩ := line
        have ahead := line.behind (List.mem_map_of_mem behind)
        rw [ticket_of at_] at ahead
        exact ⟨first, ahead.1, x, List.mem_toFinset.1 want, ahead.2⟩

/-- Nothing of the history is taken back. -/
structure Later (s s' : Mutexd Id Co) : Prop where
  asked : s.asked <+: s'.asked
  granted : ∀ t ∈ s.granted, t ∈ s'.granted
  released : ∀ p ∈ s.released, p ∈ s'.released

omit [DecidableEq Id] [DecidableEq Co] in
theorem Later.refl (s : Mutexd Id Co) : s.Later s :=
  ⟨List.prefix_refl _, fun _ => id, fun _ => id⟩

omit [DecidableEq Id] [DecidableEq Co] in
theorem Later.trans {s₁ s₂ s₃ : Mutexd Id Co} (h : s₁.Later s₂) (h' : s₂.Later s₃) :
    s₁.Later s₃ where
  asked := h.asked.trans h'.asked
  granted t member := h'.granted t (h.granted t member)
  released p member := h'.released p (h.released p member)

omit [DecidableEq Id] [DecidableEq Co] in
theorem Later.wants (h : s.Later s') (known : t < s.asked.length) (x : Name Id) :
    s'.Wants t x ↔ s.Wants t x := by
  obtain ⟨rest, all⟩ := h.asked
  rw [Mutexd.Wants, namesOf, ← all, List.getElem?_append_left known, Mutexd.Wants, namesOf]

theorem Joins.later {wish : Wish Id} (joins : s.Joins s' co wish) : s.Later s' where
  asked := joins.asked ▸ List.prefix_append _ _
  granted _ := joins.mem_granted
  released _ := joins.released ▸ id

omit [DecidableEq Id] in
theorem LetsIn.later (lets : s.LetsIn s' co t) : s.Later s' where
  asked := lets.asked ▸ List.prefix_refl _
  granted _ member := lets.granted ▸ List.mem_append_left _ member
  released _ := lets.released ▸ id

omit [DecidableEq Co] in
theorem Leaves.later (leaves : s.Leaves s' t x) : s.Later s' where
  asked := leaves.asked ▸ List.prefix_refl _
  granted _ := leaves.granted ▸ id
  released _ member := leaves.released ▸ List.mem_cons_of_mem _ member

theorem resume_later (s : Mutexd Id Co) (co : Co) : s.Later (s.resume co) := by
  rw [Mutexd.resume]
  split
  · exact .refl s
  · split
    · exact (become_letsIn s co _ _).later
    · exact ⟨List.prefix_refl _, fun _ => id, fun _ => id⟩

theorem dispatchWakeup_later (s : Mutexd Id Co) (woken : List Co) :
    s.Later (s.dispatchWakeup woken) := by
  induction woken generalizing s with
  | nil => exact .refl s
  | cons co rest ih => exact (resume_later s co).trans (ih (s.resume co))

omit [DecidableEq Co] in
theorem releaseBatch_later (t : Nat) (ids : List Id) (s : Mutexd Id Co) (woken : List Co) :
    s.Later (releaseBatch t ids s woken).1 := by
  induction ids generalizing s woken with
  | nil => exact .refl s
  | cons id ids ih =>
      rw [Mutexd.releaseBatch]
      split
      · exact .refl s
      · rename_i co threads at_
        exact (batch_leaves s t (some threads) (by rw [at_]; rfl)).later.trans (ih _ _)
      · rename_i at_
        exact (batch_leaves s t none (by rw [at_]; rfl)).later.trans (ih _ _)

theorem step_later {event : Event Id Co} (guard : s.Apart event)
    (moved : s.step event = some s') : s.Later s' := by
  cases event with
  | aquire co id =>
      rw [Mutexd.step] at moved
      split at moved
      · cases moved
        exact (aquire_joins guard).later
      · cases moved
  | release t id =>
      rw [Mutexd.step] at moved
      split at moved
      · cases moved
        exact (release_leaves s t id).later.trans (dispatchWakeup_later _ _)
      · cases moved
  | aquireBatch co ids =>
      rw [Mutexd.step] at moved
      split at moved
      · cases moved
        exact (aquireBatch_joins guard).later
      · cases moved
  | releaseBatch t ids =>
      rw [Mutexd.step] at moved
      split at moved
      · cases moved
        exact (releaseBatch_later t ids s []).trans (dispatchWakeup_later _ _)
      · cases moved

abbrev MutexReaches (ok : Mutexd Id Co → Event Id Co → Prop) : Mutexd Id Co → Prop :=
  Runs.Reaches (fun s => s = start) (fun s event s' => s.step event = some s') ok

theorem reached_sound (reached : MutexReaches Apart s) : s.Sound [] := by
  induction reached with
  | start begun => exact begun ▸ start_sound
  | next event _ guard moved sound => exact sound.step guard moved

abbrev MutexRun (ok : Mutexd Id Co → Event Id Co → Prop) : (Nat → Mutexd Id Co) → Prop :=
  Runs.Endless (fun s => s = start) (fun s event s' => s.step event = some s') ok

section Endless

variable {run : Nat → Mutexd Id Co} (goes : MutexRun Apart run)

include goes

theorem run_later {n m : Nat} (after : n ≤ m) : (run n).Later (run m) :=
  goes.later Later.refl (fun _ _ _ => Later.trans) (fun _ _ _ => step_later) after

/-- Where everything held is given back some time, so are all names of a request at once. -/
theorem all_gone (leaves : ∀ n t x, (run n).Holds t x → ∃ m ≥ n, (run m).Gone t x) {n t : Nat}
    (inside : t ∈ (run n).granted) : ∃ m ≥ n, ∀ x, (run m).Wants t x → (run m).Gone t x := by
  have known := (reached_sound (goes.reaches n)).known t inside
  have some_ : ∀ names : List (Name Id), (∀ x ∈ names, (run n).Wants t x) →
      ∃ m ≥ n, ∀ x ∈ names, (run m).Gone t x := by
    intro names wants
    induction names with
    | nil => exact ⟨n, le_refl n, nofun⟩
    | cons x names ih =>
        obtain ⟨m, after, gone⟩ := ih fun y member => wants y (List.mem_cons_of_mem _ member)
        have later := run_later goes after
        have want := (later.wants known x).2 (wants x List.mem_cons_self)
        obtain ⟨m', after', out⟩ : ∃ m' ≥ m, (run m').Gone t x := by
          by_cases out : (run m).Gone t x
          · exact ⟨m, le_refl m, out⟩
          · exact leaves m t x ⟨later.granted t inside, want, out⟩
        refine ⟨m', by omega, fun y member => ?_⟩
        cases List.mem_cons.1 member with
        | inl same => exact same ▸ out
        | inr old => exact (run_later goes after').released _ (gone y old)
  obtain ⟨m, after, gone⟩ := some_ ((run n).namesOf t) fun _ => id
  exact ⟨m, after, fun x want => gone x (((run_later goes after).wants known x).1 want)⟩

end Endless

/-- In every run in which requests for a name come from other coroutines than the last one let in,
and no batch names an id twice, the locks are exclusive and fair, and if every holder releases
some time, then everybody is let in some time. -/
theorem grants_all {run : Nat → Mutexd Id Co} (goes : MutexRun Apart run) :
    (∀ n, (run n).Grants) ∧
      ((∀ n t x, (run n).Holds t x → ∃ m ≥ n, (run m).Gone t x) →
        ∀ n, ∀ t < (run n).asked.length, ∃ m ≥ n, t ∈ (run m).granted) := by
  have sound := fun n => reached_sound (goes.reaches n)
  refine ⟨fun n => (sound n).grants, fun leaves n t asked => ?_⟩
  refine served (fun n t => t < (run n).asked.length) (fun n t => t ∈ (run n).granted)
    (fun n t => t < (run n).asked.length ∧ ∀ x, (run n).Wants t x → (run n).Gone t x)
    ?_ ?_ ?_ ?_ ?_ t n asked
  · intro n m t after asked
    exact lt_of_lt_of_le asked (run_later goes after).asked.length_le
  · intro n t t' before asked
    exact lt_trans before asked
  · rintro n m t after ⟨known, gone⟩
    have later := run_later goes after
    refine ⟨lt_of_lt_of_le known later.asked.length_le, fun x want => ?_⟩
    exact later.released _ (gone x ((later.wants known x).1 want))
  · intro n t asked out
    obtain ⟨t', before, x, -, want, here⟩ := (sound n).grants.waits t asked out
    exact ⟨t', before, fun done => here (done.2 x want)⟩
  · intro n t inside
    obtain ⟨m, after, gone⟩ := all_gone goes leaves inside
    have known := lt_of_lt_of_le ((sound n).known t inside) (run_later goes after).asked.length_le
    exact ⟨m, after, known, gone⟩

/-- Two clients ask for batches that share an id, and give them back. -/
def twoBatches : List (Event Nat Nat) :=
  [.aquireBatch 1 [0, 1], .aquireBatch 2 [1, 2], .releaseBatch 0 [0, 1], .releaseBatch 1 [1, 2]]

def twoClients : Nat → Mutexd Nat Nat
  | 0 => start
  | n + 1 => (twoBatches[n]?.bind (twoClients n).step).getD (twoClients n)

theorem second_client_granted : MutexRun Apart twoClients ∧ 1 ∉ (twoClients 2).granted ∧
    ∃ m ≥ 2, 1 ∈ (twoClients m).granted := by
  have goes : MutexRun Apart twoClients := by
    refine ⟨rfl, fun n => ?_⟩
    match n with
    | 0 => exact .inr ⟨.aquireBatch 1 [0, 1], (by decide : [0, 1].Nodup), rfl⟩
    | 1 => exact .inr ⟨.aquireBatch 2 [1, 2], (by decide : [1, 2].Nodup), rfl⟩
    | 2 => exact .inr ⟨.releaseBatch 0 [0, 1], trivial, rfl⟩
    | 3 => exact .inr ⟨.releaseBatch 1 [1, 2], trivial, rfl⟩
    | _ + 4 => exact .inl rfl
  have last : ∀ n, twoClients (n + 4) = twoClients 4 := by
    intro n
    induction n with
    | zero => rfl
    | succ n ih => exact ih
  have all_back : ∀ t < 2, ∀ x ∈ (twoClients 4).namesOf t, (twoClients 4).Gone t x := by decide
  refine ⟨goes, by decide, (grants_all goes).2 (fun n t x holds => ?_) 2 1 (by decide)⟩
  refine ⟨n + 4, Nat.le_add_right n 4, ?_⟩
  have later := run_later goes (Nat.le_add_right n 4)
  have known := (reached_sound (goes.reaches n)).known t holds.1
  have wants := (later.wants known x).2 holds.2.1
  have asked := lt_of_lt_of_le known later.asked.length_le
  rw [last] at wants asked ⊢
  exact all_back t asked x wants

/-- Both requests run in the same coroutine, one after the other. -/
def sameCoroutine : Nat → Mutexd Unit Nat
  | 0 => start
  | 1 => start.aquire 1 ()
  | _ => (start.aquire 1 ()).aquire 1 ()

theorem two_holders : ¬ ∀ run : Nat → Mutexd Unit Nat, MutexRun (fun _ _ => True) run →
    ∀ n, (run n).Grants := by
  intro claim
  have goes : MutexRun (fun _ _ => True) sameCoroutine := by
    refine ⟨rfl, fun n => ?_⟩
    match n with
    | 0 => exact .inr ⟨.aquire 1 (), trivial, rfl⟩
    | 1 => exact .inr ⟨.aquire 1 (), trivial, rfl⟩
    | _ + 2 => exact .inl rfl
  have one := (claim sameCoroutine goes 2).alone (.single ()) 0 1 (by decide) (by decide)
  cases one

end Mutexd

end FkServer
