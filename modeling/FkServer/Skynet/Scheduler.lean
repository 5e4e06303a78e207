import FkServer.Library.Runs
import FkServer.Library.Shares
import FkServer.Skynet.MessageQueue

/-!
`skynet_server.c` and the global queue of `skynet_mq.c`: services are launched and killed, messages
are sent, and the workers dispatch them. Whatever a thread does is a task; the steps of the tasks
are what the locks and the atomic counters make atomic, and any task may be next.
-/
namespace FkServer.Skynet

/-- `struct skynet_message`; the type is the high byte of `sz`. -/
structure Message (Data : Type) where
  source : Nat
  session : Int
  type : Nat
  data : Option Data

def PTYPE_ERROR : Nat := 7

/-- How a thread goes on after a call. A worker has a weight, or none for `-1`. -/
inductive Next
  | done
  /-- A worker before `skynet_globalmq_pop`. -/
  | fetch (weight : Option Nat)
  /-- A worker that has a queue, before `skynet_handle_grab`. -/
  | take (weight : Option Nat) (q : Nat)
  /-- `skynet_context_new` after a good `init`, whose release has left the context alive. -/
  | setInit (c : Nat)
  /-- `skynet_context_new` before `skynet_globalmq_push`; `ret` says whether there is a `ret`. -/
  | pushNew (c : Nat) (ret : Bool)
  /-- `skynet_context_new` in `skynet_error`, whose line goes out as a message. -/
  | logNew (c : Nat)
  /-- `skynet_context_new` after a bad `init`, before `skynet_handle_retire`. -/
  | retireNew (c : Nat)
  /-- The same before `skynet_mq_release`. -/
  | releaseNew (c : Nat)
deriving DecidableEq

/-- Where a thread is. A queue has the number of its context. -/
inductive Task (Data : Type)
  | next (n : Next)
  /-- `skynet_context_push` before `skynet_handle_grab`. -/
  | send (handle : Nat) (message : Message Data)
  /-- `skynet_context_push` before `skynet_mq_push`. -/
  | push (c : Nat) (message : Message Data)
  /-- Before `skynet_context_release`, which leaves the context or deletes it. -/
  | release (c : Nat) (live dead : Next)
  /-- In `delete_context`. -/
  | delete (c : Nat) (k : Next)
  /-- Before `skynet_handle_retire`. -/
  | retire (handle : Nat) (k : Next)
  /-- Before `skynet_mq_release`. -/
  | mqRelease (q : Nat) (k : Next)
  /-- In the loop of `_drop_queue`. -/
  | drop (q : Nat) (k : Next)
  /-- `skynet_context_message_dispatch` in round `i` of `n`, before `skynet_mq_pop`. -/
  | pop (weight : Option Nat) (q c i n : Nat)
  /-- The same before `skynet_mq_length`. -/
  | measure (weight : Nat) (q c : Nat) (message : Message Data)
  /-- The same in the callback. -/
  | handle (weight : Option Nat) (q c i n : Nat) (message : Message Data)
  /-- The same after the loop, before `skynet_globalmq_pop`. -/
  | finish (weight : Option Nat) (q c : Nat)
  /-- The same before `skynet_globalmq_push`. -/
  | putBack (weight : Option Nat) (q c nq : Nat)
  /-- `skynet_context_new` with a handle that is not in the context yet. -/
  | registered (c : Nat)
  /-- `skynet_context_new` before `skynet_mq_create`. -/
  | assigned (c : Nat)
  /-- `skynet_context_new` in `skynet_module_instance_init`. -/
  | initing (c : Nat)

/-- `struct skynet_context` with its queue; `handle` is what it is registered under, and `assigned`
whether it has been told. The lists are history: what has been pushed to the queue, and what has
been popped for the callback and for `drop_message`. -/
structure Context (Data : Type) where
  ref : Nat
  handle : Nat
  assigned : Bool
  init : Bool
  freed : Bool
  queue : MessageQueue (Message Data)
  created : Bool
  queueFreed : Bool
  sent : List (Message Data)
  dispatched : List (Message Data)
  dropped : List (Message Data)

/-- The process: contexts in the order of their registration, `H` and `Q`. -/
structure Process (Data : Type) where
  contexts : Nat → Context Data
  count : Nat
  table : Nat → Option Nat
  global : List Nat
  tasks : List (Task Data)

inductive ProcessStep (Data : Type)
  /-- A thread calls `skynet_context_push`. -/
  | send (handle : Nat) (message : Message Data)
  /-- A thread calls `skynet_handle_retire`. -/
  | kill (handle : Nat)
  /-- A worker starts. -/
  | worker (weight : Option Nat)
  /-- A thread calls `skynet_context_new` and gets this handle. -/
  | launch (handle : Nat)
  /-- A task goes on; `ok` is what `init` says. -/
  | run (i : Nat) (ok : Bool)

namespace Process

variable {Data : Type} (fresh : Nat → Message Data) (s : Process Data)

def goTo (i : Nat) (t : Task Data) : Process Data := { s with tasks := s.tasks.set i t }

def start (t : Task Data) : Process Data := { s with tasks := s.tasks ++ [t] }

def setContext (c : Nat) (context : Context Data) : Process Data :=
  { s with contexts := Function.update s.contexts c context }

def setQueue (q : Nat) (queue : MessageQueue (Message Data)) : Process Data :=
  s.setContext q { s.contexts q with queue := queue }

/-- `skynet_handle_grab` finds a context that knows its handle. -/
def find (handle : Nat) : Option Nat :=
  (s.table handle).filter fun c => (s.contexts c).assigned

/-- `skynet_context_grab` -/
def grab (c : Nat) : Process Data :=
  s.setContext c { s.contexts c with ref := (s.contexts c).ref + 1 }

/-- The last release goes on to `delete_context`. -/
def release (i c : Nat) (live dead : Next) : Process Data :=
  let s' := s.setContext c { s.contexts c with ref := (s.contexts c).ref - 1 }
  if (s.contexts c).ref = 1 then s'.goTo i (.delete c dead) else s'.goTo i (.next live)

/-- `skynet_globalmq_push` -/
def globalPush (q : Nat) : Process Data := { s with global := s.global ++ [q] }

/-- `skynet_mq_push` -/
def mqPush (c : Nat) (message : Message Data) : Process Data :=
  let context := s.contexts c
  let queue := context.queue.push fresh message
  let s' := s.setContext c { context with
    queue := { queue with in_global := true }
    sent := context.sent ++ [message] }
  if queue.in_global then s' else s'.globalPush c

/-- `skynet_mq_mark_release`, and the context is freed. -/
def delete (c : Nat) : Process Data :=
  let context := s.contexts c
  let s' := s.setContext c { context with
    queue := { context.queue with release := true }
    freed := true }
  if context.queue.in_global then s' else s'.globalPush c

/-- `skynet_handle_register`, which reserves the handle, in `skynet_context_new`. -/
def register (handle : Nat) : Process Data :=
  { s with
    contexts := Function.update s.contexts s.count {
      ref := 2
      handle := handle
      assigned := false
      init := false
      freed := false
      queue := .create fresh handle
      created := false
      queueFreed := false
      sent := []
      dispatched := []
      dropped := [] }
    count := s.count + 1
    table := Function.update s.table handle (some s.count)
    tasks := s.tasks ++ [.registered s.count] }

/-- A worker, or `skynet_context_new`, goes on. -/
def runNext (i : Nat) : Next → Option (Process Data)
  | .done => none
  | .fetch weight =>
      match s.global with
      | [] => some s
      | q :: global => some ({ s with global := global }.goTo i (.next (.take weight q)))
  | .take weight q =>
      match s.find (s.contexts q).queue.handle with
      | none => some (s.goTo i (.mqRelease q (.fetch weight)))
      | some c => some ((s.grab c).goTo i (.pop weight q c 0 1))
  | .setInit c =>
      some ((s.setContext c { s.contexts c with init := true }).goTo i (.next (.pushNew c true)))
  | .pushNew c ret =>
      some ((s.globalPush c).goTo i (.next (if ret then .logNew c else .done)))
  | .logNew _ => some (s.goTo i (.next .done))
  | .retireNew c => some (s.goTo i (.retire (s.contexts c).handle (.releaseNew c)))
  | .releaseNew c => some (s.goTo i (.mqRelease c .done))

/-- `skynet_mq_pop` in a round of the dispatch; the warning of `skynet_mq_overload` goes out. -/
def runPop (j : Nat) (weight : Option Nat) (q c i n : Nat) : Process Data :=
  match (s.contexts q).queue.pop with
  | (none, queue) => (s.setQueue q queue).goTo j (.release c (.fetch weight) (.fetch weight))
  | (some message, queue) =>
      let s' := s.setQueue q queue.takeOverload.2
      let s' := s'.setContext c { s'.contexts c with
        dispatched := (s'.contexts c).dispatched ++ [message] }
      match i, weight with
      | 0, some weight => s'.goTo j (.measure weight q c message)
      | _, _ => s'.goTo j (.handle weight q c i n message)

/-- A round of `_drop_queue`; `drop_message` answers with an error. -/
def runDrop (i q : Nat) (k : Next) : Process Data :=
  match (s.contexts q).queue.pop with
  | (none, queue) =>
      (s.setContext q { s.contexts q with queue := queue, queueFreed := true }).goTo i (.next k)
  | (some message, queue) =>
      let context := s.contexts q
      (s.setContext q { context with
        queue := queue
        dropped := context.dropped ++ [message] }).start
          (.send message.source ⟨context.queue.handle, 0, PTYPE_ERROR, none⟩)

def runTask (i : Nat) (ok : Bool) : Task Data → Option (Process Data)
  | .next n => s.runNext i n
  | .send handle message =>
      match s.find handle with
      | none => some (s.goTo i (.next .done))
      | some c => some ((s.grab c).goTo i (.push c message))
  | .push c message => some ((s.mqPush fresh c message).goTo i (.release c .done .done))
  | .release c live dead => some (s.release i c live dead)
  | .delete c k => some ((s.delete c).goTo i (.next k))
  | .retire handle k =>
      match s.find handle with
      | none => some (s.goTo i (.next k))
      | some c =>
          some ({ s with table := Function.update s.table handle none }.goTo i (.release c k k))
  | .mqRelease q k =>
      if (s.contexts q).queue.release then some (s.goTo i (.drop q k))
      else some ((s.globalPush q).goTo i (.next k))
  | .drop q k => some (s.runDrop i q k)
  | .pop weight q c j n => some (s.runPop i weight q c j n)
  | .measure weight q c message =>
      some (s.goTo i
        (.handle (some weight) q c 0 ((s.contexts q).queue.length >>> weight) message))
  | .handle weight q c j n _ =>
      if j + 1 < n then some (s.goTo i (.pop weight q c (j + 1) n))
      else some (s.goTo i (.finish weight q c))
  | .finish weight q c =>
      match s.global with
      | [] => some (s.goTo i (.release c (.take weight q) (.take weight q)))
      | nq :: global => some ({ s with global := global }.goTo i (.putBack weight q c nq))
  | .putBack weight q c nq =>
      some ((s.globalPush q).goTo i (.release c (.take weight nq) (.take weight nq)))
  | .registered c =>
      some ((s.setContext c { s.contexts c with assigned := true }).goTo i (.assigned c))
  | .assigned c =>
      some ((s.setContext c { s.contexts c with
        queue := .create fresh (s.contexts c).handle
        created := true }).goTo i (.initing c))
  | .initing c =>
      if ok then some (s.goTo i (.release c (.setInit c) (.pushNew c false)))
      else some (s.goTo i (.release c (.retireNew c) (.retireNew c)))

def step : ProcessStep Data → Option (Process Data)
  | .send handle message => some (s.start (.send handle message))
  | .kill handle => some (s.start (.retire handle .done))
  | .worker weight => some (s.start (.next (.fetch weight)))
  | .launch handle =>
      if s.table handle = none then some (s.register fresh handle) else none
  | .run i ok => s.tasks[i]?.bind (s.runTask fresh i ok)

/-- Before the first service; there is no context, which is the same as one that is gone. -/
def initial : Process Data where
  contexts _ :=
    { ref := 0
      handle := 0
      assigned := false
      init := false
      freed := true
      queue := .create fresh 0
      created := false
      queueFreed := false
      sent := []
      dispatched := []
      dropped := [] }
  count := 0
  table _ := none
  global := []
  tasks := []

/-- What the code relies on: a handle that is registered has never been given before, which is so
until `handle_index` has gone through all of them, and nobody sends to a service before it has its
queue. -/
def Careful (s : Process Data) : ProcessStep Data → Prop
  | .launch handle => ∀ c < s.count, (s.contexts c).handle ≠ handle
  | .run i _ => ∀ handle message, s.tasks[i]? = some (.send handle message) →
      ∀ c, s.find handle = some c → (s.contexts c).created = true
  | _ => True

/-- The states of every run of the process. -/
abbrev Reached : Process Data → Prop :=
  Runs.Reaches (· = initial fresh) (fun s a s' => s.step fresh a = some s') Careful

end Process

end FkServer.Skynet
