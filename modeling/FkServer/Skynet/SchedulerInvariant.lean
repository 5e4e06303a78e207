import FkServer.Skynet.Scheduler

/-!
What the tasks hold of a context, and the invariant that ties it to the context: references are
counted, and a queue that has messages is in the global queue or with one thread.
-/
namespace FkServer.Skynet

/-- What a task may hold of a context: a reference, the duty to delete it, the duty to give it a
queue, the duty to end its launch, and its queue. -/
inductive Kind
  | ref
  | delete
  | build
  | launch
  | queue
deriving DecidableEq

/-- One, if it is this context. -/
def one (c x : Nat) : Nat := if c = x then 1 else 0

@[simp] theorem one_self (c : Nat) : one c c = 1 := if_pos rfl

theorem one_of_ne {c x : Nat} (h : c ≠ x) : one c x = 0 := if_neg h

def Next.share : Kind → Nat → Next → Nat
  | .queue, x, .take _ q => one q x
  | .queue, x, .setInit c | .queue, x, .pushNew c _ => one c x
  | .queue, x, .retireNew c | .queue, x, .releaseNew c => one c x
  | .launch, x, .setInit c | .launch, x, .retireNew c => one c x
  | _, _, _ => 0

namespace Task

variable {Data : Type}

def share : Kind → Nat → Task Data → Nat
  | k, x, .next n => n.share k x
  | .ref, x, .push c _ | .ref, x, .release c _ _ | .ref, x, .pop _ _ c _ _ => one c x
  | .ref, x, .measure _ _ c _ | .ref, x, .handle _ _ c _ _ _ => one c x
  | .ref, x, .finish _ _ c | .ref, x, .putBack _ _ c _ => one c x
  | .ref, x, .registered c | .ref, x, .assigned c | .ref, x, .initing c => one c x
  | .delete, x, .delete c _ => one c x
  | .build, x, .registered c | .build, x, .assigned c => one c x
  | .launch, x, .registered c | .launch, x, .assigned c | .launch, x, .initing c => one c x
  | .launch, x, .retire _ (.releaseNew c) => one c x
  | .launch, x, .release _ k _ | .launch, x, .delete _ k | .launch, x, .retire _ k =>
      k.share .launch x
  | .launch, x, .mqRelease _ k | .launch, x, .drop _ k => k.share .launch x
  | .queue, x, .release _ k _ | .queue, x, .delete _ k | .queue, x, .retire _ k => k.share .queue x
  | .queue, x, .mqRelease q k | .queue, x, .drop q k => one q x + k.share .queue x
  | .queue, x, .pop _ q _ _ _ | .queue, x, .measure _ q _ _ => one q x
  | .queue, x, .handle _ q _ _ _ _ | .queue, x, .finish _ q _ => one q x
  | .queue, x, .putBack _ q _ nq => one q x + one nq x
  | .queue, x, .initing c => one c x
  | _, _, _ => 0

/-- What a task relies on. -/
def Valid (contexts : Nat → Context Data) : Task Data → Prop
  | .release c live dead => dead = live ∨ live = .setInit c ∧ dead = .pushNew c false
  | .pop _ q c _ _ | .measure _ q c _ | .handle _ q c _ _ _ | .finish _ q c | .putBack _ q c _ =>
      q = c ∧ (contexts c).init = true
  | .retire h (.releaseNew c) => (contexts c).handle = h
  | .assigned c => (contexts c).assigned = true
  | .push c _ => (contexts c).created = true
  | .drop q _ => (contexts q).queue.release = true
  | _ => True

end Task

/-- A context with what the tasks hold of it; `queued` is how often its queue is in the global one. -/
structure Local {Data : Type} (context : Context Data) (known slot : Bool) (queued : Nat)
    (held : Kind → Nat) : Prop where
  ref : context.ref = slot.toNat + held .ref
  delete : held .delete + context.freed.toNat = (decide (context.ref = 0)).toNat
  build : held .build + context.created.toNat = known.toNat
  launch : slot = true → held .launch = 0 → context.init = true
  queue : queued + held .queue =
    (context.created && !context.queueFreed && (context.queue.in_global || context.queue.release)).toNat
  unknown : known = false → ∀ k, held k = 0
  released : context.queue.release = (context.created && context.freed)
  gone : context.queueFreed = true → context.queue.release = true ∧ context.queue.contents = []
  blank : context.created = false → context.queue.contents = []
  idle : context.created = true → context.queue.in_global = false → context.queue.release = false →
    context.queue.contents = []
  ring : context.queue.InRing ∧ 0 < context.queue.overload_threshold
  handle : context.created = true → context.queue.handle = context.handle ∧ context.assigned = true
  log : context.sent = context.dispatched ++ context.dropped ++ context.queue.contents
  dropped : context.queue.release = false → context.dropped = []

/-- How a context changes: its handle stays, and what has become of it stays so. -/
structure Context.Later {Data : Type} (a b : Context Data) : Prop where
  handle : b.handle = a.handle
  init : a.init = true → b.init = true
  assigned : a.assigned = true → b.assigned = true
  created : a.created = true → b.created = true
  release : a.queue.release = true → b.queue.release = true

theorem Context.Later.refl {Data : Type} (a : Context Data) : a.Later a :=
  ⟨rfl, id, id, id, id⟩

namespace Process

variable {Data : Type} {fresh : Nat → Message Data} {s s' : Process Data}

/-- What the tasks hold. -/
def held (s : Process Data) (x : Nat) (k : Kind) : Nat := Shares.total (Task.share k x) s.tasks

def slot (s : Process Data) (x : Nat) : Bool := decide (s.table (s.contexts x).handle = some x)

structure Inv (s : Process Data) : Prop where
  local_ : ∀ x, Local (s.contexts x) (decide (x < s.count)) (s.slot x) (s.global.count x) (s.held x)
  table : ∀ h c, s.table h = some c → c < s.count ∧ (s.contexts c).handle = h
  handles : ∀ c < s.count, ∀ c' < s.count, (s.contexts c).handle = (s.contexts c').handle → c = c'
  valid : ∀ t ∈ s.tasks, t.Valid s.contexts

theorem Inv.initial : Inv (initial fresh) where
  local_ _ :=
    { ref := rfl, delete := rfl, build := rfl, launch := nofun, queue := rfl
      unknown := fun _ _ => rfl, released := rfl, gone := nofun, blank := fun _ => rfl
      idle := nofun
      ring := ⟨MessageQueue.create_inRing fresh 0, show 0 < 1024 by decide⟩
      handle := nofun, log := rfl, dropped := fun _ => rfl }
  table := nofun
  handles := nofun
  valid := nofun

end Process

/-! ### One step -/

section

variable {Data : Type} {context : Context Data} {known slot : Bool} {queued queued' : Nat}
variable {held held' : Kind → Nat}

theorem Local.created_of_queue (h : Local context known slot queued held)
    (some : 0 < queued + held .queue) : context.created = true ∧ context.queueFreed = false ∧
      (context.queue.in_global = true ∨ context.queue.release = true) := by
  have queue := h.queue
  cases created : context.created <;> cases gone : context.queueFreed <;>
    cases in_global : context.queue.in_global <;> cases release : context.queue.release <;>
    simp [created, gone, in_global, release] at queue ⊢ <;> omega

theorem Local.queue_le (h : Local context known slot queued held) :
    queued + held .queue ≤ 1 := by
  rw [h.queue]
  exact Bool.toNat_le _

/-- Only the sum of a queue's places counts. -/
theorem Local.congr (h : Local context known slot queued held)
    (queue : queued' + held' .queue = queued + held .queue)
    (same : ∀ k, k ≠ .queue → held' k = held k) : Local context known slot queued' held' where
  ref := by rw [same .ref nofun]; exact h.ref
  delete := by rw [same .delete nofun]; exact h.delete
  build := by rw [same .build nofun]; exact h.build
  launch := by rw [same .launch nofun]; exact h.launch
  queue := by rw [queue]; exact h.queue
  unknown none k := by
    by_cases here : k = .queue
    · subst here
      have build := h.build
      have sum := h.queue
      rw [none] at build
      have created : context.created = false := by
        cases created : context.created with
        | false => rfl
        | true => simp [created] at build
      simp only [created, Bool.false_and, Bool.toNat_false] at sum
      omega
    · rw [same k here]
      exact h.unknown none k
  released := h.released
  gone := h.gone
  blank := h.blank
  idle := h.idle
  ring := h.ring
  handle := h.handle
  log := h.log
  dropped := h.dropped

end

namespace Process

variable {Data : Type} {fresh : Nat → Message Data} {s s' : Process Data} {i : Nat}
variable {t t' : Task Data}

theorem held_set (s' : Process Data) (at_i : s.tasks[i]? = some t)
    (tasks : s'.tasks = s.tasks.set i t') (x : Nat) (k : Kind) :
    s'.held x k + t.share k x = s.held x k + t'.share k x := by
  rw [held, tasks]
  exact Shares.total_set at_i t'

theorem share_le_held (at_i : s.tasks[i]? = some t) (k : Kind) (x : Nat) :
    t.share k x ≤ s.held x k := Shares.share_le_total at_i

/-- A task goes on; the context that it changes is kept, and the others are as they were. -/
theorem Inv.advance (h : Inv s) (x : Nat) (at_i : s.tasks[i]? = some t)
    (tasks : s'.tasks = s.tasks.set i t') (count : s'.count = s.count)
    (later : ∀ c, (s.contexts c).Later (s'.contexts c))
    (table : ∀ h c, s'.table h = some c → s.table h = some c)
    (others : ∀ c, c ≠ x → s'.contexts c = s.contexts c ∧ s'.slot c = s.slot c ∧
      s'.global.count c + t'.share .queue c = s.global.count c + t.share .queue c ∧
      ∀ k, k ≠ .queue → t'.share k c = t.share k c)
    (here : Local (s'.contexts x) (decide (x < s.count)) (s'.slot x) (s'.global.count x)
      (s'.held x))
    (valid : t'.Valid s'.contexts) : Inv s' where
  local_ c := by
    rw [count]
    by_cases at_x : c = x
    · subst at_x
      exact here
    · obtain ⟨context, slot, queue, same⟩ := others c at_x
      rw [context, slot]
      refine (h.local_ c).congr ?_ fun k other => ?_
      · have sum := held_set s' at_i tasks c .queue
        omega
      · have sum := held_set s' at_i tasks c k
        rw [same k other] at sum
        omega
  table handle c entry := by
    rw [count, (later c).handle]
    exact h.table handle c (table handle c entry)
  handles c known c' known' same := by
    rw [(later c).handle, (later c').handle] at same
    rw [count] at known known'
    exact h.handles c known c' known' same
  valid t₀ mem := by
    rw [tasks] at mem
    cases List.mem_or_eq_of_mem_set mem with
    | inr new => exact new ▸ valid
    | inl old =>
        have valid₀ := h.valid t₀ old
        cases t₀ with
        | retire handle k =>
            cases k with
            | releaseNew c => exact (later c).handle.trans valid₀
            | _ => trivial
        | pop _ q c _ _ | measure _ q c _ | handle _ q c _ _ _ | finish _ q c | putBack _ q c _ =>
            exact ⟨valid₀.1, (later c).init valid₀.2⟩
        | assigned c => exact (later c).assigned valid₀
        | push c _ => exact (later c).created valid₀
        | drop q _ => exact (later q).release valid₀
        | release _ _ _ => exact valid₀
        | _ => trivial

/-- A task goes on and nothing changes but whose a queue is. -/
theorem Inv.quiet (h : Inv s) (at_i : s.tasks[i]? = some t) (t' : Task Data) (global : List Nat)
    (valid : t'.Valid s.contexts) (same : ∀ k x, k ≠ .queue → t'.share k x = t.share k x)
    (queue : ∀ x, global.count x + t'.share .queue x = s.global.count x + t.share .queue x) :
    Inv ({ s with global := global }.goTo i t') := by
  refine h.advance 0 at_i rfl rfl (fun c => .refl (s.contexts c)) (fun _ _ => id)
    (fun c _ => ⟨rfl, rfl, queue c, fun k other => same k c other⟩) ?_ valid
  refine (h.local_ 0).congr ?_ fun k other => ?_
  · have sum := held_set ({ s with global := global }.goTo i t') at_i rfl 0 .queue
    have moved := queue 0
    simp only [goTo] at sum moved ⊢
    omega
  · have sum := held_set ({ s with global := global }.goTo i t') at_i rfl 0 k
    rw [same k 0 other] at sum
    omega

theorem count_cons_one (q : Nat) (global : List Nat) (x : Nat) :
    (q :: global).count x = global.count x + one q x := by
  rw [List.count_cons, one]
  simp only [beq_iff_eq]

theorem count_append_one (q : Nat) (global : List Nat) (x : Nat) :
    (global ++ [q]).count x = global.count x + one q x := by
  rw [List.count_append, count_cons_one, List.count_nil, Nat.zero_add]

theorem find_eq_some {handle c : Nat} :
    s.find handle = some c ↔ s.table handle = some c ∧ (s.contexts c).assigned = true := by
  rw [find, Option.filter_eq_some_iff]

theorem Inv.found (h : Inv s) {handle c : Nat} (found : s.find handle = some c) :
    c < s.count ∧ (s.contexts c).handle = handle ∧ s.slot c = true := by
  obtain ⟨entry, -⟩ := find_eq_some.1 found
  obtain ⟨known, same⟩ := h.table handle c entry
  refine ⟨known, same, ?_⟩
  rw [slot, same]
  exact decide_eq_true entry

/-- The queue that a thread has, or that is in the global queue, exists. -/
theorem Inv.has_queue (h : Inv s) {q : Nat} (some : 0 < s.global.count q + s.held q .queue) :
    q < s.count ∧ (s.contexts q).created = true ∧ (s.contexts q).queueFreed = false ∧
      (s.contexts q).queue.handle = (s.contexts q).handle := by
  have queue := h.local_ q
  obtain ⟨created, alive, -⟩ := queue.created_of_queue some
  refine ⟨?_, created, alive, (queue.handle created).1⟩
  have build := queue.build
  cases known : decide (q < s.count) with
  | true => exact of_decide_eq_true known
  | false => simp [known, created] at build

end Process

/-! ### What the steps do to one context -/

section

variable {Data : Type} {context : Context Data} {known slot : Bool} {queued queued' : Nat}
variable {held held' : Kind → Nat}

theorem Local.grab (h : Local context true true queued held)
    (ref : held' .ref = held .ref + 1) (same : ∀ k, k ≠ .ref → held' k = held k) :
    Local { context with ref := context.ref + 1 } true true queued held' where
  ref := by
    show context.ref + 1 = true.toNat + held' .ref
    rw [ref, h.ref, Nat.add_assoc]
  delete := by
    have some := h.ref
    have delete := h.delete
    rw [same .delete nofun, delete]
    simp [some]
  build := by rw [same .build nofun]; exact h.build
  launch slot := by rw [same .launch nofun]; exact h.launch slot
  queue := by rw [same .queue nofun]; exact h.queue
  unknown := nofun
  released := h.released
  gone := h.gone
  blank := h.blank
  idle := h.idle
  ring := h.ring
  handle := h.handle
  log := h.log
  dropped := h.dropped

/-- A reference is given back, and not the last one. -/
theorem Local.drop (h : Local context known slot queued held) (some : context.ref ≠ 1)
    (ref : held' .ref + 1 = held .ref) (same : ∀ k, k ≠ .ref → held' k = held k) :
    Local { context with ref := context.ref - 1 } known slot queued held' where
  ref := by
    have before := h.ref
    show context.ref - 1 = slot.toNat + held' .ref
    omega
  delete := by
    have before := h.ref
    have more : decide (context.ref - 1 = 0) = decide (context.ref = 0) := by
      rw [decide_eq_decide]
      omega
    have delete := h.delete
    rw [same .delete nofun]
    simpa only [more] using delete
  build := by rw [same .build nofun]; exact h.build
  launch := by rw [same .launch nofun]; exact h.launch
  queue := by rw [same .queue nofun]; exact h.queue
  unknown none k := by
    have absent := h.unknown none .ref
    omega
  released := h.released
  gone := h.gone
  blank := h.blank
  idle := h.idle
  ring := h.ring
  handle := h.handle
  log := h.log
  dropped := h.dropped

/-- The last reference is given back; the context is out of the table then. -/
theorem Local.dropLast (h : Local context known slot queued held) (last : context.ref = 1)
    (ref : held' .ref + 1 = held .ref) (delete : held' .delete = held .delete + 1)
    (build : held' .build = held .build) (queue : held' .queue = held .queue) :
    Local { context with ref := context.ref - 1 } known slot queued held' where
  ref := by
    have before := h.ref
    show context.ref - 1 = slot.toNat + held' .ref
    omega
  delete := by
    have before := h.delete
    rw [last] at before
    simp only [last, Nat.sub_self, decide_true, Bool.toNat_true]
    simp at before
    simp [delete, before]
  build := by rw [build]; exact h.build
  launch out := by
    have before := h.ref
    rw [out] at before
    simp only [Bool.toNat_true] at before
    omega
  queue := by rw [queue]; exact h.queue
  unknown none k := by
    have absent := h.unknown none .ref
    omega
  released := h.released
  gone := h.gone
  blank := h.blank
  idle := h.idle
  ring := h.ring
  handle := h.handle
  log := h.log
  dropped := h.dropped

/-- What is being deleted has no reference left and is still there. -/
theorem Local.deleting (h : Local context known slot queued held) (some : 0 < held .delete) :
    context.ref = 0 ∧ context.freed = false := by
  have delete := h.delete
  have zero : context.ref = 0 := by
    by_contra more
    simp only [more, decide_false, Bool.toNat_false] at delete
    omega
  refine ⟨zero, ?_⟩
  cases freed : context.freed with
  | false => rfl
  | true =>
      simp [zero, freed] at delete
      omega

/-- `delete_context`; the queue goes to the global one if nobody has it. -/
theorem Local.deleteContext (h : Local context known slot queued held)
    (created : context.created = true) (delete : held' .delete + 1 = held .delete)
    (queue : queued' + held' .queue =
      queued + held .queue + (!context.queue.in_global).toNat)
    (same : ∀ k, k ≠ .delete → k ≠ .queue → held' k = held k) :
    Local { context with queue := { context.queue with release := true }, freed := true } known slot
      queued' held' := by
  have before := h.delete
  obtain ⟨zero, alive⟩ := h.deleting (by omega)
  have kept : context.queue.release = false := by rw [h.released, alive, Bool.and_false]
  have there : context.queueFreed = false := by
    cases gone : context.queueFreed with
    | false => rfl
    | true => exact absurd (h.gone gone).1 (by simp [kept])
  refine { h with
    ref := by rw [same .ref nofun nofun]; exact h.ref
    delete := ?_
    build := by rw [same .build nofun nofun]; exact h.build
    launch := by rw [same .launch nofun nofun]; exact h.launch
    queue := ?_
    unknown := fun none => ?_
    released := by simp [created]
    gone := fun gone => absurd gone (by simp [there])
    idle := nofun
    dropped := nofun }
  · simp [zero, alive] at before ⊢
    omega
  · have sum := h.queue
    rw [created, there, kept] at sum
    rw [queue, sum, created, there]
    cases context.queue.in_global <;> rfl
  · have absent := h.unknown none .delete
    omega

/-- `skynet_handle_retire` takes the context out of the table. -/
theorem Local.takeOut (h : Local context true true queued held)
    (ref : held' .ref = held .ref + 1) (same : ∀ k, k ≠ .ref → k ≠ .launch → held' k = held k) :
    Local context true false queued held' where
  ref := by
    have before := h.ref
    simp only [Bool.toNat_true, Bool.toNat_false] at before ⊢
    omega
  delete := by rw [same .delete nofun nofun]; exact h.delete
  build := by rw [same .build nofun nofun]; exact h.build
  launch := nofun
  queue := by rw [same .queue nofun nofun]; exact h.queue
  unknown := nofun
  released := h.released
  gone := h.gone
  blank := h.blank
  idle := h.idle
  ring := h.ring
  handle := h.handle
  log := h.log
  dropped := h.dropped

/-- A launch goes on; it is still in the table only if it is ready. -/
theorem Local.launched (h : Local context known slot queued held)
    (ready : slot = true → context.init = true) (same : ∀ k, k ≠ .launch → held' k = held k)
    (launch : held' .launch ≤ held .launch) : Local context known slot queued held' :=
  { h with
    ref := by rw [same .ref nofun]; exact h.ref
    delete := by rw [same .delete nofun]; exact h.delete
    build := by rw [same .build nofun]; exact h.build
    launch := fun slot _ => ready slot
    queue := by rw [same .queue nofun]; exact h.queue
    unknown := fun none k => by
      by_cases here : k = .launch
      · subst here
        have absent := h.unknown none .launch
        omega
      · rw [same k here]
        exact h.unknown none k }

/-- `skynet_mq_push`; the queue goes to the global one if nobody has it. -/
theorem Local.mqPush (h : Local context known slot queued held) (created : context.created = true)
    (kept : context.queue.release = false) (fresh : Nat → Message Data) (message : Message Data)
    (queue : queued' + held' .queue = queued + held .queue + (!context.queue.in_global).toNat)
    (same : ∀ k, k ≠ .queue → held' k = held k) :
    Local { context with
      queue := { context.queue.push fresh message with in_global := true }
      sent := context.sent ++ [message] } known slot queued' held' := by
  obtain ⟨ring, contents⟩ := MessageQueue.push_spec h.ring.1 fresh message
  obtain ⟨-, release, handle, threshold⟩ :=
    MessageQueue.push_frame (q := context.queue) fresh message
  have there : context.queueFreed = false := by
    cases gone : context.queueFreed with
    | false => rfl
    | true => exact absurd (h.gone gone).1 (by simp [kept])
  have known_ : known = true := by
    have build := h.build
    cases known with
    | true => rfl
    | false => simp [created] at build
  exact { h with
    ref := by rw [same .ref nofun]; exact h.ref
    delete := by rw [same .delete nofun]; exact h.delete
    build := by rw [same .build nofun]; exact h.build
    launch := by rw [same .launch nofun]; exact h.launch
    queue := by
      have sum := h.queue
      rw [created, there, kept] at sum
      rw [queue, sum, created, there]
      cases context.queue.in_global <;> rfl
    unknown := fun none => absurd none (by simp [known_])
    released := release.trans h.released
    gone := fun gone => absurd gone (by simp [there])
    blank := fun new => absurd new (by simp [created])
    idle := nofun
    ring := ⟨ring, by rw [threshold]; exact h.ring.2⟩
    handle := fun _ => ⟨handle.trans (h.handle created).1, (h.handle created).2⟩
    log := by
      show context.sent ++ [message] = _ ++ (context.queue.push fresh message).contents
      rw [contents, h.log, List.append_assoc]
    dropped := fun _ => h.dropped kept }

/-- A pop finds nothing, and the thread lets the queue go. -/
theorem Local.popNil (h : Local context known slot queued held)
    (empty : context.queue.contents = []) (kept : context.queue.release = false)
    (queue : held' .queue + 1 = held .queue) (same : ∀ k, k ≠ .queue → held' k = held k) :
    Local { context with queue := context.queue.pop.2 } known slot queued held' := by
  rw [MessageQueue.pop_nil h.ring.1 empty]
  obtain ⟨created, there, -⟩ := h.created_of_queue (by omega)
  exact { h with
    ref := by rw [same .ref nofun]; exact h.ref
    delete := by rw [same .delete nofun]; exact h.delete
    build := by rw [same .build nofun]; exact h.build
    launch := by rw [same .launch nofun]; exact h.launch
    queue := by
      have le := h.queue_le
      have none : queued + held' .queue = 0 := by omega
      rw [none, kept]
      simp
    unknown := fun none k => by
      have absent := h.unknown none .queue
      omega
    blank := fun _ => empty
    idle := fun _ _ _ => empty
    ring := ⟨h.ring.1, show 0 < 1024 by decide⟩
    dropped := fun _ => h.dropped kept }

/-- A pop finds a message. -/
theorem Local.popCons (h : Local context known slot queued held) {queue' : MessageQueue (Message Data)}
    {message : Message Data} {rest : List (Message Data)}
    (first : context.queue.contents = message :: rest)
    (popped : MessageQueue.Popped context.queue rest queue') {dispatched dropped : List (Message Data)}
    (log : dispatched ++ dropped = context.dispatched ++ context.dropped ++ [message])
    (kept : context.queue.release = false → dropped = []) :
    Local { context with queue := queue', dispatched := dispatched, dropped := dropped }
      known slot queued held :=
  { h with
    queue := by rw [popped.in_global, popped.release]; exact h.queue
    released := popped.release.trans h.released
    gone := fun gone => absurd (h.gone gone).2 (by simp [first])
    blank := fun new => absurd (h.blank new) (by simp [first])
    idle := fun created in_global release => by
      rw [popped.in_global] at in_global
      rw [popped.release] at release
      exact absurd (h.idle created in_global release) (by simp [first])
    ring := ⟨popped.inRing, popped.positive⟩
    handle := fun created => ⟨popped.handle.trans (h.handle created).1, (h.handle created).2⟩
    log := by
      rw [log, popped.contents, h.log, first, List.append_assoc _ [message]]
      rfl
    dropped := fun release => kept (popped.release.symm.trans release) }

/-- `_drop_queue` has emptied the queue and frees it. -/
theorem Local.freeQueue (h : Local context known slot queued held)
    (empty : context.queue.contents = []) (released : context.queue.release = true)
    (queue : held' .queue + 1 = held .queue) (same : ∀ k, k ≠ .queue → held' k = held k) :
    Local { context with queue := context.queue.pop.2, queueFreed := true } known slot queued
      held' := by
  rw [MessageQueue.pop_nil h.ring.1 empty]
  exact { h with
    ref := by rw [same .ref nofun]; exact h.ref
    delete := by rw [same .delete nofun]; exact h.delete
    build := by rw [same .build nofun]; exact h.build
    launch := by rw [same .launch nofun]; exact h.launch
    queue := by
      have le := h.queue_le
      have none : queued + held' .queue = 0 := by omega
      rw [none]
      simp
    unknown := fun none k => by
      have absent := h.unknown none .queue
      omega
    gone := fun _ => ⟨released, empty⟩
    blank := fun _ => empty
    idle := fun _ _ kept => absurd kept (by simp [released])
    ring := ⟨h.ring.1, show 0 < 1024 by decide⟩
    dropped := fun kept => absurd kept (by simp [released]) }

/-- `skynet_mq_create` in `skynet_context_new`. -/
theorem Local.create (h : Local context known slot queued held) (new : context.created = false)
    (assigned : context.assigned = true) (some : context.ref ≠ 0) (fresh : Nat → Message Data)
    (build : held' .build + 1 = held .build) (queue : held' .queue = held .queue + 1)
    (same : ∀ k, k ≠ .build → k ≠ .queue → held' k = held k) :
    Local { context with queue := .create fresh context.handle, created := true } known slot queued
      held' := by
  have before := h.delete
  have alive : context.freed = false := by
    cases freed : context.freed with
    | false => rfl
    | true => simp [some, freed] at before
  have release : context.queue.release = false := by rw [h.released, new, Bool.false_and]
  have there : context.queueFreed = false := by
    cases gone : context.queueFreed with
    | false => rfl
    | true => exact absurd (h.gone gone).1 (by simp [release])
  have sum := h.build
  have none := h.queue
  simp only [new, Bool.toNat_false, Bool.false_and] at sum none
  exact { h with
    ref := by rw [same .ref nofun nofun]; exact h.ref
    delete := by rw [same .delete nofun nofun]; exact h.delete
    build := by
      show held' .build + 1 = known.toNat
      omega
    launch := by rw [same .launch nofun nofun]; exact h.launch
    queue := by
      show queued + held' .queue = (true && !context.queueFreed && true).toNat
      rw [there, queue, ← Nat.add_assoc, none]
      rfl
    unknown := fun unknown => by
      have absent := h.unknown unknown .build
      omega
    released := by
      show false = (true && context.freed)
      rw [alive]
      rfl
    gone := fun gone => absurd gone (by simp [there])
    blank := nofun
    idle := nofun
    ring := ⟨MessageQueue.create_inRing fresh context.handle, show 0 < 1024 by decide⟩
    handle := fun _ => ⟨rfl, assigned⟩
    log := by
      have log := h.log
      rw [h.blank new] at log
      exact log
    dropped := fun _ => h.dropped release }

end

end FkServer.Skynet
