import FkServer.Service.ChannelTree

/-!
`channeld.lua`: calls that find no node of their id wait until a subscription wakes them. A
handler runs until it waits for an answer, and another may go on then.
-/
namespace FkServer.Channeld

local instance lawfulBEqText : LawfulBEq Text := inferInstance

/-- How a message is sent on: `call` and `rawcall`, or `publish`. -/
inductive Sending
  | call
  | publish
deriving DecidableEq

/-- Whom the found node sends to; a batch has no `call`. -/
def Sending.serve : Sending → Found → Option (List Addr)
  | .call, .node n => n.value.map fun conf => [conf.addr]
  | .call, .batch _ => none
  | .publish, found => found.send

/-- How a request ends: what is sent, and what the table held then. -/
inductive Outcome
  | sent (addrs : List Addr) (table : Option Addr)
  | failed
  /-- `call` of an id with a `*` -/
  | refused
deriving DecidableEq

/-- A coroutine that subscribes or unsubscribes, with what is left to do. -/
inductive Handler
  | subscribing (subscribed : List Text) (rest : List (Text × Handle))
  | unsubscribing (rest : List Text)

/-- The number of a request in `asked` stands for its coroutine. -/
structure Daemon where
  tables : State
  /-- `register_name` of `clusterd`. -/
  registerName : Text → Bool
  waiting : Text → List Nat
  handlers : Nat → Option Handler
  asked : List (Text × Sending)
  history : List (Nat × Outcome)

inductive Event
  | localprovider (name : Option Text)
  /-- Another service's `cluster.register`. -/
  | register (name : Text)
  | call (id : Text) (random : Nat)
  | publish (id : Text) (random : Nat)
  | subscribe (co : Nat) (services : List (Text × Handle))
  /-- The next `sub` of a handler. -/
  | sub (co : Nat)
  /-- `wakeup()` at its end, with the order of `pairs(waiting)` and the draws of both checks. -/
  | wakeup (co : Nat) (order : List Text) (check : Text → Nat) (again : Nat → Nat)
  | unsubscribe (co : Nat) (sids : List Text)
  /-- The next `do_unsub` of a handler. -/
  | unsub (co : Nat) (random : Nat)

namespace Daemon

variable (s : Daemon)

def setHandler (co : Nat) (handler : Option Handler) : Daemon :=
  { s with handlers := Function.update s.handlers co handler }

def outcome (random : Nat) (id : Text) (sending : Sending) : Outcome :=
  match (s.tables.matcher random id).bind sending.serve with
  | some addrs => .sent addrs ((s.tables.address id).map Conf.addr)
  | none => .failed

/-- A request goes on after `get_node`, or fails there. -/
def attend (random t : Nat) : Daemon :=
  match s.asked[t]? with
  | none => s
  | some (id, sending) => { s with history := s.history ++ [(t, s.outcome random id sending)] }

/-- `get_node` of a new request. -/
def arrive (id : Text) (sending : Sending) (random : Nat) : Daemon :=
  let s' := { s with asked := s.asked ++ [(id, sending)] }
  match s.tables.matcher random id with
  | some _ => s'.attend random s.asked.length
  | none =>
      { s' with waiting := Function.update s.waiting id (s.waiting id ++ [s.asked.length]) }

/-- `wakeup()`. The coroutines it wakes run right after it, and check again. -/
def wakeup (order : List Text) (check : Text → Nat) (again : Nat → Nat) : Daemon :=
  let woken := order.filter fun id => (s.tables.matcher (check id) id).isSome
  let s' := { s with waiting := fun id => if id ∈ woken then [] else s.waiting id }
  (woken.flatMap s.waiting).foldl (fun s t => s.attend (again t) t) s'

/-- An `unsubscribe` goes on with the next id or ends. -/
def unsubscribing : List Text → Option Handler
  | [] => none
  | rest => some (.unsubscribing rest)

/-- `sub` in a handler. It fails for the own provider and where the name is registered already. -/
def sub (co : Nat) (subscribed : List Text) (sid : Text) (handle : Handle)
    (rest : List (Text × Handle)) : Daemon :=
  match s.tables.sub sid handle, handle with
  | none, _ => s.setHandler co none
  | some tables, .number _ =>
      if s.registerName sid then { s.setHandler co none with tables := tables }
      else { s.setHandler co (some (.subscribing (sid :: subscribed) rest)) with
        tables := tables
        registerName := Function.update s.registerName sid true }
  | some tables, _ =>
      { s.setHandler co (some (.subscribing (sid :: subscribed) rest)) with tables := tables }

/-- `do_unsub` in a handler, which may end there with an error. -/
def unsub (co : Nat) (random : Nat) (sid : Text) (rest : List Text) : Daemon :=
  let fails := (s.tables.pop random sid).isNone ||
    (s.tables.address sid).any fun conf => conf.global.isNone
  { s.setHandler co (if fails then none else unsubscribing rest) with
    tables := s.tables.doUnsub random sid }

def step : Event → Option Daemon
  | .localprovider name => some { s with tables := { s.tables with selfprovider := name } }
  | .register name => some { s with registerName := Function.update s.registerName name true }
  | .call id random =>
      if '*' ∈ id then some { s with
        asked := s.asked ++ [(id, .call)]
        history := s.history ++ [(s.asked.length, .refused)] }
      else some (s.arrive id .call random)
  | .publish id random => some (s.arrive id .publish random)
  | .subscribe co services =>
      match s.handlers co with
      | none => some (s.setHandler co (some (.subscribing [] services)))
      | some _ => none
  | .sub co =>
      match s.handlers co with
      | some (.subscribing subscribed ((sid, handle) :: rest)) =>
          if builderField ∈ components sid then none
          else some (s.sub co subscribed sid handle rest)
      | _ => none
  | .wakeup co order check again =>
      match s.handlers co with
      | some (.subscribing _ []) => some ((s.setHandler co none).wakeup order check again)
      | _ => none
  | .unsubscribe co sids =>
      match s.handlers co with
      | none => some (s.setHandler co (unsubscribing sids))
      | some _ => none
  | .unsub co random =>
      match s.handlers co with
      | some (.unsubscribing (sid :: rest)) => some (s.unsub co random sid rest)
      | _ => none

/-- What `pairs(waiting)` may run through. -/
def Pairs : Event → Prop
  | .wakeup _ order _ _ => order.Nodup ∧ ∀ id, s.waiting id ≠ [] → id ∈ order
  | _ => True

def Moves (s : Daemon) (event : Event) (s' : Daemon) : Prop :=
  s.Pairs event ∧ s.step event = some s'

def begins (s : Daemon) : Prop :=
  start s.tables ∧ (∀ id, s.waiting id = []) ∧ (∀ co, s.handlers co = none) ∧ s.asked = [] ∧
    s.history = []

/-- The request is a call to this id. -/
abbrev Calls (s : Daemon) (t : Nat) (id : Text) : Prop := s.asked[t]? = some (id, .call)

/-- No subscribed id has these components as the first of its own, and the root is not meant. -/
def Alone (s : Daemon) (id : Text) : Prop :=
  components id ≠ [] ∧ ∀ other, s.tables.address other ≠ none →
    components id <+: components other → other = id

/-- The handler gets as far as its `wakeup`. -/
def Fine (s : Daemon) (sid : Text) : Handle → Prop
  | .number _ => s.registerName sid = false
  | .string _ _ => True
  | .table provider _ _ => s.tables.selfprovider ≠ some provider

/-- Calls whose ids are not subscribed name no node on the way to a subscribed one, subscriptions
make no such node for a call that waits, and nothing that is subscribed is unsubscribed. -/
def Guarded (s : Daemon) : Event → Prop
  | .call id _ => '*' ∉ id ∧ Plain id ∧ (s.tables.address id = none → s.Alone id)
  | .sub co => ∀ subscribed sid handle rest,
      s.handlers co = some (.subscribing subscribed ((sid, handle) :: rest)) →
        Plain sid ∧ s.tables.OneSpelling sid ∧ s.Fine sid handle ∧
        ∀ id, ∀ t ∈ s.waiting id, s.Calls t id →
          components id <+: components sid → sid = id
  | .unsub co _ => ∀ sid rest, s.handlers co = some (.unsubscribing (sid :: rest)) →
      s.tables.address sid = none
  | _ => True

/-- No call is lost: it waits while its id is not subscribed, and is sent once, to the address in
the table. -/
structure Served (s : Daemon) : Prop where
  sent : ∀ t id o, s.Calls t id → (t, o) ∈ s.history →
    ∃ a, o = .sent [a] (some a)
  once : (s.history.map Prod.fst).Nodup
  kept : ∀ t id, s.Calls t id → (t ∈ s.waiting id ↔ ∀ o, (t, o) ∉ s.history)
  waits : ∀ t id, s.Calls t id → t ∈ s.waiting id →
    s.tables.address id ≠ none → ∃ co subscribed rest,
      s.handlers co = some (.subscribing subscribed rest) ∧ id ∈ subscribed
  resumes : ∀ co order check again s', s.Moves (.wakeup co order check again) s' →
    ∀ id, s.tables.address id ≠ none → s'.waiting id = []

/-! ### The invariant -/

/-- Every request waits or has ended, and a call that waits is no stranger to its handler. -/
structure Kept (s : Daemon) : Prop where
  agrees : s.tables.Agrees
  plain : ∀ t id, s.Calls t id → '*' ∉ id ∧ Plain id
  queued : ∀ id, ∀ t ∈ s.waiting id, ∃ sending, s.asked[t]? = some (id, sending)
  nodup : ∀ id, (s.waiting id).Nodup
  past : ∀ t o, (t, o) ∈ s.history → t < s.asked.length ∧ ∀ id, t ∉ s.waiting id
  once : (s.history.map Prod.fst).Nodup
  sent : ∀ t id o, s.Calls t id → (t, o) ∈ s.history →
    ∃ a, o = .sent [a] (some a)
  kept : ∀ t id, s.Calls t id → t ∈ s.waiting id ∨ ∃ o, (t, o) ∈ s.history
  alone : ∀ t id, s.Calls t id → t ∈ s.waiting id → s.Alone id
  waits : ∀ t id, s.Calls t id → t ∈ s.waiting id →
    s.tables.address id ≠ none → ∃ co subscribed rest,
      s.handlers co = some (.subscribing subscribed rest) ∧ id ∈ subscribed

section Kept

variable {s s' : Daemon} {t random : Nat} {id : Text} {sending : Sending}

theorem attend_eq (s : Daemon) (random t : Nat) : s.attend random t = { s with
    history := s.history ++ ((s.asked[t]?).map fun r => (t, s.outcome random r.1 r.2)).toList } := by
  rw [attend]
  cases s.asked[t]? with
  | none => simp
  | some r => rfl

theorem foldl_attend (again : Nat → Nat) (ts : List Nat) (s : Daemon) :
    ts.foldl (fun s t => s.attend (again t) t) s = { s with
      history := s.history ++ ts.filterMap fun t =>
        (s.asked[t]?).map fun r => (t, s.outcome (again t) r.1 r.2) } := by
  induction ts generalizing s with
  | nil => simp
  | cons t ts ih =>
      rw [List.foldl_cons, ih, attend_eq]
      cases had : s.asked[t]? <;> simp [had, outcome]

/-- The node of a subscribed id is found and has the address in the table. -/
theorem found_of_subscribed (random : Nat) (agrees : s.tables.Agrees) {conf : Conf}
    (sub : s.tables.address id = some conf) :
    ∃ n, s.tables.matcher random id = some (.node n) ∧ n.value = some conf := by
  obtain ⟨n, found, set_⟩ := Option.map_eq_some_iff.1 (agrees.held id conf sub)
  have plain : Plain id := agrees.plain id (by simp [sub])
  exact ⟨n, (matcher_eq_node plain).2 found, set_⟩

theorem outcome_call (agrees : s.tables.Agrees) {conf : Conf}
    (sub : s.tables.address id = some conf) :
    s.outcome random id .call = .sent [conf.addr] (some conf.addr) := by
  obtain ⟨n, found, set_⟩ := found_of_subscribed random agrees sub
  simp [outcome, found, Sending.serve, set_, sub]

/-- Nothing is found for an id that is not subscribed and not on the way to one. -/
theorem Alone.not_found (alone : s.Alone id) (random : Nat) (agrees : s.tables.Agrees) (plain : Plain id)
    (out : s.tables.address id = none) : s.tables.matcher random id = none := by
  rw [matcher_plain plain]
  cases found : s.tables.root.find (components id) with
  | none => rfl
  | some n =>
      rcases agrees.grown (components id) (by simp [PathTree.valueAt, found]) with root | on
      · exact absurd root alone.1
      · obtain ⟨other, sub, before⟩ := on
        exact absurd out (alone.2 other sub before ▸ sub)

theorem begins_kept (start_ : s.begins) : s.Kept := by
  obtain ⟨tables, waiting, handlers, asked, history⟩ := start_
  have quiet : ∀ t id, ¬ s.Calls t id := by simp [Calls, asked]
  exact {
    agrees := start_agrees tables
    plain := fun t id call => absurd call (quiet t id)
    queued := by simp [waiting]
    nodup := by simp [waiting]
    past := by simp [history]
    once := by simp [history]
    sent := fun t id _ call => absurd call (quiet t id)
    kept := fun t id call => absurd call (quiet t id)
    alone := fun t id call => absurd call (quiet t id)
    waits := fun t id call => absurd call (quiet t id) }

/-- A handler that is not in the middle of a subscription changes. -/
theorem Kept.setHandler (h : s.Kept) {co : Nat} {handler : Option Handler}
    (free : ∀ subscribed rest, s.handlers co ≠ some (.subscribing subscribed rest)) :
    (s.setHandler co handler).Kept := by
  refine { h with waits := fun t id call waits sub => ?_ }
  obtain ⟨co', subscribed, rest, busy, inside⟩ := h.waits t id call waits sub
  have other : co' ≠ co := fun same => free subscribed rest (same ▸ busy)
  exact ⟨co', subscribed, rest, (Function.update_of_ne other ..).trans busy, inside⟩

theorem asked_append {request r : Text × Sending} :
    (s.asked ++ [request])[t]? = some r ↔
      s.asked[t]? = some r ∨ t = s.asked.length ∧ r = request := by
  rcases lt_trichotomy t s.asked.length with old | new | out
  · rw [List.getElem?_append_left old]
    simp [Nat.ne_of_lt old]
  · simp [new, eq_comm]
  · rw [List.getElem?_eq_none (by simpa using Nat.succ_le_of_lt out), List.getElem?_eq_none (Nat.le_of_lt out)]
    simp [Nat.ne_of_gt out]

theorem not_calls : ¬ s.Calls s.asked.length id := by simp [Calls]

theorem Kept.not_waiting (h : s.Kept) (id : Text) : s.asked.length ∉ s.waiting id := by
  intro waits
  obtain ⟨_, had⟩ := h.queued id _ waits
  rw [List.getElem?_eq_none le_rfl] at had
  cases had

theorem Kept.not_past (h : s.Kept) (o : Outcome) : (s.asked.length, o) ∉ s.history :=
  fun past => lt_irrefl _ (h.past _ o past).1

/-- A new request that ends at once. -/
theorem Kept.attended (h : s.Kept) (o : Outcome)
    (fine : sending = .call → '*' ∉ id ∧ Plain id ∧ ∃ a, o = .sent [a] (some a)) :
    Kept { s with
      asked := s.asked ++ [(id, sending)]
      history := s.history ++ [(s.asked.length, o)] } := by
  have new : ∀ {t o'}, (t, o') ∈ s.history ++ [(s.asked.length, o)] ↔
      (t, o') ∈ s.history ∨ t = s.asked.length ∧ o' = o := by simp
  refine { h with
    plain := fun t id' call => ?_
    queued := fun id' t waits => ?_
    past := fun t o' past => ?_
    once := ?_
    sent := fun t id' o' call past => ?_
    kept := fun t id' call => ?_
    alone := fun t id' call waits => ?_
    waits := fun t id' call waits => ?_ }
  · rcases asked_append.1 call with call | ⟨_, same⟩
    · exact h.plain t id' call
    · cases same
      exact ⟨(fine rfl).1, (fine rfl).2.1⟩
  · obtain ⟨sending', had⟩ := h.queued id' t waits
    exact ⟨sending', asked_append.2 (.inl had)⟩
  · rw [List.length_append, List.length_singleton]
    rcases new.1 past with past | ⟨rfl, _⟩
    · exact ⟨Nat.lt_succ_of_lt (h.past t o' past).1, (h.past t o' past).2⟩
    · exact ⟨Nat.lt_succ_self _, h.not_waiting⟩
  · rw [List.map_append, List.nodup_append_comm]
    refine List.nodup_cons.2 ⟨fun inside => ?_, h.once⟩
    obtain ⟨⟨t, o'⟩, past, rfl⟩ := List.mem_map.1 inside
    exact h.not_past o' past
  · rcases asked_append.1 call with call | ⟨rfl, same⟩
    · rcases new.1 past with past | ⟨rfl, _⟩
      · exact h.sent t id' o' call past
      · exact absurd call not_calls
    · cases same
      rcases new.1 past with past | ⟨_, rfl⟩
      · exact absurd past (h.not_past o')
      · exact (fine rfl).2.2
  · rcases asked_append.1 call with call | ⟨rfl, _⟩
    · exact (h.kept t id' call).imp_right fun ⟨o', past⟩ => ⟨o', new.2 (.inl past)⟩
    · exact .inr ⟨o, new.2 (.inr ⟨rfl, rfl⟩)⟩
  · rcases asked_append.1 call with call | ⟨rfl, _⟩
    · exact h.alone t id' call waits
    · exact absurd waits (h.not_waiting id')
  · rcases asked_append.1 call with call | ⟨rfl, _⟩
    · exact h.waits t id' call waits
    · exact absurd waits (h.not_waiting id')

/-- A new request that waits. -/
theorem Kept.waited (h : s.Kept)
    (fine : sending = .call → '*' ∉ id ∧ Plain id ∧ s.tables.address id = none ∧ s.Alone id) :
    Kept { s with
      asked := s.asked ++ [(id, sending)]
      waiting := Function.update s.waiting id (s.waiting id ++ [s.asked.length]) } := by
  have new : ∀ {t id'}, t ∈ Function.update s.waiting id (s.waiting id ++ [s.asked.length]) id' ↔
      t ∈ s.waiting id' ∨ t = s.asked.length ∧ id' = id := by
    intro t id'
    by_cases same : id' = id
    · subst same
      simp
    · simp [same]
  -- Whoever waits as a call either did so before or is the new one.
  have split : ∀ {t id'}, Calls { s with asked := s.asked ++ [(id, sending)] } t id' →
      t ∈ Function.update s.waiting id (s.waiting id ++ [s.asked.length]) id' →
      s.Calls t id' ∧ t ∈ s.waiting id' ∨ sending = .call ∧ id' = id := by
    intro t id' call waits
    rcases asked_append.1 call with call | ⟨rfl, same⟩
    · rcases new.1 waits with waits | ⟨rfl, _⟩
      · exact .inl ⟨call, waits⟩
      · exact absurd call not_calls
    · cases same
      exact .inr ⟨rfl, rfl⟩
  refine { h with
    plain := fun t id' call => ?_
    queued := fun id' t waits => ?_
    nodup := fun id' => ?_
    past := fun t o past => ?_
    sent := fun t id' o call past => ?_
    kept := fun t id' call => ?_
    alone := fun t id' call waits => ?_
    waits := fun t id' call waits sub => ?_ }
  · rcases asked_append.1 call with call | ⟨_, same⟩
    · exact h.plain t id' call
    · cases same
      exact ⟨(fine rfl).1, (fine rfl).2.1⟩
  · rcases new.1 waits with waits | ⟨rfl, rfl⟩
    · obtain ⟨sending', had⟩ := h.queued id' t waits
      exact ⟨sending', asked_append.2 (.inl had)⟩
    · exact ⟨sending, asked_append.2 (.inr ⟨rfl, rfl⟩)⟩
  · by_cases same : id' = id
    · subst same
      simp only [Function.update_self]
      rw [List.nodup_append_comm]
      exact List.nodup_cons.2 ⟨h.not_waiting id', h.nodup id'⟩
    · simpa [same] using h.nodup id'
  · rw [List.length_append]
    refine ⟨Nat.lt_succ_of_lt (h.past t o past).1, fun id' waits => ?_⟩
    rcases new.1 waits with waits | ⟨rfl, _⟩
    · exact (h.past t o past).2 id' waits
    · exact h.not_past o past
  · rcases asked_append.1 call with call | ⟨rfl, _⟩
    · exact h.sent t id' o call past
    · exact absurd past (h.not_past o)
  · rcases asked_append.1 call with call | ⟨rfl, same⟩
    · exact (h.kept t id' call).imp_left fun waits => new.2 (.inl waits)
    · cases same
      exact .inl (new.2 (.inr ⟨rfl, rfl⟩))
  · rcases split call waits with ⟨call, waits⟩ | ⟨is, rfl⟩
    · exact h.alone t id' call waits
    · exact (fine is).2.2.2
  · rcases split call waits with ⟨call, waits⟩ | ⟨is, rfl⟩
    · exact h.waits t id' call waits sub
    · exact absurd (fine is).2.2.1 sub

theorem Kept.arrive (h : s.Kept)
    (guard : sending = .call → '*' ∉ id ∧ Plain id ∧ (s.tables.address id = none → s.Alone id)) :
    (s.arrive id sending random).Kept := by
  rw [Daemon.arrive]
  cases found : s.tables.matcher random id with
  | some n =>
      have new : (s.asked ++ [(id, sending)])[s.asked.length]? = some (id, sending) := by simp
      simp only [attend_eq, new, Option.map_some, Option.toList_some]
      refine h.attended (s.outcome random id sending) fun is => ?_
      subst is
      obtain ⟨text, plain, alone⟩ := guard rfl
      refine ⟨text, plain, ?_⟩
      cases sub : s.tables.address id with
      | none => simp [(alone sub).not_found _ h.agrees plain sub] at found
      | some conf => exact ⟨conf.addr, outcome_call h.agrees sub⟩
  | none =>
      refine h.waited fun is => ?_
      obtain ⟨text, plain, alone⟩ := guard is
      refine ⟨text, plain, ?_⟩
      cases sub : s.tables.address id with
      | none => exact ⟨rfl, alone sub⟩
      | some conf =>
          obtain ⟨n, there, _⟩ := found_of_subscribed random h.agrees sub
          simp [found] at there

/-- A handler of `subscribe` that has subscribed one more id. -/
theorem Kept.subscribed (h : s.Kept) {co : Nat} {subscribed : List Text} {sid : Text}
    {rest' : List (Text × Handle)} (rest : List (Text × Handle)) (addr : Addr) (names : Text → Bool)
    (busy : s.handlers co = some (.subscribing subscribed rest'))
    (plain : Plain sid) (one : s.tables.OneSpelling sid)
    (apart : ∀ id, ∀ t ∈ s.waiting id, s.Calls t id →
      components id <+: components sid → sid = id) :
    Kept { s.setHandler co (some (.subscribing (sid :: subscribed) rest)) with
      tables := s.tables.doSub sid addr
      registerName := names } := by
  have table : ∀ id, (s.tables.doSub sid addr).address id ≠ none →
      id = sid ∨ s.tables.address id ≠ none := by
    intro id sub
    by_cases same : id = sid
    · exact .inl same
    · exact .inr (by simpa [State.doSub, same] using sub)
  refine { h with
    agrees := h.agrees.doSub addr plain one
    alone := fun t id call waits => ⟨(h.alone t id call waits).1, fun other sub before => ?_⟩
    waits := fun t id call waits sub => ?_ }
  · rcases table other sub with rfl | sub
    · exact apart id t waits call before
    · exact (h.alone t id call waits).2 other sub before
  · rcases table id sub with rfl | sub
    · exact ⟨co, id :: subscribed, rest, Function.update_self .., List.mem_cons_self ..⟩
    · obtain ⟨co', ids, rest₁, had, inside⟩ := h.waits t id call waits sub
      by_cases same : co' = co
      · subst same
        rw [busy] at had
        cases had
        exact ⟨co', _, _, Function.update_self .., List.mem_cons_of_mem _ inside⟩
      · exact ⟨co', ids, rest₁, (Function.update_of_ne same ..).trans had, inside⟩

theorem Kept.sub (h : s.Kept) {co : Nat} {subscribed : List Text} {sid : Text} {handle : Handle}
    {rest : List (Text × Handle)}
    (busy : s.handlers co = some (.subscribing subscribed ((sid, handle) :: rest)))
    (plain : Plain sid) (one : s.tables.OneSpelling sid) (fine : s.Fine sid handle)
    (apart : ∀ id, ∀ t ∈ s.waiting id, s.Calls t id →
      components id <+: components sid → sid = id) :
    (s.sub co subscribed sid handle rest).Kept := by
  have changed := fun addr names => h.subscribed rest addr names busy plain one apart
  cases handle with
  | number n =>
      have free : s.registerName sid = false := fine
      simp only [Daemon.sub, State.sub, free]
      exact changed (.handle n) _
  | string name => exact changed (.name name) _
  | table provider addr =>
      have other : s.tables.selfprovider ≠ some provider := fine
      simp only [Daemon.sub, State.sub, if_neg other]
      exact changed _ _

/-- The ids whose queues `wakeup` empties. -/
def woken (s : Daemon) (order : List Text) (check : Text → Nat) : List Text :=
  order.filter fun id => (s.tables.matcher (check id) id).isSome

theorem wakeup_eq (s : Daemon) (order : List Text) (check : Text → Nat) (again : Nat → Nat) :
    s.wakeup order check again = { s with
      waiting := fun id => if id ∈ s.woken order check then [] else s.waiting id
      history := s.history ++ ((s.woken order check).flatMap s.waiting).filterMap fun t =>
        (s.asked[t]?).map fun r => (t, s.outcome (again t) r.1 r.2) } := by
  rw [Daemon.wakeup, foldl_attend]
  rfl

/-- Nobody is left who waits for an id that is subscribed. -/
theorem woken_of_subscribed {order : List Text} {check : Text → Nat} (agrees : s.tables.Agrees)
    (all : ∀ id, s.waiting id ≠ [] → id ∈ order) (sub : s.tables.address id ≠ none)
    (waits : t ∈ s.waiting id) : id ∈ s.woken order check := by
  obtain ⟨conf, sub⟩ := Option.ne_none_iff_exists'.1 sub
  obtain ⟨n, found, _⟩ := found_of_subscribed (check id) agrees sub
  exact List.mem_filter.2 ⟨all id (List.ne_nil_of_mem waits), by rw [found]; rfl⟩

/-- Whoever waits for an id that is found is woken, and sent where the table says. -/
theorem Kept.wakeup (h : s.Kept) {co : Nat} {order : List Text} {check : Text → Nat}
    {again : Nat → Nat} (pairs : s.Pairs (.wakeup co order check again)) :
    ((s.setHandler co none).wakeup order check again).Kept := by
  let ids := s.woken order check
  let ended := fun t => (s.asked[t]?).map fun r => (t, s.outcome (again t) r.1 r.2)
  have closed : (s.setHandler co none).wakeup order check again = { s with
      handlers := Function.update s.handlers co none
      waiting := fun id => if id ∈ ids then [] else s.waiting id
      history := s.history ++ (ids.flatMap s.waiting).filterMap ended } := wakeup_eq ..
  rw [closed]
  have found : ∀ id ∈ ids, (s.tables.matcher (check id) id).isSome :=
    fun id inside => (List.mem_filter.1 inside).2
  have left : ∀ {t id}, t ∈ (if id ∈ ids then [] else s.waiting id) ↔
      id ∉ ids ∧ t ∈ s.waiting id := by
    intro t id
    by_cases inside : id ∈ ids <;> simp [inside]
  have new : ∀ {t o}, (t, o) ∈ s.history ++ (ids.flatMap s.waiting).filterMap ended ↔
      (t, o) ∈ s.history ∨ ∃ id ∈ ids, t ∈ s.waiting id ∧ ended t = some (t, o) := by
    intro t o
    rw [List.mem_append, List.mem_filterMap]
    refine or_congr_right ⟨?_, ?_⟩
    · rintro ⟨t', inside, is⟩
      obtain ⟨id, at_, waits⟩ := List.mem_flatMap.1 inside
      obtain ⟨r, had, same⟩ := Option.map_eq_some_iff.1 is
      cases same
      exact ⟨id, at_, waits, is⟩
    · rintro ⟨id, inside, waits, is⟩
      exact ⟨t, List.mem_flatMap.2 ⟨id, inside, waits⟩, is⟩
  have queue : (ids.flatMap s.waiting).Nodup := by
    rw [List.nodup_flatMap]
    refine ⟨fun id _ => h.nodup id, (pairs.1.filter _).imp fun apart t here there => ?_⟩
    obtain ⟨_, had⟩ := h.queued _ t here
    obtain ⟨_, had'⟩ := h.queued _ t there
    rw [had] at had'
    cases had'
    exact apart rfl
  have once : ((ids.flatMap s.waiting).filterMap fun t => (ended t).map Prod.fst).Nodup := by
    refine queue.filterMap fun t t' b is is' => ?_
    obtain ⟨_, ended_, rfl⟩ := Option.map_eq_some_iff.1 is
    obtain ⟨_, ended', same⟩ := Option.map_eq_some_iff.1 is'
    obtain ⟨_, _, rfl⟩ := Option.map_eq_some_iff.1 ended_
    obtain ⟨_, _, rfl⟩ := Option.map_eq_some_iff.1 ended'
    exact same.symm
  refine ⟨h.agrees, h.plain, fun id t waits => h.queued id t (left.1 waits).2, fun id => ?_,
    fun t o past => ?_, ?_, fun t id o call past => ?_, fun t id call => ?_,
    fun t id call waits => h.alone t id call (left.1 waits).2, fun t id call waits sub => ?_⟩
  · dsimp only
    split
    · exact List.nodup_nil
    · exact h.nodup id
  · rcases new.1 past with past | ⟨id, inside, waits, _⟩
    · exact ⟨(h.past t o past).1, fun id' waits => (h.past t o past).2 id' (left.1 waits).2⟩
    · obtain ⟨sending, had⟩ := h.queued id t waits
      refine ⟨(List.getElem?_eq_some_iff.1 had).1, fun id' waits' => ?_⟩
      obtain ⟨_, had'⟩ := h.queued id' t (left.1 waits').2
      rw [had] at had'
      cases had'
      exact (left.1 waits').1 inside
  · rw [List.map_append, List.map_filterMap, List.nodup_append']
    refine ⟨h.once, once, fun t old inside => ?_⟩
    obtain ⟨⟨_, o⟩, past, rfl⟩ := List.mem_map.1 old
    obtain ⟨t', inside, is⟩ := List.mem_filterMap.1 inside
    obtain ⟨id, _, waits⟩ := List.mem_flatMap.1 inside
    obtain ⟨_, ended_, same⟩ := Option.map_eq_some_iff.1 is
    obtain ⟨_, _, rfl⟩ := Option.map_eq_some_iff.1 ended_
    cases same
    exact (h.past _ o past).2 id waits
  · have call : s.Calls t id := call
    rcases new.1 past with past | ⟨id', inside, waits, is⟩
    · exact h.sent t id o call past
    · obtain ⟨_, had⟩ := h.queued id' t waits
      rw [call] at had
      cases had
      cases sub : s.tables.address id with
      | none =>
          have out := (h.alone t id call waits).not_found (check id) h.agrees (h.plain t id call).2
            sub
          simpa [out] using found id inside
      | some conf =>
          have told : o = s.outcome (again t) id .call := by simpa [ended, call, eq_comm] using is
          exact ⟨conf.addr, told.trans (outcome_call h.agrees sub)⟩
  · have call : s.Calls t id := call
    rcases h.kept t id call with waits | ⟨o, past⟩
    · by_cases inside : id ∈ ids
      · refine .inr ⟨s.outcome (again t) id .call, new.2 (.inr ⟨id, inside, waits, ?_⟩)⟩
        simp only [ended, call, Option.map_some]
      · exact .inl (left.2 ⟨inside, waits⟩)
    · exact .inr ⟨o, new.2 (.inl past)⟩
  · exact absurd (woken_of_subscribed h.agrees pairs.2 sub (left.1 waits).2) (left.1 waits).1

theorem Kept.step (h : s.Kept) {event : Event} (guard : s.Guarded event)
    (moved : s.Moves event s') : s'.Kept := by
  obtain ⟨pairs, moved⟩ := moved
  cases event with
  | localprovider name =>
      cases moved
      exact { h with agrees := { h.agrees with } }
  | register name =>
      cases moved
      exact { h with }
  | call id random =>
      obtain ⟨text, plain, alone⟩ := guard
      rw [Daemon.step, if_neg text] at moved
      cases moved
      exact h.arrive fun _ => ⟨text, plain, alone⟩
  | publish id random =>
      cases moved
      exact h.arrive fun is => by cases is
  | subscribe co services =>
      rw [Daemon.step] at moved
      split at moved
      · rename_i idle
        cases moved
        exact h.setHandler fun _ _ => by simp [idle]
      · cases moved
  | sub co =>
      rw [Daemon.step] at moved
      split at moved
      · rename_i subscribed sid handle rest busy
        split at moved
        · cases moved
        · cases moved
          obtain ⟨plain, one, fine, apart⟩ := guard subscribed sid handle rest busy
          exact h.sub busy plain one fine apart
      · cases moved
  | wakeup co order check again =>
      rw [Daemon.step] at moved
      split at moved
      · cases moved
        exact h.wakeup pairs
      · cases moved
  | unsubscribe co sids =>
      rw [Daemon.step] at moved
      split at moved
      · rename_i idle
        cases moved
        exact h.setHandler fun _ _ => by simp [idle]
      · cases moved
  | unsub co random =>
      rw [Daemon.step] at moved
      split at moved
      · rename_i sid rest busy
        cases moved
        rw [Daemon.unsub, doUnsub_eq (guard sid rest busy)]
        exact h.setHandler fun _ _ => by simp [busy]
      · cases moved

theorem Kept.served (h : s.Kept) : s.Served where
  sent := h.sent
  once := h.once
  kept t id call := by
    constructor
    · exact fun waits o past => (h.past t o past).2 id waits
    · exact fun open_ => (h.kept t id call).resolve_right fun ⟨o, past⟩ => open_ o past
  waits := h.waits
  resumes co order check again s' moved id sub := by
    obtain ⟨pairs, moved⟩ := moved
    rw [Daemon.step] at moved
    split at moved
    · cases moved
      rw [wakeup_eq, List.eq_nil_iff_forall_not_mem]
      intro t waits
      dsimp only at waits
      split at waits
      · cases waits
      · rename_i left
        exact left (woken_of_subscribed h.agrees pairs.2 sub waits)
    · cases moved

end Kept

/-- In every run that meets the condition. -/
theorem callers_served {s : Daemon} (reached : Runs.Reaches begins Moves Guarded s) :
    s.Served := by
  have kept : s.Kept := by
    apply reached.invariant
    · exact fun _ => begins_kept
    · exact fun _ _ _ h guard moved => h.step guard moved
  exact kept.served

/-- A daemon that has just been started. -/
def first : Daemon := ⟨⟨createnode, fun _ => none, none⟩, fun _ => false, fun _ => [],
  fun _ => none, [], []⟩

theorem first_begins : first.begins :=
  ⟨⟨rfl, fun _ => rfl⟩, fun _ => rfl, fun _ => rfl, rfl, rfl⟩

/-- A call comes before the subscription of its id, which then wakes it. -/
def early : Daemon := first.arrive ['a'] .call 0

def earlySubscribed : Daemon :=
  (early.setHandler 0 (some (.subscribing [] [(['a'], .number 7)]))).sub 0 [] ['a'] (.number 7) []

theorem early_caller_woken :
    let woken := (earlySubscribed.setHandler 0 none).wakeup [['a']] (fun _ => 0) fun _ => 0
    woken.Served ∧ woken.history = [(0, .sent [.handle 7] (some (.handle 7)))] := by
  refine ⟨callers_served ?_, by decide⟩
  have waits : ∀ id t, t ∈ early.waiting id → id = ['a'] := by
    intro id t
    rw [show early.waiting = Function.update first.waiting ['a'] [0] from rfl, Function.update_apply]
    split
    · exact fun _ => ‹id = ['a']›
    · exact fun inside => absurd inside List.not_mem_nil
  refine .next (s := earlySubscribed) (.wakeup 0 [['a']] (fun _ => 0) fun _ => 0)
    (.next (s := early.setHandler 0 (some (.subscribing [] [(['a'], .number 7)]))) (.sub 0)
      (.next (s := early) (.subscribe 0 [(['a'], .number 7)])
        (.next (s := first) (.call ['a'] 0) (.start first_begins)
          ⟨by decide, by decide, fun _ => ⟨by decide, fun _ sub => absurd rfl sub⟩⟩ ⟨trivial, rfl⟩)
        trivial ⟨trivial, rfl⟩) ?_ ⟨trivial, rfl⟩) trivial ⟨⟨by decide, fun id some_ => ?_⟩, rfl⟩
  · intro subscribed sid handle rest is
    change some (Handler.subscribing [] [(['a'], Handle.number 7)]) = _ at is
    cases is
    exact ⟨by decide, fun other had => absurd rfl had, rfl,
      fun id t inside _ _ => (waits id t inside).symm⟩
  · obtain ⟨t, inside⟩ := List.exists_mem_of_ne_nil _ some_
    exact List.mem_singleton.2 (waits id t inside)

/-- `a.b` is subscribed, so that a call of `a` finds a node without an address and fails. -/
theorem call_of_prefix : ¬ ∀ s, Runs.Reachable begins Moves s → s.Served := by
  intro all
  let asked := first.setHandler 0 (some (.subscribing [] [(ab, .number 1)]))
  let subscribed := asked.sub 0 [] ab (.number 1) []
  let called := subscribed.arrive ['a'] .call 0
  have reached : Runs.Reachable begins Moves called :=
    .next (s := subscribed) (.call ['a'] 0)
      (.next (s := asked) (.sub 0)
        (.next (s := first) (.subscribe 0 [(ab, .number 1)]) (.start first_begins) trivial
          ⟨trivial, rfl⟩)
        trivial ⟨trivial, by rfl⟩)
      trivial ⟨trivial, by rfl⟩
  obtain ⟨a, is⟩ := (all called reached).sent 0 ['a'] .failed (by rfl)
    (List.mem_singleton.2 rfl)
  cases is

end Daemon

end FkServer.Channeld
