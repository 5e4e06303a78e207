import FkServer.Library.Runs
import Mathlib.Data.List.Basic
import Mathlib.Logic.Function.Basic

/-!
`queued.lua`: the sessions of the players. `Login`, `S` and `C` of one player take turns in a
`skynet.queue`; `Quit` and `GoServer` do not, and may come whenever a `Login` waits for an answer.
-/
namespace FkServer.Queued

/-- A session object. -/
structure Session where
  gate : Option Nat
  server : Option Nat

inductive Request
  | login (gate : Nat)
  /-- `S` or `C` -/
  | send
deriving DecidableEq

/-- Which answer a `Login` waits for; `s` is the session object it holds. -/
inductive At
  | kickout (s : Nat)
  | lobbies (s : Nat)
  /-- The gate is written to the object and is being written to Redis. -/
  | gateStored (s : Nat)
  /-- `LS_LoginNotify` of the game the player was in. -/
  | rejoin (s : Nat)
  | lobbyId
  /-- `LS_LoginNotify` of the lobby. -/
  | notify (s server : Nat)
  /-- The lobby has agreed and the gate is being written to Redis. -/
  | stored (s server : Nat)

/-- The `Login` has not come to its session yet. -/
def At.Early : At → Prop
  | .kickout _ | .lobbies _ => True
  | _ => False

/-- The `Login` has written its gate to this object, and goes back to its server. -/
def At.Wrote (s : Nat) : At → Prop
  | .gateStored s' | .rejoin s' => s' = s
  | _ => False

/-- What the coroutine does that has the turn. -/
inductive Stage
  | woken
  | login (gate : Nat) (wait : At)
  | calling

/-- A message was sent on and is not answered. -/
def Stage.calls : Stage → Bool
  | .calling => true
  | .woken | .login _ _ => false

/-- The last `Login` that was a success and has not been undone by a `Quit`, with the server it
returned or a later `GoServer` named. -/
structure Won where
  gate : Nat
  server : Option Nat

/-- A request that was sent on, and what was promised then. -/
structure Delivery where
  ticket : Nat
  server : Nat
  won : Option Won

/-- All that `queued.lua` has of one player. The session objects are numbered as they are made,
the requests in the queue as they came in; `asked`, `log`, `dropped`, `flight`, `written` and `won`
are the history. -/
structure Player where
  session : Option Nat
  object : Nat → Session
  made : Nat
  current : Option (Nat × Stage)
  threadQueue : List Nat
  asked : List Request
  log : List Delivery
  /-- Requests that found no session or no server. -/
  dropped : List (Nat × Option Won)
  /-- Requests that are sent on and not answered yet. -/
  flight : List Nat
  /-- The object whose gate the `Login` in progress has overwritten, and that gate. -/
  written : Option (Nat × Option Nat)
  won : Option Won

/-- What a `Login`'s call brings back, or that it fails. -/
inductive Answer
  | done
  | lobbies (all : Nat → Bool)
  | lobbyId (server : Nat)
  | result (success : Bool)
  | reconnect (success : Bool)
  | error

inductive Event
  | request (r : Request)
  /-- The coroutine that has the turn begins. -/
  | turn
  | answer (a : Answer)
  | quit
  | goServer (dest : Nat)

namespace Player

variable (p : Player)

def setObject (s : Nat) (session : Session) : Player :=
  { p with object := Function.update p.object s session }

/-- `xpcall_ret` of the queue. -/
def finish : Player :=
  match p.threadQueue with
  | [] => { p with current := none, written := none }
  | t :: rest => { p with
      current := some (t, .woken)
      threadQueue := rest
      written := none }

def wait (t gate : Nat) (wait : At) : Player :=
  { p with current := some (t, .login gate wait) }

def drop (t : Nat) : Player := { p with dropped := p.dropped ++ [(t, p.won)] }.finish

/-- The function given to the queue runs up to its first call. -/
def begin_ (t : Nat) : Player :=
  match p.asked[t]? with
  | none => p
  | some (.login gate) =>
      match p.session with
      | none => p.wait t gate .lobbyId
      | some s =>
          if (p.object s).gate.any fun old => old != gate then p.wait t gate (.kickout s)
          else p.wait t gate (.lobbies s)
  | some .send =>
      match p.session with
      | none => p.drop t
      | some s =>
          match (p.object s).server with
          | none => p.drop t
          | some server => { p with
              current := some (t, .calling)
              log := p.log ++ [⟨t, server, p.won⟩]
              flight := t :: p.flight }

/-- `Login` returns success. -/
def succeed (gate : Nat) (server : Option Nat) : Player :=
  { p with won := some ⟨gate, server⟩ }.finish

/-- `Login` goes on with an answer. -/
def goOn (t gate : Nat) : At → Answer → Option Player
  | _, .error => some p.finish
  | .kickout s, .done => some (p.wait t gate (.lobbies s))
  | .lobbies s, .lobbies all =>
      match (p.object s).server with
      | none => some (p.wait t gate .lobbyId)
      | some server =>
          if all server then some (p.wait t gate .lobbyId)
          else some { (p.setObject s { p.object s with gate := some gate }).wait t gate
              (.gateStored s) with written := some (s, (p.object s).gate) }
  | .gateStored s, .done => some (p.wait t gate (.rejoin s))
  | .rejoin s, .reconnect true => some (p.succeed gate (p.object s).server)
  | .rejoin _, .reconnect false => some (p.wait t gate .lobbyId)
  | .lobbyId, .lobbyId server =>
      match p.session with
      | some s => some (p.wait t gate (.notify s server))
      | none => some { (p.setObject p.made ⟨none, none⟩).wait t gate (.notify p.made server) with
          session := some p.made
          made := p.made + 1 }
  | .notify s server, .result true => some (p.wait t gate (.stored s server))
  | .notify _ _, .result false => some p.finish
  | .stored s server, .done =>
      some ((p.setObject s ⟨some gate, some server⟩).succeed gate (some server))
  | _, _ => none

def goServer (dest : Nat) : Player :=
  match p.session with
  | none => p
  | some s => { p.setObject s { p.object s with server := some dest } with
      won := p.won.map fun w => { w with server := some dest } }

def step : Event → Option Player
  | .request r =>
      let t := p.asked.length
      match p.current with
      | none => some { p with asked := p.asked ++ [r], current := some (t, .woken) }
      | some _ => some { p with asked := p.asked ++ [r], threadQueue := p.threadQueue ++ [t] }
  | .turn =>
      match p.current with
      | some (t, .woken) => some (p.begin_ t)
      | _ => none
  | .answer a =>
      match p.current with
      | some (t, .login gate wait) => p.goOn t gate wait a
      | some (t, .calling) => some { p with flight := p.flight.erase t }.finish
      | _ => none
  | .quit => some { p with session := none, won := none }
  | .goServer dest => some (p.goServer dest)

/-- A success is returned for the session in place, and a `Login` that has overwritten the gate of
the session in place of a logged-in player does not fail. -/
def Fine (p : Player) (gate : Nat) : At → Answer → Prop
  | .rejoin s, .reconnect true | .stored s _, .done => p.session = some s
  | .notify _ _, .result false | _, .error => ∀ s old, p.written = some (s, old) →
      p.session = some s → p.won ≠ none → old = some gate
  | _, _ => True

def Guarded (p : Player) : Event → Prop
  | .answer a => ∀ t gate wait, p.current = some (t, .login gate wait) → p.Fine gate wait a
  | _ => True

/-- `p` has the session it was promised, and its requests are sent on. -/
structure Served (p : Player) : Prop where
  /-- While a later `Login` waits for the game, its gate may be in the session. -/
  session : ∀ w, p.won = some w → ∃ s server, p.session = some s ∧
    (p.object s).server = some server ∧ w.server = some server ∧
    ((p.object s).gate = some w.gate ∨ ∃ t gate wait, p.current = some (t, .login gate wait) ∧
      (p.object s).gate = some gate ∧ p.written = some (s, some w.gate))
  sent : ∀ d ∈ p.log, ∀ w, d.won = some w → w.server = some d.server
  dropped : ∀ d ∈ p.dropped, d.2 = none
  order : (p.log.map Delivery.ticket).Pairwise (· < ·)
  one : p.flight.length ≤ 1
  kept : ∀ t, p.asked[t]? = some .send → t ∈ p.threadQueue ∨ (∃ stage, p.current = some (t, stage)) ∨
    (∃ d ∈ p.log, d.ticket = t) ∨ ∃ d ∈ p.dropped, d.1 = t

/-! ### The turns -/

/-- The requests wait in the order they came in, behind those that are done. -/
structure InTurn (p : Player) : Prop where
  idle : p.current = none → p.threadQueue = []
  waiting : p.threadQueue.Pairwise (· < ·)
  first : ∀ t stage, p.current = some (t, stage) → ∀ t' ∈ p.threadQueue, t < t'
  known : ∀ t, t ∈ p.threadQueue ∨ (∃ stage, p.current = some (t, stage)) ∨
    (∃ d ∈ p.log, d.ticket = t) → t < p.asked.length
  older : ∀ d ∈ p.log, ∀ t ∈ p.threadQueue, d.ticket < t
  oldest : ∀ t stage, p.current = some (t, stage) → stage.calls = false →
    ∀ d ∈ p.log, d.ticket < t
  order : (p.log.map Delivery.ticket).Pairwise (· < ·)
  kept : ∀ t, p.asked[t]? = some .send → t ∈ p.threadQueue ∨ (∃ stage, p.current = some (t, stage)) ∨
    (∃ d ∈ p.log, d.ticket = t) ∨ ∃ d ∈ p.dropped, d.1 = t
  login : ∀ t gate wait, p.current = some (t, .login gate wait) → p.asked[t]? ≠ some .send
  calling : ∀ t, p.current = some (t, .calling) → ∃ d ∈ p.log, d.ticket = t

/-- Only the call of the coroutine that has the turn is not answered. -/
def Flying (p : Player) : Prop :=
  p.flight = match p.current with
    | some (t, .calling) => [t]
    | _ => []

section InTurn

variable {p p' : Player} {t : Nat} {stage stage' : Stage}

/-- What the queue is made of stays, but for what the coroutine that has the turn waits for. -/
theorem InTurn.of_same (h : p.InTurn) (current : p.current = some (t, stage))
    (current' : p'.current = some (t, stage')) (calls : stage'.calls = stage.calls)
    (fits : ∀ gate wait, stage' = .login gate wait → p.asked[t]? ≠ some .send)
    (queue : p'.threadQueue = p.threadQueue) (asked : p'.asked = p.asked) (log : p'.log = p.log)
    (dropped : ∀ d ∈ p.dropped, d ∈ p'.dropped) : p'.InTurn := by
  have same : ∀ t', (∃ stage, p'.current = some (t', stage)) ↔ ∃ stage, p.current = some (t', stage) := by
    intro t'
    simp [current, current']
  constructor
  · simp [current']
  · exact queue ▸ h.waiting
  · intro t' stage₁ is t'' waits
    rw [current'] at is
    cases is
    exact h.first t stage current t'' (queue ▸ waits)
  · intro t'
    rw [queue, same, log, asked]
    exact h.known t'
  · rw [log, queue]
    exact h.older
  · intro t' stage₁ is quiet
    rw [current'] at is
    cases is
    rw [log]
    exact h.oldest t stage current (calls ▸ quiet)
  · exact log ▸ h.order
  · intro t' send
    rw [asked] at send
    rw [queue, same, log]
    rcases h.kept t' send with waits | here | past | ⟨d, out, is⟩
    · exact .inl waits
    · exact .inr (.inl here)
    · exact .inr (.inr (.inl past))
    · exact .inr (.inr (.inr ⟨d, dropped d out, is⟩))
  · intro t' gate wait is
    rw [current'] at is
    cases is
    rw [asked]
    exact fits gate wait rfl
  · intro t' is
    rw [current'] at is
    cases is
    rw [log]
    cases stage with
    | calling => exact h.calling t current
    | woken | login gate wait => cases calls

/-- The next in the queue gets the turn. -/
theorem InTurn.finish (h : p.InTurn) (current : p.current = some (t, stage))
    (done : p.asked[t]? = some .send →
      (∃ d ∈ p.log, d.ticket = t) ∨ ∃ d ∈ p.dropped, d.1 = t) : p.finish.InTurn := by
  have settled : ∀ t', (∃ stage, p.current = some (t', stage)) → p.asked[t']? = some .send →
      (∃ d ∈ p.log, d.ticket = t') ∨ ∃ d ∈ p.dropped, d.1 = t' := by
    rintro t' ⟨stage', is⟩ send
    rw [current] at is
    cases is
    exact done send
  rw [Player.finish]
  cases queue : p.threadQueue with
  | nil =>
      have empty : ∀ t', t' ∉ p.threadQueue := by simp [queue]
      constructor
      · exact fun _ => rfl
      · exact .nil
      · simp
      · rintro t' (waits | ⟨_, is⟩ | past)
        · cases waits
        · cases is
        · exact h.known t' (.inr (.inr past))
      · simp
      · simp
      · exact h.order
      · intro t' send
        rcases h.kept t' send with waits | here | past
        · exact absurd waits (empty t')
        · exact .inr (.inr (settled t' here send))
        · exact .inr (.inr past)
      · simp
      · simp
  | cons next rest =>
      have order := h.waiting
      rw [queue] at order
      obtain ⟨first, order⟩ := List.pairwise_cons.1 order
      have still : ∀ t' ∈ rest, t' ∈ p.threadQueue :=
        fun t' waits => queue ▸ List.mem_cons_of_mem _ waits
      have next_ : next ∈ p.threadQueue := queue ▸ List.mem_cons_self ..
      constructor
      · simp
      · exact order
      · intro t' stage' is t'' waits
        cases is
        exact first t'' waits
      · rintro t' (waits | ⟨_, is⟩ | past)
        · exact h.known t' (.inl (still t' waits))
        · cases is
          exact h.known next (.inl next_)
        · exact h.known t' (.inr (.inr past))
      · exact fun d past t' waits => h.older d past t' (still t' waits)
      · intro t' stage' is _ d past
        cases is
        exact h.older d past next next_
      · exact h.order
      · intro t' send
        rcases h.kept t' send with waits | here | past
        · rw [queue] at waits
          rcases List.mem_cons.1 waits with rfl | waits
          · exact .inr (.inl ⟨.woken, rfl⟩)
          · exact .inl waits
        · exact .inr (.inr (settled t' here send))
        · exact .inr (.inr past)
      · simp
      · simp

/-- A new request gets the turn or queues up. -/
theorem InTurn.request (h : p.InTurn) {r : Request} (moved : p.step (.request r) = some p') :
    p'.InTurn := by
  have asked : ∀ {t'}, (p.asked ++ [r])[t']? = some .send →
      p.asked[t']? = some .send ∨ t' = p.asked.length := by
    intro t' send
    rcases Nat.lt_trichotomy t' p.asked.length with old | new | out
    · exact .inl (List.getElem?_append_left old ▸ send)
    · exact .inr new
    · rw [List.getElem?_eq_none (by simpa using Nat.succ_le_of_lt out)] at send
      cases send
  have new : ∀ d ∈ p.log, d.ticket < p.asked.length :=
    fun d past => h.known _ (.inr (.inr ⟨d, past, rfl⟩))
  rw [step] at moved
  cases current : p.current with
  | none =>
      rw [current] at moved
      cases moved
      have empty := h.idle current
      constructor
      · simp
      · exact h.waiting
      · simp [empty]
      · rw [List.length_append]
        rintro t' (waits | ⟨_, is⟩ | past)
        · exact Nat.lt_succ_of_lt (h.known t' (.inl waits))
        · cases is
          exact Nat.lt_succ_self _
        · exact Nat.lt_succ_of_lt (h.known t' (.inr (.inr past)))
      · exact h.older
      · intro t' stage is _ d past
        cases is
        exact new d past
      · exact h.order
      · intro t' send
        rcases asked send with send | rfl
        · rcases h.kept t' send with waits | ⟨_, is⟩ | past
          · exact .inl waits
          · rw [current] at is
            cases is
          · exact .inr (.inr past)
        · exact .inr (.inl ⟨.woken, rfl⟩)
      · simp
      · simp
  | some c =>
      rw [current] at moved
      cases moved
      rw [← current]
      have before : ∀ t' ∈ p.threadQueue, t' < p.asked.length := fun t' waits => h.known t' (.inl waits)
      constructor
      · simp [current]
      · refine List.pairwise_append.2 ⟨h.waiting, List.pairwise_singleton .., ?_⟩
        intro t' waits t'' last
        rw [List.mem_singleton.1 last]
        exact before t' waits
      · intro t' stage is t'' waits
        rcases List.mem_append.1 waits with waits | last
        · exact h.first t' stage is t'' waits
        · rw [List.mem_singleton.1 last]
          exact h.known t' (.inr (.inl ⟨stage, is⟩))
      · rw [List.length_append]
        rintro t' (waits | here)
        · rcases List.mem_append.1 waits with waits | last
          · exact Nat.lt_succ_of_lt (before t' waits)
          · rw [List.mem_singleton.1 last]
            exact Nat.lt_succ_self _
        · exact Nat.lt_succ_of_lt (h.known t' (.inr here))
      · intro d past t' waits
        rcases List.mem_append.1 waits with waits | last
        · exact h.older d past t' waits
        · rw [List.mem_singleton.1 last]
          exact new d past
      · exact h.oldest
      · exact h.order
      · intro t' send
        rcases asked send with send | rfl
        · exact (h.kept t' send).imp_left (List.mem_append_left _)
        · exact .inl (List.mem_append_right _ (List.mem_singleton.2 rfl))
      · intro t' gate wait is
        have old := h.known t' (.inr (.inl ⟨_, is⟩))
        rw [List.getElem?_append_left old]
        exact h.login t' gate wait is
      · exact h.calling

/-- The message of the coroutine that has the turn is sent on. -/
theorem InTurn.deliver (h : p.InTurn) (current : p.current = some (t, .woken)) (server : Nat)
    (won : Option Won) (flight : List Nat) : InTurn { p with
      current := some (t, .calling)
      log := p.log ++ [⟨t, server, won⟩]
      flight := flight } := by
  have here : ∀ t', (∃ stage, p.current = some (t', stage)) → t' = t := by
    rintro t' ⟨stage, is⟩
    rw [current] at is
    cases is
    rfl
  constructor
  · simp
  · exact h.waiting
  · intro t' stage is t'' waits
    cases is
    exact h.first t .woken current t'' waits
  · rintro t' (waits | ⟨_, is⟩ | ⟨d, past, rfl⟩)
    · exact h.known t' (.inl waits)
    · cases is
      exact h.known t (.inr (.inl ⟨_, current⟩))
    · rcases List.mem_append.1 past with past | last
      · exact h.known _ (.inr (.inr ⟨d, past, rfl⟩))
      · rw [List.mem_singleton.1 last]
        exact h.known t (.inr (.inl ⟨_, current⟩))
  · intro d past t' waits
    rcases List.mem_append.1 past with past | last
    · exact h.older d past t' waits
    · rw [List.mem_singleton.1 last]
      exact h.first t .woken current t' waits
  · intro t' stage is quiet
    cases is
    cases quiet
  · rw [List.map_append]
    refine List.pairwise_append.2 ⟨h.order, List.pairwise_singleton .., ?_⟩
    intro t' before t'' last
    obtain ⟨d, past, rfl⟩ := List.mem_map.1 before
    rw [List.mem_singleton.1 last]
    exact h.oldest t .woken current rfl d past
  · intro t' send
    rcases h.kept t' send with waits | old | ⟨d, past, is⟩ | out
    · exact .inl waits
    · exact .inr (.inl ⟨.calling, by rw [here t' old]⟩)
    · exact .inr (.inr (.inl ⟨d, List.mem_append_left _ past, is⟩))
    · exact .inr (.inr (.inr out))
  · simp
  · intro t' is
    cases is
    exact ⟨_, List.mem_append_right _ (List.mem_singleton.2 rfl), rfl⟩

/-- Only the call of the coroutine that has the turn is not answered. -/
theorem flying_finish (p : Player) : p.finish.Flying ↔ p.flight = [] := by
  rw [Player.finish]
  cases p.threadQueue <;> exact Iff.rfl

theorem Flying.of_quiet (h : p.Flying) (current : p.current = some (t, stage))
    (quiet : stage.calls = false) : p.flight = [] := by
  rw [Flying, current] at h
  cases stage with
  | calling => cases quiet
  | woken | login gate wait => exact h

theorem Flying.request (h : p.Flying) {r : Request} (moved : p.step (.request r) = some p') :
    p'.Flying := by
  rw [step] at moved
  cases current : p.current with
  | none =>
      rw [current] at moved
      cases moved
      rw [Flying, current] at h
      exact h
  | some c =>
      rw [current] at moved
      cases moved
      rwa [← current]

end InTurn

/-! ### The session -/

/-- What the `Login` in progress has done, and the promise of the last one. -/
structure Holds (p : Player) : Prop where
  session : ∀ w, p.won = some w → ∃ s server, p.session = some s ∧
    (p.object s).server = some server ∧ w.server = some server ∧
    ((p.object s).gate = some w.gate ∨ ∃ t gate wait, p.current = some (t, .login gate wait) ∧
      (p.object s).gate = some gate ∧ p.written = some (s, some w.gate))
  unwritten : (∀ t gate wait, p.current = some (t, .login gate wait) → wait.Early) →
    p.written = none
  wrote : ∀ t gate wait s, p.current = some (t, .login gate wait) → wait.Wrote s →
    (p.object s).gate = some gate ∧ (p.object s).server ≠ none

section Holds

variable {p p' : Player} {t gate : Nat} {here : At}

theorem Holds.gate_of_unwritten (h : p.Holds) {w : Won} (won : p.won = some w)
    (clean : p.written = none) : ∃ s server, p.session = some s ∧
      (p.object s).server = some server ∧ w.server = some server ∧
      (p.object s).gate = some w.gate := by
  obtain ⟨s, server, at_, has, told, same | ⟨_, _, _, _, _, written⟩⟩ := h.session w won
  · exact ⟨s, server, at_, has, told, same⟩
  · rw [clean] at written
    cases written

/-- Nothing changes but who has the turn, as long as no gate has been overwritten. -/
theorem Holds.of_unwritten (h : p.Holds) (clean : p.written = none) (session : p'.session = p.session)
    (object : p'.object = p.object) (won : p'.won = p.won) (clean' : p'.written = none)
    (quiet : ∀ t gate wait s, p'.current = some (t, .login gate wait) → ¬ wait.Wrote s) :
    p'.Holds := by
  refine ⟨fun w is => ?_, fun _ => clean', fun t gate wait s is wrote => absurd wrote (quiet t gate wait s is)⟩
  obtain ⟨s, server, at_, has, told, same⟩ := h.gate_of_unwritten (won ▸ is) clean
  exact ⟨s, server, session ▸ at_, object ▸ has, told, .inl (object ▸ same)⟩

/-- What the end of a turn leaves as it is. -/
theorem finish_frame (p : Player) : p.finish.session = p.session ∧ p.finish.object = p.object ∧
    p.finish.won = p.won ∧ p.finish.written = none ∧
    ∀ t gate wait, p.finish.current ≠ some (t, .login gate wait) := by
  rw [Player.finish]
  cases p.threadQueue <;> simp

/-- The turn ends, and the gate in the session is the one promised. -/
theorem Holds.finish (h : p.Holds)
    (same : ∀ w s, p.won = some w → p.session = some s → (p.object s).gate = some w.gate) :
    p.finish.Holds := by
  obtain ⟨session, object, won, clean, idle⟩ := finish_frame p
  refine ⟨fun w is => ?_, fun _ => clean, fun t gate wait _ is => absurd is (idle t gate wait)⟩
  rw [won] at is
  obtain ⟨s, server, at_, has, told, _⟩ := h.session w is
  exact ⟨s, server, session ▸ at_, object ▸ has, told, .inl (object ▸ same w s is at_)⟩

/-- A `Login` waits for another answer. -/
theorem Holds.wait (h : p.Holds) {next : At} (current : p.current = some (t, .login gate here))
    (early : next.Early → p.written = none)
    (wrote : ∀ s, next.Wrote s → here.Wrote s) : (p.wait t gate next).Holds := by
  refine ⟨fun w is => ?_, fun all => early (all t gate next rfl), fun t' gate' next' s is wrote' => ?_⟩
  · obtain ⟨s, server, at_, has, told, same | ⟨t', gate', wait', is', new, written⟩⟩ := h.session w is
    · exact ⟨s, server, at_, has, told, .inl same⟩
    · rw [current] at is'
      cases is'
      exact ⟨s, server, at_, has, told, .inr ⟨t, gate, next, rfl, new, written⟩⟩
  · cases is
    exact h.wrote t gate here s current (wrote s wrote')

/-- The gate of a `Login` that goes back to its server is written. -/
theorem Holds.store (h : p.Holds) {s : Nat} (current : p.current = some (t, .login gate here))
    (early : here.Early) (has : (p.object s).server ≠ none) :
    Holds { (p.setObject s { p.object s with gate := some gate }).wait t gate (.gateStored s) with
      written := some (s, (p.object s).gate) } := by
  have clean : p.written = none := h.unwritten fun t' gate' wait is => by
    rw [current] at is
    cases is
    exact early
  refine ⟨fun w is => ?_, fun all => absurd (all t gate _ rfl) (by simp [At.Early]), ?_⟩
  · obtain ⟨s', server, at_, has', told, same⟩ := h.gate_of_unwritten is clean
    refine ⟨s', server, at_, ?_, told, ?_⟩
    · by_cases mine : s' = s <;> simp_all [Player.wait, setObject]
    · by_cases mine : s' = s
      · subst mine
        exact .inr ⟨t, gate, .gateStored s', rfl, by simp [Player.wait, setObject], by simp [same]⟩
      · exact .inl (by simpa [Player.wait, setObject, mine] using same)
  · intro t' gate' wait s' is wrote
    cases is
    cases wrote
    simpa [Player.wait, setObject] using has

/-- A success is returned for the session in place. -/
theorem holds_succeed {s server : Nat} {session : Session}
    (at_ : p.session = some s) (gate_ : session.gate = some gate)
    (server_ : session.server = some server) :
    ((p.setObject s session).succeed gate (some server)).Holds := by
  obtain ⟨session', object, won, clean, idle⟩ :=
    finish_frame { p.setObject s session with won := some ⟨gate, some server⟩ }
  refine ⟨fun w is => ?_, fun _ => clean, fun t gate wait _ is => absurd is (idle t gate wait)⟩
  rw [Player.succeed, won] at is
  cases is
  refine ⟨s, server, session'.trans at_, ?_, rfl, .inl ?_⟩
  · rw [Player.succeed, object]
    simpa [setObject] using server_
  · rw [Player.succeed, object]
    simpa [setObject] using gate_

theorem Holds.goServer (h : p.Holds) (dest : Nat) : (p.goServer dest).Holds := by
  rw [Player.goServer]
  cases at_ : p.session with
  | none => exact h
  | some s =>
      have gates : ∀ s', (Function.update p.object s { p.object s with server := some dest } s').gate =
          (p.object s').gate := by
        intro s'
        by_cases mine : s' = s <;> simp [mine]
      refine ⟨fun w is => ?_, h.unwritten, fun t gate wait s' is wrote => ?_⟩
      · obtain ⟨old, won, rfl⟩ := Option.map_eq_some_iff.1 is
        obtain ⟨s', server, here, has, told, gate⟩ := h.session old won
        rw [at_] at here
        cases here
        refine ⟨s, dest, at_, by simp [setObject], rfl, ?_⟩
        simpa [setObject, gates] using gate
      · obtain ⟨gate_, has⟩ := h.wrote t gate wait s' is wrote
        refine ⟨(gates s').trans gate_, ?_⟩
        by_cases mine : s' = s
        · simp [setObject, mine]
        · simpa [setObject, mine] using has

end Holds

/-! ### Runs -/

/-- What is sent on goes to the promised server, and nothing promised is dropped. -/
structure Told (p : Player) : Prop where
  sent : ∀ d ∈ p.log, ∀ w, d.won = some w → w.server = some d.server
  dropped : ∀ d ∈ p.dropped, d.2 = none

structure Kept (p : Player) : Prop where
  turn : p.InTurn
  flying : p.Flying
  holds : p.Holds
  told : p.Told

section Kept

variable {p p' : Player} {t gate : Nat} {stage : Stage} {here : At}

theorem told_finish (p : Player) : p.finish.Told ↔ p.Told := by
  rw [Player.finish]
  cases p.threadQueue <;> exact ⟨fun h => ⟨h.sent, h.dropped⟩, fun h => ⟨h.sent, h.dropped⟩⟩

/-- The turn of a `Login` ends. -/
theorem Kept.finish (h : p.Kept) (current : p.current = some (t, .login gate here))
    (same : ∀ w s, p.won = some w → p.session = some s → (p.object s).gate = some w.gate) :
    p.finish.Kept where
  turn := h.turn.finish current fun send => absurd send (h.turn.login t gate here current)
  flying := (flying_finish p).2 (h.flying.of_quiet current rfl)
  holds := h.holds.finish same
  told := (told_finish p).2 h.told

/-- A `Login` waits for another answer, or begins to wait. -/
theorem Kept.wait (h : p.Kept) {next : At} (current : p.current = some (t, stage))
    (quiet : stage.calls = false) (login : p.asked[t]? ≠ some .send)
    (holds : (p.wait t gate next).Holds) : (p.wait t gate next).Kept where
  turn := h.turn.of_same current rfl quiet.symm (fun _ _ _ => login) rfl rfl rfl fun _ out => out
  flying := h.flying.of_quiet current quiet
  holds := holds
  told := { h.told with }

theorem Kept.drop (h : p.Kept) (current : p.current = some (t, .woken)) (none_ : p.won = none) :
    (p.drop t).Kept := by
  have clean : p.written = none := h.holds.unwritten fun _ _ _ is => by
    rw [current] at is
    cases is
  have turn : InTurn { p with dropped := p.dropped ++ [(t, p.won)] } :=
    h.turn.of_same current current rfl (fun _ _ is => by cases is) rfl rfl rfl
      fun _ out => List.mem_append_left _ out
  have holds : Holds { p with dropped := p.dropped ++ [(t, p.won)] } := { h.holds with }
  refine ⟨turn.finish current fun _ => ?_, ?_, holds.finish fun w _ won => ?_, ?_⟩
  · exact .inr ⟨_, List.mem_append_right _ (List.mem_singleton.2 rfl), rfl⟩
  · exact (flying_finish _).2 (h.flying.of_quiet current rfl)
  · rw [none_] at won
    cases won
  · refine (told_finish _).2 ⟨h.told.sent, fun d out => ?_⟩
    rcases List.mem_append.1 out with out | last
    · exact h.told.dropped d out
    · rw [List.mem_singleton.1 last]
      exact none_

theorem Kept.begin_ (h : p.Kept) (current : p.current = some (t, .woken)) :
    (p.begin_ t).Kept := by
  have clean : p.written = none := h.holds.unwritten fun _ _ _ is => by
    rw [current] at is
    cases is
  rw [Player.begin_]
  cases asked : p.asked[t]? with
  | none => exact h
  | some r =>
      cases r with
      | login gate =>
          have login : p.asked[t]? ≠ some .send := by simp [asked]
          have starts : ∀ next : At, (∀ s, ¬ next.Wrote s) → (p.wait t gate next).Kept := by
            intro next unwritten
            refine h.wait current rfl login (h.holds.of_unwritten clean rfl rfl rfl clean ?_)
            intro t' gate' next' s is
            cases is
            exact unwritten s
          cases p.session with
          | none => exact starts .lobbyId fun _ => id
          | some s =>
              dsimp only
              split
              · exact starts (.kickout s) fun _ => id
              · exact starts (.lobbies s) fun _ => id
      | send =>
          cases at_ : p.session with
          | none =>
              refine h.drop current ?_
              by_contra won
              obtain ⟨w, won⟩ := Option.ne_none_iff_exists'.1 won
              obtain ⟨s, _, there, _⟩ := h.holds.session w won
              rw [at_] at there
              cases there
          | some s =>
              cases has : (p.object s).server with
              | none =>
                  simp only [has]
                  refine h.drop current ?_
                  by_contra won
                  obtain ⟨w, won⟩ := Option.ne_none_iff_exists'.1 won
                  obtain ⟨s', _, there, has', _⟩ := h.holds.session w won
                  rw [at_] at there
                  cases there
                  rw [has] at has'
                  cases has'
              | some server =>
                  simp only [has]
                  rw [← at_]
                  refine ⟨h.turn.deliver current server p.won _, ?_, ?_, ?_, h.told.dropped⟩
                  · simp [Flying, h.flying.of_quiet current rfl]
                  · refine h.holds.of_unwritten clean rfl rfl rfl clean fun t' gate wait s is => ?_
                    cases is
                  · intro d past w won
                    rcases List.mem_append.1 past with past | last
                    · exact h.told.sent d past w won
                    · rw [List.mem_singleton.1 last] at won ⊢
                      obtain ⟨s', server', there, has', told, _⟩ := h.holds.session w won
                      rw [at_] at there
                      cases there
                      rw [has] at has'
                      cases has'
                      exact told

/-- A `Login` fails. -/
theorem Kept.fail (h : p.Kept) (current : p.current = some (t, .login gate here))
    (fine : ∀ s old, p.written = some (s, old) → p.session = some s → p.won ≠ none →
      old = some gate) : p.finish.Kept := by
  refine h.finish current fun w s won at_ => ?_
  obtain ⟨s', server, there, has, told, same | ⟨t', gate', wait, is, new, written⟩⟩ :=
    h.holds.session w won
  · rw [at_] at there
    cases there
    exact same
  · rw [at_] at there
    cases there
    rw [current] at is
    cases is
    exact new.trans (fine s _ written at_ (by simp [won])).symm

theorem Kept.goOn (h : p.Kept) (current : p.current = some (t, .login gate here)) {a : Answer}
    (fine : p.Fine gate here a) (moved : p.goOn t gate here a = some p') : p'.Kept := by
  have login := h.turn.login t gate here current
  have quiet : (Stage.login gate here).calls = false := rfl
  have next : ∀ at_ : At, (at_.Early → here.Early) → (∀ s, at_.Wrote s → here.Wrote s) →
      (p.wait t gate at_).Kept := by
    intro at_ early wrote
    refine h.wait current quiet login (h.holds.wait current (fun is => ?_) wrote)
    refine h.holds.unwritten fun t' gate' wait is' => ?_
    rw [current] at is'
    cases is'
    exact early is
  have success : ∀ s session server, p.session = some s → session.gate = some gate →
      session.server = some server →
      ((p.setObject s session).succeed gate (some server)).Kept := by
    intro s session server at_ gate_ server_
    have turn : InTurn { p.setObject s session with won := some ⟨gate, some server⟩ } :=
      h.turn.of_same current current rfl (fun _ _ _ => login) rfl rfl rfl fun _ out => out
    refine ⟨turn.finish current fun send => absurd send login, ?_,
      holds_succeed at_ gate_ server_, ?_⟩
    · exact (flying_finish _).2 (h.flying.of_quiet current quiet)
    · exact (told_finish _).2 { h.told with }
  rw [Player.goOn.eq_def] at moved
  split at moved
  · -- the call has failed
    cases moved
    exact h.fail current (by cases here <;> exact fine)
  · cases moved
    exact next _ id fun _ => False.elim
  · have onward : (p.wait t gate .lobbyId).Kept := next .lobbyId False.elim fun _ => False.elim
    split at moved
    · cases moved
      exact onward
    · rename_i s _ server has
      split at moved
      · cases moved
        exact onward
      · cases moved
        refine ⟨?_, h.flying.of_quiet current quiet, ?_, { h.told with }⟩
        · exact h.turn.of_same current rfl rfl (fun _ _ _ => login) rfl rfl rfl fun _ out => out
        · exact h.holds.store current trivial (by simp [has])
  · cases moved
    exact next _ False.elim fun _ => id
  · rename_i s
    cases moved
    obtain ⟨gate_, has⟩ := h.holds.wrote t gate _ s current rfl
    obtain ⟨server, has⟩ := Option.ne_none_iff_exists'.1 has
    have same : p.setObject s (p.object s) = p := by simp [setObject]
    have done := success s (p.object s) server fine gate_ has
    rwa [same, ← has] at done
  · cases moved
    exact next _ False.elim fun _ => False.elim
  · split at moved
    · cases moved
      exact next _ False.elim fun _ => False.elim
    · rename_i none_
      cases moved
      have open_ : ∀ w, p.won ≠ some w := by
        intro w won
        obtain ⟨s, _, there, _⟩ := h.holds.session w won
        rw [none_] at there
        cases there
      refine ⟨?_, h.flying.of_quiet current quiet, ⟨?_, ?_, ?_⟩, { h.told with }⟩
      · exact h.turn.of_same current rfl rfl (fun _ _ _ => login) rfl rfl rfl fun _ out => out
      · exact fun w won => absurd won (open_ w)
      · exact fun all => absurd (all t gate _ rfl) (by simp [At.Early])
      · intro t' gate' wait s is wrote
        cases is
        cases wrote
  · cases moved
    exact next _ False.elim fun _ => False.elim
  · cases moved
    exact h.fail current fine
  · cases moved
    exact success _ _ _ fine rfl rfl
  · cases moved

theorem Kept.step (h : p.Kept) {event : Event} (guard : p.Guarded event)
    (moved : p.step event = some p') : p'.Kept := by
  cases event with
  | request r =>
      refine ⟨h.turn.request moved, h.flying.request moved, ?_, ?_⟩
      · rw [Player.step] at moved
        cases current : p.current with
        | none =>
            rw [current] at moved
            cases moved
            have clean : p.written = none := h.holds.unwritten fun _ _ _ is => by
              rw [current] at is
              cases is
            refine h.holds.of_unwritten clean rfl rfl rfl clean fun _ _ _ _ is => ?_
            cases is
        | some c =>
            rw [current] at moved
            cases moved
            rw [← current]
            exact { h.holds with }
      · rw [Player.step] at moved
        split at moved <;> cases moved <;> exact { h.told with }
  | turn =>
      rw [Player.step] at moved
      split at moved
      · rename_i t current
        cases moved
        exact h.begin_ current
      · cases moved
  | answer a =>
      rw [Player.step] at moved
      split at moved
      · rename_i t gate here current
        exact h.goOn current (guard t gate here current) moved
      · rename_i t current
        cases moved
        have clean : p.written = none := h.holds.unwritten fun _ _ _ is => by
          rw [current] at is
          cases is
        have flight : p.flight = [t] := by
          have flying := h.flying
          rwa [Flying, current] at flying
        have turn : InTurn { p with flight := p.flight.erase t } := { h.turn with }
        have holds : Holds { p with flight := p.flight.erase t } := { h.holds with }
        refine ⟨turn.finish current fun _ => .inl (h.turn.calling t current), ?_,
          holds.finish fun w s won at_ => ?_, (told_finish _).2 { h.told with }⟩
        · exact (flying_finish _).2 (by simp [flight])
        · obtain ⟨s', _, there, _, _, same⟩ := h.holds.gate_of_unwritten won clean
          rw [show p.session = some s from at_] at there
          cases there
          exact same
      · cases moved
  | quit =>
      cases moved
      refine ⟨{ h.turn with }, h.flying, ⟨?_, h.holds.unwritten, h.holds.wrote⟩, { h.told with }⟩
      intro w won
      cases won
  | goServer dest =>
      cases moved
      refine ⟨?_, ?_, h.holds.goServer dest, ?_⟩ <;> rw [Player.goServer] <;> split
      · exact h.turn
      · exact { h.turn with }
      · exact h.flying
      · exact h.flying
      · exact h.told
      · exact { h.told with }

theorem Kept.served (h : p.Kept) : p.Served where
  session := h.holds.session
  sent := h.told.sent
  dropped := h.told.dropped
  order := h.turn.order
  one := by
    rw [h.flying]
    split <;> simp
  kept := h.turn.kept

/-- A player nothing has been heard of. -/
def begins (p : Player) : Prop :=
  p.session = none ∧ p.current = none ∧ p.threadQueue = [] ∧ p.asked = [] ∧ p.log = [] ∧
    p.dropped = [] ∧ p.flight = [] ∧ p.written = none ∧ p.won = none

theorem begins_kept (start : p.begins) : p.Kept := by
  obtain ⟨_, current, queue, asked, log, dropped, flight, written, won⟩ := start
  refine ⟨?_, ?_, ?_, ?_⟩
  · constructor <;> simp [current, queue, asked, log]
  · simp [Flying, flight, current]
  · constructor <;> simp [current, written, won]
  · constructor <;> simp [log, dropped]

end Kept

end Player

/-! ### All players -/

section Players

variable {Guid : Type} [DecidableEq Guid]

def Moves (s : Guid → Player) (e : Guid × Event) (s' : Guid → Player) : Prop :=
  ∃ p, (s e.1).step e.2 = some p ∧ s' = Function.update s e.1 p

/-- In every run that meets the condition, every player has the session that was promised. -/
theorem sessions_served {s : Guid → Player} (reached : Runs.Reaches
    (fun s => ∀ guid, (s guid).begins) Moves (fun s e => (s e.1).Guarded e.2) s) (guid : Guid) :
    (s guid).Served := by
  have kept : ∀ guid, (s guid).Kept := by
    induction reached with
    | start begins => exact fun guid => Player.begins_kept (begins guid)
    | next e _ guard moved ih =>
        obtain ⟨p, moved, rfl⟩ := moved
        intro guid
        by_cases same : guid = e.1
        · subst same
          rw [Function.update_self]
          exact (ih e.1).step guard moved
        · rw [Function.update_of_ne same]
          exact ih guid
  exact (kept guid).served

end Players

/-- What there is before the first request. -/
def fresh : Player := ⟨none, fun _ => ⟨none, none⟩, 0, none, [], [], [], [], [], none, none⟩

theorem fresh_begins : fresh.begins := ⟨rfl, rfl, rfl, rfl, rfl, rfl, rfl, rfl, rfl⟩

/-- `Login` of the only player through the gate 1, as far as the lobby 5 has agreed. -/
def agreed : Player := ((((fresh.step (.request (.login 1))).bind (·.step .turn)).bind
  (·.step (.answer (.lobbyId 5)))).bind (·.step (.answer (.result true)))).getD fresh

/-- The only player goes on. -/
theorem alone_next {ok : (Unit → Player) → Unit × Event → Prop} {p p' : Player} (e : Event)
    (reached : Runs.Reaches (fun s => ∀ guid, (s guid).begins) Moves ok fun _ => p)
    (moved : p.step e = some p') (guard : ok (fun _ => p) ((), e)) :
    Runs.Reaches (fun s => ∀ guid, (s guid).begins) Moves ok fun _ => p' := by
  refine .next ((), e) reached guard ⟨p', moved, ?_⟩
  funext guid
  cases guid
  rfl

theorem reaches_agreed : Runs.Reaches (fun s : Unit → Player => ∀ guid, (s guid).begins) Moves
    (fun s e => (s e.1).Guarded e.2) fun _ => agreed := by
  refine alone_next (.answer (.result true)) (alone_next (.answer (.lobbyId 5)) (alone_next .turn
    (alone_next (.request (.login 1)) (.start fun _ => fresh_begins) rfl trivial) rfl trivial)
    rfl ?_) rfl ?_
  · intro t gate wait is
    cases is
    trivial
  · intro t gate wait is
    cases is
    trivial

/-- The `Login` goes through, a request is sent on to the lobby, the player goes to the server 6,
and the next request is sent on to it. -/
def moved : Player := (([.answer .done, .request .send, .turn, .answer .done, .goServer 6,
  .request .send, .turn] : List Event).foldlM Player.step agreed).getD fresh

theorem moved_served : moved.Served ∧ moved.log.map Delivery.server = [5, 6] := by
  refine ⟨sessions_served (s := fun _ : Unit => moved) (alone_next .turn (alone_next
    (.request .send) (alone_next (.goServer 6) (alone_next (.answer .done) (alone_next .turn
      (alone_next (.request .send) (alone_next (.answer .done) reaches_agreed rfl ?_) rfl trivial)
      rfl trivial) rfl ?_) rfl trivial) rfl trivial) rfl trivial) (), rfl⟩
  · intro t gate wait is
    cases is
    rfl
  · intro t gate wait is
    cases is

/-- A `Quit` comes before the gate is in Redis, and success is returned without a session. -/
theorem quit_during_login : ¬ ∀ s : Unit → Player, Runs.Reachable
    (fun s => ∀ guid, (s guid).begins) Moves s → ∀ guid, (s guid).Served := by
  intro all
  let last := ((agreed.step .quit).bind (·.step (.answer .done))).getD fresh
  have reached : Runs.Reachable (fun s : Unit → Player => ∀ guid, (s guid).begins) Moves
      fun _ => last :=
    alone_next (.answer .done) (alone_next .quit reaches_agreed.reachable rfl trivial) rfl trivial
  obtain ⟨s, _, at_, _⟩ := (all _ reached ()).session ⟨1, some 5⟩ rfl
  cases at_

end FkServer.Queued
