import FkServer.Library.Runs
import FkServer.Library.TwoIndexes
import Mathlib.Data.List.Basic

/-!
`slot.lua`: the sessions of a gate, found by the player's guid and by the connection. A handler is
overtaken by others while its agent answers; only `afk` and `dispatch` take the lock of a session.
-/
namespace FkServer.Slot

/-- A session object; the number tells it from others of the same player and connection. -/
structure Session where
  number : Nat
  guid : Nat
  fd : Nat
deriving DecidableEq

/-- What a handler has to do when its agent answers, or when it gets the lock. -/
inductive Task
  /-- In `kickout(target)` of a `login`, which has found the session `u` there. -/
  | loginKickout (n fd guid target : Nat) (u : Session)
  | login (n fd guid : Nat)
  | kickout (guid : Nat) (u : Session)
  | afk (fd : Nat) (u : Session) (entered : Bool)
  | dispatch (fd : Nat) (u : Session) (entered : Bool)

/-- The number of the login a handler carries out. -/
def Task.arrival : Task → Option Nat
  | .loginKickout n _ _ _ _ | .login n _ _ => some n
  | .kickout _ _ | .afk _ _ _ | .dispatch _ _ _ => none

/-- The requests for a login are numbered as they come in. `latest` has the newest one of a player
that was carried out, `closed` what the `afk` of a connection has removed. -/
structure State where
  onlineguid : Nat → Option Session
  fduser : Nat → Option Session
  made : Nat
  task : Nat → Option Task
  lock : Nat → List Nat
  arrived : Nat
  latest : Nat → Option (Nat × Nat)
  closed : List (Nat × Session)

inductive Event
  | login (co fd guid : Nat)
  | logout (guid : Nat)
  | kickout (co guid : Nat)
  | afk (co fd : Nat)
  /-- A message of a connection that is no login. -/
  | dispatch (co fd : Nat)
  /-- A handler gets the lock of its session. -/
  | enter (co : Nat)
  /-- An agent answers, or its call fails. -/
  | answer (co : Nat) (ok : Bool)

namespace State

variable (s : State)

def setTask (co : Nat) (task : Option Task) : State :=
  { s with task := Function.update s.task co task }

def remove (guid fd : Nat) : State :=
  { s with
    onlineguid := Function.update s.onlineguid guid none
    fduser := Function.update s.fduser fd none }

def logout (guid : Nat) : State :=
  match s.onlineguid guid with
  | none => s
  | some u => s.remove guid u.fd

/-- The newest login of a player by the time it came in. -/
def carryOut (n fd guid : Nat) : State :=
  if ∀ last ∈ s.latest guid, last.1 < n then
    { s with latest := Function.update s.latest guid (some (n, fd)) }
  else s

/-- The end of `login`. -/
def register (n fd guid : Nat) : State :=
  let u : Session := ⟨s.made, guid, fd⟩
  { s with
    onlineguid := Function.update s.onlineguid guid (some u)
    fduser := Function.update s.fduser fd (some u)
    made := s.made + 1 }.carryOut n fd guid

def login (co fd guid : Nat) : State :=
  let n := s.arrived
  let s' := { s with arrived := n + 1 }
  match (s.onlineguid guid).or (s.fduser fd) with
  | none => s'.setTask co (some (.login n fd guid))
  | some u =>
      if u.fd = fd ∧ u.guid = guid then s'.carryOut n fd guid
      else match s.onlineguid u.guid with
        | none => s'.setTask co (some (.login n fd guid))
        | some v => s'.setTask co (some (.loginKickout n fd guid u.guid v))

/-- The handler waits in the queue of the session. -/
def queue (co : Nat) (u : Session) (task : Task) : State :=
  { s.setTask co (some task) with
    lock := Function.update s.lock u.number (s.lock u.number ++ [co]) }

def release (co : Nat) (u : Session) : State :=
  { s.setTask co none with lock := Function.update s.lock u.number (s.lock u.number).tail }

/-- A handler has the lock; `double check`. -/
def enter (co : Nat) : Option State :=
  match s.task co with
  | some (.afk fd u false) =>
      if (s.lock u.number).head? ≠ some co then none
      else if (s.fduser fd).isNone then some (s.release co u)
      else some (s.setTask co (some (.afk fd u true)))
  | some (.dispatch fd u false) =>
      if (s.lock u.number).head? ≠ some co then none
      else if (s.fduser fd).isNone then some (s.release co u)
      else some (s.setTask co (some (.dispatch fd u true)))
  | _ => none

/-- `logout` at the end of `afk`. -/
def close (fd guid : Nat) : State :=
  { s.logout guid with closed := s.closed ++ ((s.onlineguid guid).map fun v => (fd, v)).toList }

def answer (co : Nat) (ok : Bool) : Option State :=
  match s.task co with
  | some (.loginKickout n fd guid target u) =>
      if ok then some ((s.remove target u.fd).setTask co (some (.login n fd guid)))
      else some (s.setTask co none)
  | some (.login n fd guid) =>
      if ok then some ((s.register n fd guid).setTask co none) else some (s.setTask co none)
  | some (.kickout guid u) =>
      if ok then some ((s.remove guid u.fd).setTask co none) else some (s.setTask co none)
  | some (.afk fd u true) => some ((s.close fd u.guid).release co u)
  | some (.dispatch _ u true) => some (s.release co u)
  | _ => none

def step : Event → Option State
  | .login co fd guid => if (s.task co).isSome then none else some (s.login co fd guid)
  | .logout guid => some (s.logout guid)
  | .kickout co guid =>
      if (s.task co).isSome then none
      else match s.onlineguid guid with
        | none => some s
        | some u => some (s.setTask co (some (.kickout guid u)))
  | .afk co fd =>
      if (s.task co).isSome then none
      else match s.fduser fd with
        | none => some s
        | some u => some (s.queue co u (.afk fd u false))
  | .dispatch co fd =>
      if (s.task co).isSome then none
      else match s.fduser fd with
        | none => some s
        | some u => some (s.queue co u (.dispatch fd u false))
  | .enter co => s.enter co
  | .answer co ok => s.answer co ok

/-- Where a message to a player is sent. -/
def forward (guid : Nat) : Option Nat := (s.onlineguid guid).map Session.fd

def maps : TwoIndexes Nat Nat Session := ⟨s.onlineguid, s.fduser⟩

def begins (s : State) : Prop :=
  (∀ guid, s.onlineguid guid = none) ∧ (∀ fd, s.fduser fd = none) ∧ (∀ co, s.task co = none) ∧
    (∀ guid, s.latest guid = none) ∧ s.closed = []

/-- When an agent answers, player and connection of a session that is to be removed are free or
still belong to one session; those of a new one are free or belong to one that it replaces, and no
later login of the player was carried out; and the player of a lost connection is not online with
another one. -/
def Guarded (s : State) : Event → Prop
  | .answer co ok => match s.task co with
    | some (.loginKickout _ _ _ guid u) | some (.kickout guid u) =>
        ok = true → s.maps.Paired guid u.fd
    | some (.login n fd guid) => ok = true →
        (∀ u, s.onlineguid guid = some u → u.fd = fd) ∧
        (∀ u, s.fduser fd = some u → u.guid = guid) ∧ ∀ last ∈ s.latest guid, last.1 < n
    | some (.afk fd u true) => ∀ v, s.onlineguid u.guid = some v → v.fd = fd
    | _ => True
  | _ => True

structure Consistent (s : State) : Prop where
  inverse : ∀ guid fd, (∃ u, s.onlineguid guid = some u ∧ u.fd = fd) ↔
    ∃ u, s.fduser fd = some u ∧ u.guid = guid
  latest : ∀ guid fd, s.forward guid = some fd → ∃ n, s.latest guid = some (n, fd)
  closed : ∀ fd u, (fd, u) ∈ s.closed → u.fd = fd

/-! ### The invariant -/

structure Kept (s : State) : Prop where
  agree : s.maps.Agree Session.guid Session.fd
  latest : ∀ guid u, s.onlineguid guid = some u → ∃ n, s.latest guid = some (n, u.fd)
  arrived : ∀ guid, ∀ last ∈ s.latest guid, last.1 < s.arrived
  closed : ∀ fd u, (fd, u) ∈ s.closed → u.fd = fd

section Kept

variable {s s' : State} {co fd guid n : Nat} {u : Session}

theorem begins_kept (start : s.begins) : s.Kept := by
  obtain ⟨online, user, _, latest, closed⟩ := start
  have maps : s.maps = ⟨fun _ => none, fun _ => none⟩ := by
    rw [State.maps, funext online, funext user]
  refine ⟨maps ▸ TwoIndexes.agree_empty, ?_, ?_, ?_⟩
  · intro guid u at_
    rw [online] at at_
    cases at_
  · intro guid last at_
    rw [latest] at at_
    cases at_
  · simp [closed]

theorem Kept.remove (h : s.Kept) (paired : s.maps.Paired guid fd) : (s.remove guid fd).Kept := by
  refine ⟨h.agree.clear paired, fun g v at_ => ?_, h.arrived, h.closed⟩
  by_cases here : g = guid
  · subst here
    cases (Function.update_self .. : (s.remove g fd).onlineguid g = none).symm.trans at_
  · exact h.latest g v ((Function.update_of_ne here ..).symm.trans at_)

theorem Kept.logout (h : s.Kept) (guid : Nat) : (s.logout guid).Kept := by
  rw [State.logout]
  cases at_ : s.onlineguid guid with
  | none => exact h
  | some u => exact h.remove (h.agree.paired at_)

theorem Kept.close (h : s.Kept)
    (same : ∀ v, s.onlineguid guid = some v → v.fd = fd) : (s.close fd guid).Kept := by
  have gone := h.logout guid
  refine { gone with closed := fun fd' v inside => ?_ }
  rcases List.mem_append.1 inside with old | new
  · exact h.closed fd' v old
  · obtain ⟨w, at_, is⟩ := Option.map_eq_some_iff.1 (Option.mem_toList.1 new)
    cases is
    exact same v at_

/-- A login of an online player with its own connection counts as the latest. -/
theorem Kept.carryOut (h : s.Kept) (online : ∀ v, s.onlineguid guid = some v → v.fd = fd)
    (newest : ∀ last ∈ s.latest guid, last.1 < n) (came : n < s.arrived) :
    (s.carryOut n fd guid).Kept := by
  rw [State.carryOut, if_pos newest]
  refine ⟨h.agree, fun g v at_ => ?_, fun g last at_ => ?_, h.closed⟩
  · by_cases here : g = guid
    · subst here
      exact ⟨n, by simp [online v at_]⟩
    · obtain ⟨m, last⟩ := h.latest g v at_
      exact ⟨m, (Function.update_of_ne here ..).trans last⟩
  · by_cases here : g = guid
    · subst here
      simp only [Function.update_self, Option.mem_some_iff] at at_
      exact at_ ▸ came
    · simp only [Function.update_of_ne here] at at_
      exact h.arrived g last at_

theorem Kept.register (h : s.Kept) (online : ∀ v, s.onlineguid guid = some v → v.fd = fd)
    (user : ∀ v, s.fduser fd = some v → v.guid = guid)
    (newest : ∀ last ∈ s.latest guid, last.1 < n) (came : n < s.arrived) :
    (s.register n fd guid).Kept := by
  set v : Session := ⟨s.made, guid, fd⟩
  have agree := h.agree.set (v := v) online user
  rw [State.register, State.carryOut, if_pos newest]
  refine ⟨agree, fun g w at_ => ?_, fun g last at_ => ?_, h.closed⟩
  · by_cases here : g = guid
    · subst here
      simp only [Function.update_self, Option.some.injEq] at at_ ⊢
      exact ⟨n, by rw [← at_]⟩
    · simp only [Function.update_of_ne here] at at_ ⊢
      exact h.latest g w at_
  · by_cases here : g = guid
    · subst here
      simp only [Function.update_self, Option.mem_some_iff] at at_
      exact at_ ▸ came
    · simp only [Function.update_of_ne here] at at_
      exact h.arrived g last at_

/-- Every login that is being carried out has come in. -/
def Numbered (s : State) : Prop :=
  ∀ co task n, s.task co = some task → task.arrival = some n → n < s.arrived

@[simp] theorem setTask_self (co : Nat) (task : Option Task) :
    (s.setTask co task).task co = task := Function.update_self ..

theorem setTask_of_ne {co' : Nat} (other : co' ≠ co) (task : Option Task) :
    (s.setTask co task).task co' = s.task co' := Function.update_of_ne other ..

theorem Numbered.setTask (h : s.Numbered) {task : Option Task}
    (came : ∀ t ∈ task, ∀ n, t.arrival = some n → n < s.arrived) :
    (s.setTask co task).Numbered := by
  intro co' t n at_ is
  by_cases here : co' = co
  · subst here
    rw [setTask_self] at at_
    exact came t at_ n is
  · rw [setTask_of_ne here] at at_
    exact h co' t n at_ is

theorem Kept.setTask (h : s.Kept) (task : Option Task) : (s.setTask co task).Kept := { h with }

theorem Kept.login (h : s.Kept) : (s.login co fd guid).Kept := by
  have counted : Kept { s with arrived := s.arrived + 1 } :=
    { h with arrived := fun g last at_ => Nat.lt_succ_of_lt (h.arrived g last at_) }
  rw [State.login]
  cases found : (s.onlineguid guid).or (s.fduser fd) with
  | none => exact counted.setTask _
  | some u =>
      dsimp only
      split
      · rename_i same
        refine counted.carryOut (fun v at_ => ?_) (h.arrived guid) (Nat.lt_succ_self _)
        have mine : s.onlineguid guid = some v := at_
        rw [mine] at found
        cases found
        exact same.1
      · split <;> exact counted.setTask _

theorem Numbered.login (h : s.Numbered) : (s.login co fd guid).Numbered := by
  have counted : Numbered { s with arrived := s.arrived + 1 } :=
    fun co task n at_ is => Nat.lt_succ_of_lt (h co task n at_ is)
  have started : ∀ task : Task, task.arrival = some s.arrived →
      (State.setTask { s with arrived := s.arrived + 1 } co (some task)).Numbered := by
    intro task is
    refine counted.setTask fun t at_ n is' => ?_
    cases at_
    rw [is] at is'
    cases is'
    exact Nat.lt_succ_self _
  rw [State.login]
  cases found : (s.onlineguid guid).or (s.fduser fd) with
  | none => exact started (.login s.arrived fd guid) rfl
  | some u =>
      dsimp only
      split
      · rw [State.carryOut]
        split <;> exact counted
      · split
        · exact started (.login s.arrived fd guid) rfl
        · exact started (.loginKickout s.arrived fd guid u.guid _) rfl

theorem Kept.answer (h : s.Kept) (numbered : s.Numbered) {ok : Bool}
    (guard : s.Guarded (.answer co ok)) (moved : s.answer co ok = some s') :
    s'.Kept ∧ s'.Numbered := by
  have ended : (s.setTask co none).Kept ∧ (s.setTask co none).Numbered :=
    ⟨h.setTask none, numbered.setTask (by simp)⟩
  rw [State.Guarded] at guard
  rw [State.answer] at moved
  cases task : s.task co with
  | none =>
      rw [task] at moved
      cases moved
  | some t =>
      rw [task] at moved guard
      cases t with
      | loginKickout n fd guid target u =>
          cases ok with
          | false =>
              cases moved
              exact ended
          | true =>
              cases moved
              have came : n < s.arrived := numbered co _ n task rfl
              refine ⟨(h.remove (guard rfl)).setTask _, ?_⟩
              exact Numbered.setTask (s := s.remove target u.fd) numbered fun t at_ m is => by
                cases at_
                cases is
                exact came
      | login n fd guid =>
          cases ok with
          | false =>
              cases moved
              exact ended
          | true =>
              cases moved
              have came : n < s.arrived := numbered co _ n task rfl
              obtain ⟨online, user, newest⟩ := guard rfl
              refine ⟨(h.register online user newest came).setTask _, ?_⟩
              refine Numbered.setTask (s := s.register n fd guid) ?_ (by simp)
              rw [State.register, State.carryOut]
              split <;> exact numbered
      | kickout guid u =>
          cases ok with
          | false =>
              cases moved
              exact ended
          | true =>
              cases moved
              refine ⟨(h.remove (guard rfl)).setTask _, ?_⟩
              exact Numbered.setTask (s := s.remove guid u.fd) numbered (by simp)
      | afk fd u entered =>
          cases entered with
          | false => cases moved
          | true =>
              cases moved
              have gone : (s.close fd u.guid).Numbered := by
                rw [State.close, State.logout]
                split <;> exact numbered
              have kept : ((s.close fd u.guid).setTask co none).Kept := (h.close guard).setTask none
              exact ⟨{ kept with }, gone.setTask (by simp)⟩
      | dispatch fd u entered =>
          cases entered with
          | false => cases moved
          | true =>
              cases moved
              exact ⟨{ ended.1 with }, ended.2⟩

theorem Kept.step (h : s.Kept) (numbered : s.Numbered) {event : Event} (guard : s.Guarded event)
    (moved : s.step event = some s') : s'.Kept ∧ s'.Numbered := by
  have begins : ∀ co (task : Task), task.arrival = none →
      (s.setTask co (some task)).Kept ∧ (s.setTask co (some task)).Numbered := by
    intro co task is
    refine ⟨h.setTask _, numbered.setTask fun t at_ n is' => ?_⟩
    cases at_
    rw [is] at is'
    cases is'
  cases event with
  | login co fd guid =>
      rw [State.step] at moved
      split at moved
      · cases moved
      · cases moved
        exact ⟨h.login, numbered.login⟩
  | logout guid =>
      cases moved
      refine ⟨h.logout guid, ?_⟩
      rw [State.logout]
      split <;> exact numbered
  | kickout co guid =>
      rw [State.step] at moved
      split at moved
      · cases moved
      · split at moved <;> cases moved
        · exact ⟨h, numbered⟩
        · exact begins co _ rfl
  | afk co fd =>
      rw [State.step] at moved
      split at moved
      · cases moved
      · split at moved <;> cases moved
        · exact ⟨h, numbered⟩
        · obtain ⟨kept, numbered⟩ := begins co (.afk fd _ false) rfl
          exact ⟨{ kept with }, numbered⟩
  | dispatch co fd =>
      rw [State.step] at moved
      split at moved
      · cases moved
      · split at moved <;> cases moved
        · exact ⟨h, numbered⟩
        · obtain ⟨kept, numbered⟩ := begins co (.dispatch fd _ false) rfl
          exact ⟨{ kept with }, numbered⟩
  | enter co =>
      have left : ∀ u : Session, (s.release co u).Kept ∧ (s.release co u).Numbered := by
        intro u
        have kept : (s.setTask co none).Kept := h.setTask none
        exact ⟨{ kept with }, numbered.setTask (by simp)⟩
      rw [State.step, State.enter] at moved
      split at moved
      · split at moved
        · cases moved
        · split at moved <;> cases moved
          · exact left _
          · exact begins co (.afk _ _ true) rfl
      · split at moved
        · cases moved
        · split at moved <;> cases moved
          · exact left _
          · exact begins co (.dispatch _ _ true) rfl
      · cases moved
  | answer co ok => exact h.answer numbered guard moved

theorem Kept.consistent (h : s.Kept) : s.Consistent where
  inverse := h.agree.inverse
  latest guid fd to_ := by
    obtain ⟨u, at_, rfl⟩ := Option.map_eq_some_iff.1 to_
    exact h.latest guid u at_
  closed := h.closed

end Kept

/-- In every run that meets the condition, also while handlers are in progress. -/
theorem maps_consistent {s : State} (reached : Runs.Reaches begins
    (fun s event s' => s.step event = some s') Guarded s) : s.Consistent := by
  have kept : s.Kept ∧ s.Numbered := by
    induction reached with
    | start begins =>
        refine ⟨begins_kept begins, fun co task n at_ => ?_⟩
        rw [begins.2.2.1] at at_
        cases at_
    | next event _ guard moved ih => exact ih.1.step ih.2 guard moved
  exact kept.1.consistent

def empty : State :=
  ⟨fun _ => none, fun _ => none, 0, fun _ => none, fun _ => [], 0, fun _ => none, []⟩

theorem empty_begins : empty.begins :=
  ⟨fun _ => rfl, fun _ => rfl, fun _ => rfl, fun _ => rfl, rfl⟩

/-- The player 7 logs in with the connection 1, then with the connection 2, which kicks the first
session out. -/
def loggedInTwice : List Event :=
  [.login 0 1 7, .answer 0 true, .login 0 2 7, .answer 0 true, .answer 0 true]

theorem second_login_consistent : ∃ s : State, s.forward 7 = some 2 ∧ s.fduser 1 = none ∧ s.Consistent := by
  refine ⟨(loggedInTwice.foldlM step empty).getD empty, rfl, rfl, maps_consistent ?_⟩
  refine .next (.answer 0 true) (.next (.answer 0 true) (.next (.login 0 2 7)
    (.next (.answer 0 true) (.next (.login 0 1 7) (.start empty_begins) trivial rfl) ?_ rfl)
    trivial rfl) ?_ rfl) ?_ rfl
  · exact fun _ => ⟨fun _ at_ => (by cases at_), fun _ at_ => (by cases at_),
      fun _ at_ => (by cases at_)⟩
  · exact fun _ => .inr ⟨⟨0, 7, 1⟩, rfl, rfl⟩
  · refine fun _ => ⟨fun _ at_ => (by cases at_), fun _ at_ => (by cases at_), fun last at_ => ?_⟩
    cases at_
    decide

/-- Two players log in with the connections 1 and 2, and then the first with the second's
connection: the second stays online with a connection that belongs to the first. -/
theorem second_connection_taken : ¬ ∀ s, Runs.Reachable begins
    (fun s event s' => s.step event = some s') s → (∀ co, s.task co = none) → s.Consistent := by
  intro all
  let s₁ := (((empty.login 0 1 7).answer 0 true).getD empty)
  let s₂ := (((s₁.login 0 2 8).answer 0 true).getD empty)
  let s₃ := (((s₂.login 0 2 7).answer 0 true).getD empty)
  let s₄ := ((s₃.answer 0 true).getD empty)
  have reached : Runs.Reachable begins (fun s event s' => s.step event = some s') s₄ :=
    .next (s := s₃) (.answer 0 true) (.next (s := s₂.login 0 2 7) (.answer 0 true)
      (.next (s := s₂) (.login 0 2 7) (.next (s := s₁.login 0 2 8) (.answer 0 true)
        (.next (s := s₁) (.login 0 2 8) (.next (s := empty.login 0 1 7) (.answer 0 true)
          (.next (s := empty) (.login 0 1 7) (.start empty_begins) trivial rfl) trivial rfl)
          trivial rfl) trivial rfl) trivial rfl) trivial rfl) trivial rfl
  have idle : ∀ co, s₄.task co = none := by
    intro co
    by_cases here : co = 0
    · subst here
      rfl
    · -- all that happens is done by the handler 0
      change Function.update (Function.update (Function.update (Function.update (Function.update
        (Function.update (Function.update (fun _ => none) 0 _) 0 _) 0 _) 0 _) 0 _) 0 _) 0 _ co = none
      simp [here]
  obtain ⟨u, at_, is⟩ := ((all s₄ reached idle).inverse 8 2).1 ⟨⟨1, 8, 2⟩, rfl, rfl⟩
  cases at_
  cases is

end State

end FkServer.Slot
