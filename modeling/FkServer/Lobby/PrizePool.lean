import Mathlib.Algebra.Order.BigOperators.Group.List
import Mathlib.Algebra.Order.Group.Int
import FkServer.Common.Functions
import FkServer.Library.Runs
import Mathlib.Algebra.Ring.Int.Defs

/-!
`lobby/prize_pool` on several game servers that share one Redis key. A call decides on the
total its own server remembers, changes that total, and sends its command; Redis carries
the commands out one at a time in any order, and the replies come back at any time. What a
call will return is settled when it sends its command.
-/
namespace FkServer.PrizePool

/-- `MAX_BONUS` -/
def maxBonus : Int := 999999

/-- A call that waits for Redis: the periodic refresh, `add_money` (which only reads when
the pool is full) and `remove_money` (which empties an overfull pool). -/
inductive Call
  | refresh
  | readFull
  | add (money : Int)
  | remove (cost : Int)
  | clear
deriving DecidableEq

/-- A command sent and, once Redis has carried it out, its reply. -/
structure Pending where
  server : Nat
  call : Call
  reply : Option (Option Int)
deriving DecidableEq

/-- `redis` is the value of the key, `total` the `total_bonus_money_` of each server.
`added` and `removed` are what the calls carried out by Redis return. -/
structure State where
  redis : Option Int
  total : Nat → Int
  pending : List Pending
  added : Int
  removed : Int

namespace State

/-- The pool; `incrby` and `decrby` count a missing key as 0. -/
def pool (s : State) : Int := s.redis.getD 0

def send (s : State) (server : Nat) (call : Call) : State :=
  { s with pending := s.pending ++ [⟨server, call, none⟩] }

/-- `prize_pool:add_money`, up to its command. -/
def addMoney (s : State) (server : Nat) (money : Int) : State :=
  if maxBonus ≤ s.total server then
    s.send server .readFull
  else
    { s with total := alter s.total server (· + money) }.send server (.add money)

/-- What `remove_money` decides to take. -/
def realCost (s : State) (server : Nat) (money : Int) : Int :=
  if money ≤ s.total server then money else s.total server

/-- `prize_pool:remove_money`, up to its command. -/
def removeMoney (s : State) (server : Nat) (money : Int) : State :=
  if money < 0 then
    s
  else if maxBonus + 100000 < s.total server then
    s.send server .clear
  else if s.total server ≤ 0 then
    s
  else
    { s with total := alter s.total server (· - s.realCost server money) }.send server
      (.remove (s.realCost server money))

/-- Redis carries out the command of a call. -/
def obey (s : State) : Call → State
  | .refresh | .readFull => s
  | .add money => { s with redis := some (s.pool + money), added := s.added + money }
  | .remove cost => { s with redis := some (s.pool - cost), removed := s.removed + cost }
  | .clear => { s with redis := some 0 }

def carryOut (s : State) (k : Nat) : State :=
  match s.pending[k]? with
  | some ⟨server, call, none⟩ =>
      let after := s.obey call
      { after with pending := s.pending.set k ⟨server, call, some after.redis⟩ }
  | _ => s

/-- What a server remembers after a reply. -/
def remember (reply : Option Int) (total : Int) : Call → Int
  | .refresh | .readFull | .add _ | .remove _ => reply.getD total
  | .clear => 0

/-- The reply reaches the server, and the call goes on to its end. -/
def answer (s : State) (k : Nat) : State :=
  match s.pending[k]? with
  | some ⟨server, call, some reply⟩ =>
      { s with
        total := alter s.total server fun total => remember reply total call
        pending := s.pending.eraseIdx k }
  | _ => s

end State

inductive Event
  | addMoney (server : Nat) (money : Int)
  | removeMoney (server : Nat) (money : Int)
  | refresh (server : Nat)
  | carryOut (k : Nat)
  | answer (k : Nat)
deriving DecidableEq

def step (s : State) : Event → State
  | .addMoney server money => s.addMoney server money
  | .removeMoney server money => s.removeMoney server money
  | .refresh server => s.send server .refresh
  | .carryOut k => s.carryOut k
  | .answer k => s.answer k

/-- `prize_pool:init` on every server, with what the key holds. -/
def start (redis : Option Int) : State := ⟨redis, fun _ => 0, [], 0, 0⟩

/-- Every event is possible in every state; `ok` restricts the runs. -/
def Reaches (redis : Option Int) (ok : State → Event → Prop) : State → Prop :=
  Runs.Reaches (· = start redis) (fun s e s' => s' = step s e) ok

/-- The pool is never negative, and no more is taken out than there was and was put in. -/
structure Conserved (initial : Int) (s : State) : Prop where
  pool : 0 ≤ s.pool
  removed : s.removed ≤ initial + s.added

/-- What a command still to be carried out takes from the pool. -/
def Pending.drain (p : Pending) : Int :=
  match p.reply, p.call with
  | none, .add money => max 0 (-money)
  | none, .remove cost => max 0 cost
  | _, _ => 0

/-- A command that will empty the pool. -/
def Pending.clears (p : Pending) : Prop := p.call = .clear ∧ p.reply = none

/-- What the commands on their way take from the pool. -/
def onTheWay (s : State) : Int := (s.pending.map Pending.drain).sum

/-- What the command of an event takes from the pool. -/
def Event.takes (s : State) : Event → Int
  | .addMoney server money => if maxBonus ≤ s.total server then 0 else max 0 (-money)
  | .removeMoney server money =>
      if money < 0 ∨ maxBonus + 100000 < s.total server ∨ s.total server ≤ 0 then 0
      else min money (s.total server)
  | _ => 0

/-- A `remove_money` that empties the pool. -/
def Event.Clears (s : State) : Event → Prop
  | .removeMoney server money => 0 ≤ money ∧ maxBonus + 100000 < s.total server
  | _ => False

/-- A call takes out no more than the pool has beyond what is already on its way, and not
while an emptying of the pool is on its way; the pool is emptied while nothing else is. -/
structure Careful (s : State) (e : Event) : Prop where
  covered : 0 < e.takes s → onTheWay s + e.takes s ≤ s.pool ∧ ∀ p ∈ s.pending, ¬p.clears
  alone : e.Clears s → onTheWay s = 0

section OnTheWay
variable {s : State} {k : Nat} {p : Pending}

theorem Pending.drain_nonneg (p : Pending) : 0 ≤ p.drain := by
  unfold Pending.drain
  split <;> simp

theorem onTheWay_nonneg (s : State) : 0 ≤ onTheWay s := by
  apply List.sum_nonneg
  intro x mem
  obtain ⟨p, _, rfl⟩ := List.mem_map.1 mem
  exact p.drain_nonneg

theorem onTheWay_send (s : State) (server : Nat) (call : Call) :
    onTheWay (s.send server call) = onTheWay s + Pending.drain ⟨server, call, none⟩ := by
  simp [onTheWay, State.send]

/-- The commands but for one. -/
theorem onTheWay_eraseIdx (found : s.pending[k]? = some p) :
    onTheWay s = p.drain + ((s.pending.eraseIdx k).map Pending.drain).sum := by
  obtain ⟨short, rfl⟩ := List.getElem?_eq_some_iff.1 found
  exact ((List.getElem_cons_eraseIdx_perm short).map Pending.drain).sum_eq.symm

theorem sum_set (l : List Pending) (p' : Pending) (short : k < l.length) :
    ((l.set k p').map Pending.drain).sum =
      p'.drain + ((l.eraseIdx k).map Pending.drain).sum :=
  ((List.set_perm_cons_eraseIdx short p').map Pending.drain).sum_eq

/-- What carrying a command out does to the pool, the books and what is on its way. -/
theorem carryOut_eq {server : Nat} {call : Call}
    (found : s.pending[k]? = some ⟨server, call, none⟩) :
    (s.carryOut k).pool = (s.obey call).pool ∧ (s.carryOut k).added = (s.obey call).added ∧
      (s.carryOut k).removed = (s.obey call).removed ∧
      onTheWay (s.carryOut k) = onTheWay s - Pending.drain ⟨server, call, none⟩ ∧
      ∀ p ∈ (s.carryOut k).pending, p.clears → p ∈ s.pending := by
  have short := (List.getElem?_eq_some_iff.1 found).1
  have whole := onTheWay_eraseIdx found
  rw [State.carryOut, found]
  refine ⟨rfl, rfl, rfl, ?_, fun p mem clears => ?_⟩
  · have set := sum_set s.pending ⟨server, call, some (s.obey call).redis⟩ short
    have done : Pending.drain ⟨server, call, some (s.obey call).redis⟩ = 0 := rfl
    change ((s.pending.set k _).map Pending.drain).sum = _
    omega
  · rcases List.mem_or_eq_of_mem_set mem with old | rfl
    · exact old
    · cases clears.2

/-- A reply changes no more than what its server remembers. -/
theorem answer_eq (s : State) (k : Nat) :
    (s.answer k).pool = s.pool ∧ (s.answer k).added = s.added ∧
      (s.answer k).removed = s.removed ∧ onTheWay (s.answer k) = onTheWay s ∧
      ∀ p ∈ (s.answer k).pending, p ∈ s.pending := by
  unfold State.answer
  split
  · rename_i server call reply found
    refine ⟨rfl, rfl, rfl, ?_, fun p mem => List.mem_of_mem_eraseIdx mem⟩
    have done : Pending.drain ⟨server, call, some reply⟩ = 0 := rfl
    rw [onTheWay_eraseIdx found, done, zero_add]
    rfl
  · exact ⟨rfl, rfl, rfl, rfl, fun _ mem => mem⟩

end OnTheWay

section Runs
variable {initial : Int} {redis : Option Int} {s s' : State} {e : Event}

/-- The pool holds what is on its way, and the books cover it. -/
structure Covered (initial : Int) (s : State) : Prop where
  covered : onTheWay s ≤ s.pool
  alone : ∀ p ∈ s.pending, p.clears → onTheWay s = 0
  books : s.pool ≤ initial + s.added - s.removed

theorem Covered.conserved (h : Covered initial s) : Conserved initial s := by
  have := onTheWay_nonneg s
  have := h.covered
  have := h.books
  exact ⟨by omega, by omega⟩

/-- Sending a command that takes nothing and clears nothing. -/
theorem Covered.send (h : Covered initial s) {server : Nat} {call : Call}
    (fits : onTheWay s + Pending.drain ⟨server, call, none⟩ ≤ s.pool)
    (alone : 0 < Pending.drain ⟨server, call, none⟩ → ∀ p ∈ s.pending, ¬p.clears)
    (last : call = .clear → onTheWay s = 0) : Covered initial (s.send server call) where
  covered := by
    rw [onTheWay_send]
    exact fits
  alone p mem clears := by
    have nonneg := Pending.drain_nonneg ⟨server, call, none⟩
    rw [onTheWay_send]
    rcases List.mem_append.1 mem with old | new
    · have nothing := h.alone p old clears
      have free : ¬ 0 < Pending.drain ⟨server, call, none⟩ := fun takes => alone takes p old clears
      omega
    · rw [List.mem_singleton.1 new] at clears
      obtain rfl : call = .clear := clears.1
      exact (add_zero _).trans (last rfl)
  books := h.books

theorem Covered.total (h : Covered initial s) (total : Nat → Int) :
    Covered initial { s with total := total } := ⟨h.covered, h.alone, h.books⟩

theorem Covered.addMoney (h : Covered initial s) {server : Nat} {money : Int}
    (careful : Careful s (.addMoney server money)) : Covered initial (s.addMoney server money) := by
  have covered := h.covered
  unfold State.addMoney
  split
  · exact h.send (by simpa [Pending.drain] using covered) (by simp [Pending.drain]) nofun
  · rename_i room
    have takes : (Event.addMoney server money).takes s =
        Pending.drain ⟨server, .add money, none⟩ := if_neg room
    have careful := careful.covered
    rw [takes] at careful
    refine (h.total _).send ?_ (fun takes => (careful takes).2) nofun
    have nonneg := Pending.drain_nonneg ⟨server, .add money, none⟩
    rcases nonneg.eq_or_lt with none | positive
    · rw [← none, add_zero]
      exact covered
    · exact (careful positive).1

theorem Covered.removeMoney (h : Covered initial s) {server : Nat} {money : Int}
    (careful : Careful s (.removeMoney server money)) :
    Covered initial (s.removeMoney server money) := by
  have covered := h.covered
  unfold State.removeMoney
  split
  · exact h
  · rename_i nonneg
    split
    · rename_i overfull
      have nothing := careful.alone ⟨Int.not_lt.1 nonneg, overfull⟩
      exact h.send (by simpa [Pending.drain] using covered) (by simp [Pending.drain])
        fun _ => nothing
    · rename_i low
      split
      · exact h
      · rename_i left
        have takes : (Event.removeMoney server money).takes s = s.realCost server money := by
          rw [Event.takes, if_neg (by omega), State.realCost, min_def]
        have drain : Pending.drain ⟨server, .remove (s.realCost server money), none⟩ =
            s.realCost server money := by
          refine max_eq_right ?_
          unfold State.realCost
          split <;> omega
        have careful := careful.covered
        rw [takes, ← drain] at careful
        refine (h.total _).send ?_ (fun takes => (careful takes).2) nofun
        have nonneg := Pending.drain_nonneg ⟨server, .remove (s.realCost server money), none⟩
        rcases nonneg.eq_or_lt with none | positive
        · rw [← none, add_zero]
          exact covered
        · exact (careful positive).1

/-- What Redis does for one call stays covered by what is left of the others. -/
theorem Covered.obey (h : Covered initial s) {server : Nat} {call : Call}
    (mem : ⟨server, call, none⟩ ∈ s.pending) :
    onTheWay s - Pending.drain ⟨server, call, none⟩ ≤ (s.obey call).pool ∧
      (s.obey call).pool ≤ initial + (s.obey call).added - (s.obey call).removed := by
  have covered := h.covered
  have books := h.books
  cases call with
  | refresh | readFull =>
      change onTheWay s - 0 ≤ s.pool ∧ s.pool ≤ initial + s.added - s.removed
      omega
  | add money =>
      change onTheWay s - max 0 (-money) ≤ s.pool + money ∧
        s.pool + money ≤ initial + (s.added + money) - s.removed
      omega
  | remove cost =>
      change onTheWay s - max 0 cost ≤ s.pool - cost ∧
        s.pool - cost ≤ initial + s.added - (s.removed + cost)
      omega
  | clear =>
      have nothing := h.alone _ mem ⟨rfl, rfl⟩
      have := onTheWay_nonneg s
      change onTheWay s - 0 ≤ 0 ∧ 0 ≤ initial + s.added - s.removed
      omega

theorem Covered.carryOut (h : Covered initial s) (k : Nat) : Covered initial (s.carryOut k) := by
  by_cases found : ∃ server call, s.pending[k]? = some ⟨server, call, none⟩
  · obtain ⟨server, call, found⟩ := found
    obtain ⟨pool, added, removed, way, clears⟩ := carryOut_eq found
    obtain ⟨covered, books⟩ := h.obey (List.mem_of_getElem? found)
    refine ⟨?_, fun p there clear => ?_, ?_⟩
    · rw [way, pool]
      exact covered
    · have nothing := h.alone p (clears p there clear) clear
      have := Pending.drain_nonneg ⟨server, call, none⟩
      have := onTheWay_nonneg (s.carryOut k)
      omega
    · rw [pool, added, removed]
      exact books
  · have same : s.carryOut k = s := by
      unfold State.carryOut
      split
      · rename_i server call here
        exact (found ⟨server, call, here⟩).elim
      · rfl
    rw [same]
    exact h

theorem Covered.answer (h : Covered initial s) (k : Nat) : Covered initial (s.answer k) := by
  obtain ⟨pool, added, removed, way, fewer⟩ := answer_eq s k
  refine ⟨?_, fun p mem clears => ?_, ?_⟩
  · rw [way, pool]
    exact h.covered
  · rw [way]
    exact h.alone p (fewer p mem) clears
  · rw [pool, added, removed]
    exact h.books

/-- Every careful event keeps the pool covered. -/
theorem Covered.step (h : Covered initial s) (careful : Careful s e) :
    Covered initial (step s e) := by
  cases e with
  | addMoney server money => exact h.addMoney careful
  | removeMoney server money => exact h.removeMoney careful
  | refresh server =>
      refine h.send ?_ (by simp [Pending.drain]) nofun
      simpa [Pending.drain] using h.covered
  | carryOut k => exact h.carryOut k
  | answer k => exact h.answer k

theorem start_covered (filled : 0 ≤ (start redis).pool) :
    Covered (start redis).pool (start redis) := by
  refine ⟨filled, ?_, ?_⟩
  · intro p mem
    cases mem
  · simp [start]

theorem covered_of_reaches (filled : 0 ≤ (start redis).pool) (run : Reaches redis Careful s) :
    Covered (start redis).pool s := by
  refine run.invariant ?_ ?_
  · rintro _ rfl
    exact start_covered filled
  · rintro s e _ covered careful rfl
    exact covered.step careful

end Runs

section Overdrawn
variable {s : State} {e : Event}

/-- Redis carries out some of the pending commands, one after the other. -/
def carryAll (s : State) (ks : List Nat) : State := (ks.map Event.carryOut).foldl step s

theorem exists_draining (positive : 0 < onTheWay s) :
    ∃ (k : Nat) (p : Pending), s.pending[k]? = some p ∧ 0 < p.drain := by
  by_contra none
  push Not at none
  have zero : onTheWay s = 0 := by
    refine List.sum_eq_zero fun x mem => ?_
    obtain ⟨p, there, rfl⟩ := List.mem_map.1 mem
    obtain ⟨k, found⟩ := List.mem_iff_getElem?.1 there
    exact le_antisymm (none k p found) p.drain_nonneg
  omega

/-- A command that drains the pool takes from it what it takes from what is on its way. -/
theorem carryOut_draining {k : Nat} {p : Pending} (found : s.pending[k]? = some p)
    (drains : 0 < p.drain) :
    (s.carryOut k).pool = s.pool - p.drain ∧ onTheWay (s.carryOut k) = onTheWay s - p.drain := by
  obtain ⟨server, call, reply⟩ := p
  cases reply with
  | some reply => simp [Pending.drain] at drains
  | none =>
      obtain ⟨pool, _, _, way, _⟩ := carryOut_eq found
      refine ⟨?_, way⟩
      rw [pool]
      cases call with
      | refresh | readFull | clear => simp [Pending.drain] at drains
      | add money =>
          change 0 < max 0 (-money) at drains
          change s.pool + money = s.pool - max 0 (-money)
          omega
      | remove cost =>
          change 0 < max 0 cost at drains
          change s.pool - cost = s.pool - max 0 cost
          omega

/-- When more is on its way than there is, Redis can come to a negative pool. -/
theorem overdraws (more : s.pool < onTheWay s) : ∃ ks, (carryAll s ks).pool < 0 := by
  induction hn : (onTheWay s).toNat using Nat.strong_induction_on generalizing s with
  | _ n ih =>
      by_cases positive : 0 < onTheWay s
      · obtain ⟨k, p, found, drains⟩ := exists_draining positive
        obtain ⟨pool, way⟩ := carryOut_draining found drains
        obtain ⟨ks, negative⟩ := ih _ (by omega) (s := s.carryOut k) (by omega) rfl
        exact ⟨k :: ks, negative⟩
      · exact ⟨[], by
          change s.pool < 0
          omega⟩

theorem overdraws_of_clear {server : Nat} (positive : 0 < onTheWay s)
    (clear : ⟨server, .clear, none⟩ ∈ s.pending) : ∃ ks, (carryAll s ks).pool < 0 := by
  obtain ⟨k, found⟩ := List.mem_iff_getElem?.1 clear
  obtain ⟨pool, _, _, way, _⟩ := carryOut_eq found
  have empty : (s.obey .clear).pool = 0 := rfl
  have nothing : Pending.drain ⟨server, .clear, none⟩ = 0 := rfl
  obtain ⟨ks, negative⟩ := overdraws (s := s.carryOut k) (by omega)
  exact ⟨k :: ks, negative⟩

/-- A call that takes something out sends it on its way. -/
theorem step_takes (positive : 0 < e.takes s) :
    (step s e).pool = s.pool ∧ onTheWay (step s e) = onTheWay s + e.takes s ∧
      ∀ p ∈ s.pending, p ∈ (step s e).pending := by
  cases e with
  | addMoney server money =>
      simp only [Event.takes] at positive ⊢
      split at positive
      · omega
      · rename_i room
        rw [if_neg room, step, State.addMoney, if_neg room, onTheWay_send]
        exact ⟨rfl, rfl, fun p mem => List.mem_append_left _ mem⟩
  | removeMoney server money =>
      simp only [Event.takes] at positive ⊢
      split at positive
      · omega
      · rename_i usual
        have cost : min money (s.total server) = max 0 (s.realCost server money) := by
          rw [State.realCost, ← min_def]
          omega
        rw [if_neg usual, step, State.removeMoney, if_neg (by omega), if_neg (by omega),
          if_neg (by omega), onTheWay_send, cost]
        exact ⟨rfl, rfl, fun p mem => List.mem_append_left _ mem⟩
  | refresh server | carryOut k | answer k => exact absurd positive (lt_irrefl 0)

/-- An event that is not careful lets Redis come to a negative pool. -/
theorem overdraws_of_careless (careless : ¬Careful s e) :
    ∃ ks, (carryAll (step s e) ks).pool < 0 := by
  by_cases covered : 0 < e.takes s → onTheWay s + e.takes s ≤ s.pool ∧ ∀ p ∈ s.pending, ¬p.clears
  · have clears : e.Clears s ∧ onTheWay s ≠ 0 := by
      by_contra alone
      exact careless ⟨covered, fun clears => by_contra fun busy => alone ⟨clears, busy⟩⟩
    have nonneg := onTheWay_nonneg s
    cases e with
    | removeMoney server money =>
        obtain ⟨⟨asked, overfull⟩, busy⟩ := clears
        have sent : step s (.removeMoney server money) = s.send server .clear := by
          rw [step, State.removeMoney, if_neg (by omega), if_pos overfull]
        rw [sent]
        have cleared : ⟨server, .clear, none⟩ ∈ (s.send server .clear).pending := by
          simp [State.send]
        refine overdraws_of_clear ?_ cleared
        rw [onTheWay_send]
        have nothing : Pending.drain ⟨server, .clear, none⟩ = 0 := rfl
        omega
    | addMoney | refresh | carryOut | answer => exact clears.1.elim
  · rw [Classical.not_imp] at covered
    obtain ⟨positive, covered⟩ := covered
    obtain ⟨pool, way, kept⟩ := step_takes positive
    have nonneg := onTheWay_nonneg s
    by_cases clear : ∃ p ∈ s.pending, p.clears
    · obtain ⟨⟨server, _, _⟩, mem, rfl, rfl⟩ := clear
      exact overdraws_of_clear (by omega) (kept _ mem)
    · push Not at clear
      refine overdraws ?_
      have : ¬ onTheWay s + e.takes s ≤ s.pool := fun fits => covered ⟨fits, clear⟩
      omega

end Overdrawn

/-- Careful runs conserve the pool, in every state; after an event that is not careful,
Redis can come to a negative pool by carrying out what is pending. -/
theorem pool_conserved (redis : Option Int) (filled : 0 ≤ redis.getD 0) :
    (∀ s, Reaches redis Careful s → Conserved (redis.getD 0) s) ∧
      ∀ s e, Reaches redis Careful s → ¬Careful s e →
        ∃ ks, ¬Conserved (redis.getD 0) (carryAll (step s e) ks) := by
  refine ⟨fun s run => (covered_of_reaches filled run).conserved, fun s e _ careless => ?_⟩
  obtain ⟨ks, negative⟩ := overdraws_of_careless careless
  exact ⟨ks, fun conserved => absurd conserved.pool (by omega)⟩

/-- Two servers read a pool of 5, and both pay it out. -/
def twoServers : List Event :=
  [.refresh 0, .refresh 1, .carryOut 0, .carryOut 1, .answer 0, .answer 0,
    .removeMoney 0 5, .removeMoney 1 5, .carryOut 0, .carryOut 1, .answer 0, .answer 0]

theorem pool_paid_out_twice :
    (twoServers.foldl step (start (some 5))).redis = some (-5) ∧
      (twoServers.foldl step (start (some 5))).pending = [] ∧
      (twoServers.foldl step (start (some 5))).removed = 10 ∧
      (twoServers.foldl step (start (some 5))).added = 0 ∧
      Reaches (some 5) (fun _ _ => True) (twoServers.foldl step (start (some 5))) ∧
      ¬Conserved 5 (twoServers.foldl step (start (some 5))) := by
  refine ⟨by decide, by decide, by decide, by decide, ?_, fun h => absurd h.pool (by decide)⟩
  have each : ∀ (es : List Event) (s : State), Reaches (some 5) (fun _ _ => True) s →
      Reaches (some 5) (fun _ _ => True) (es.foldl step s) := by
    intro es
    induction es with
    | nil => exact fun _ run => run
    | cons e es ih => exact fun s run => ih _ (.next e run trivial rfl)
  exact each _ _ (.start rfl)

/-- A server reads a pool of 5, the other one puts 3 in, and the first pays 4 out. -/
def oneAfterOther : List Event :=
  [.refresh 0, .carryOut 0, .answer 0, .addMoney 1 3, .carryOut 0, .answer 0, .removeMoney 0 4,
    .carryOut 0, .answer 0]

theorem shared_pool_conserved :
    (Conserved 5 (oneAfterOther.foldl step (start (some 5))) ∧
      (oneAfterOther.foldl step (start (some 5))).pool = 4) ∧
      ∃ ks, ¬Conserved 5 (carryAll (step (step (start (some 5)) (.addMoney 0 (-5)))
        (.addMoney 1 (-5))) ks) := by
  have free : ∀ {s : State} {e : Event}, e.takes s = 0 → ¬e.Clears s → Careful s e :=
    fun none no => ⟨fun takes => absurd takes (by omega), fun clears => absurd clears no⟩
  have run : Reaches (some 5) Careful (oneAfterOther.foldl step (start (some 5))) := by
    refine .next (.answer 0) (.next (.carryOut 0) (.next (.removeMoney 0 4) (.next (.answer 0)
      (.next (.carryOut 0) (.next (.addMoney 1 3) (.next (.answer 0) (.next (.carryOut 0)
        (.next (.refresh 0) (.start rfl) (free rfl id) rfl) (free rfl id) rfl) (free rfl id) rfl)
        (free rfl id) rfl) (free rfl id) rfl) (free rfl id) rfl) ?_ rfl) (free rfl id) rfl)
      (free rfl id) rfl
    exact ⟨fun _ => ⟨by decide, fun p sent => by cases sent⟩,
      fun clears => absurd clears.2 (by decide)⟩
  have careful : Careful (start (some 5)) (.addMoney 0 (-5)) :=
    ⟨fun _ => ⟨by decide, by simp [start]⟩, False.elim⟩
  have careless : ¬Careful (step (start (some 5)) (.addMoney 0 (-5))) (.addMoney 1 (-5)) :=
    fun careful => absurd (careful.covered (by decide)).1 (by decide)
  exact ⟨⟨(pool_conserved (some 5) (by decide)).1 _ run, by decide⟩,
    (pool_conserved (some 5) (by decide)).2 _ _ (.next _ (.start rfl) careful rfl) careless⟩

end FkServer.PrizePool
