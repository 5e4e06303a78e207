import FkServer.Library.Runs
import Mathlib.Data.Rat.Floor
import Mathlib.Algebra.BigOperators.Group.List.Basic

/-!
Commissions exchanged for money by several game servers on one Redis. Every command is a step
of its own; the lock of a partner holds back the requests of one server only, and the check of
a balance, the taking and the credit are separate commands.
-/
namespace FkServer.CommissionExchange

inductive Account
  | partner (guid : Nat)
  | club
deriving DecidableEq

inductive Op
  /-- `exchange_team_commission`, or `exchange_commission` of the club; negative is all. -/
  | exchange (money : ℚ)
  /-- `incr_team_commission`, or `incr_commission` of the club. -/
  | incr (money : Int)

/-- How far a request has come, with the amount it will use next. -/
inductive Phase
  | waiting (op : Op)
  | exchange (money : ℚ)
  | incr (money : Int)
  | taking (amount : ℚ)
  | crediting (amount : ℚ)
  | paying (amount : ℚ)
  | done

/-- A request counts what it has taken of the commission and added to the money. -/
structure Task where
  server : Nat
  account : Account
  phase : Phase
  took : Int
  got : Int

def Task.take (t : Task) (amount : ℚ) : Task :=
  { t with phase := .crediting amount, took := t.took + ⌊amount⌋ }

def Task.pay (t : Task) (amount : ℚ) : Task :=
  { t with phase := .done, got := t.got + ⌊amount⌋ }

/-- What comes to the commissions and the moneys otherwise is counted along. -/
structure State where
  commission : Account → Int
  money : Account → Int
  tasks : List Task
  incoming : Account → Int
  earned : Account → Int

/-- What is answered from outside: whether `get` gives the club's commission as a number,
whether automatic cashing is open and due, whether the player's data are there, and whether
the database answers with the change. -/
structure Env where
  number : Bool
  cash : Bool
  player : Bool
  database : Bool

inductive Label
  | start (server : Nat) (account : Account) (op : Op)
  | run (i : Nat) (env : Env)
  /-- Money earned or spent otherwise. -/
  | other (account : Account) (delta : Int)

def Op.phase : Op → Phase
  | .exchange money => .exchange money
  | .incr money => .incr money

/-- The lock of the partner is held from its turn in the queue to the end of the request. -/
def Phase.holds : Phase → Bool
  | .waiting _ => false
  | .done => false
  | _ => true

namespace State

variable (s : State)

def setPhase (i : Nat) (task : Task) (phase : Phase) : State :=
  { s with tasks := s.tasks.set i { task with phase := phase } }

/-- `club_member_lock`: nobody else of this server has it. -/
def lockFree (task : Task) : Bool :=
  !s.tasks.any fun t => decide (t.server = task.server) && decide (t.account = task.account) &&
    t.phase.holds

/-- `exchange_team_commission` rounds the amount, `exchange_commission` leaves that to the
commands. -/
def rounded (account : Account) (money : ℚ) : ℚ :=
  match account with
  | .partner _ => ⌊money⌋
  | .club => money

/-- The checks of an exchange on the commission that was read, and what it will take. -/
def checked (account : Account) (money : ℚ) : Phase :=
  let commission := s.commission account
  let money := if money < 0 then (commission : ℚ) else money
  if money ≤ 0 then .done
  else if (commission : ℚ) < money then .done
  else .taking (rounded account money)

/-- The commission is read, or a comparison with what is no number ends the request. -/
def readCommission (account : Account) (money : ℚ) (env : Env) : Phase :=
  if account = .club ∧ env.number = false then .done else s.checked account money

def incrCommission (i : Nat) (task : Task) (money : Int) (env : Env) : State :=
  if money = 0 then s.setPhase i task .done
  else
    let newmoney := s.commission task.account + money
    let s := { s with
      commission := Function.update s.commission task.account newmoney
      incoming := Function.update s.incoming task.account (s.incoming task.account + money) }
    s.setPhase i task
      (if env.cash = true ∧ task.account ≠ .club then .taking newmoney else .done)

def take (i : Nat) (task : Task) (amount : ℚ) : State :=
  { s with
    commission := Function.update s.commission task.account (s.commission task.account - ⌊amount⌋)
    tasks := s.tasks.set i (task.take amount) }

def pay (i : Nat) (task : Task) (amount : ℚ) : State :=
  { s with
    money := Function.update s.money task.account (s.money task.account + ⌊amount⌋)
    tasks := s.tasks.set i (task.pay amount) }

/-- `incr_member_money` asks for the player, `incr_money` of the club for what it has. -/
def credit (i : Nat) (task : Task) (amount : ℚ) (env : Env) : State :=
  match task.account with
  | .partner _ => if env.player then s.pay i task amount else s.setPhase i task .done
  | .club =>
      if (s.money .club : ℚ) + amount ≤ 0 then s.setPhase i task .done
      else s.setPhase i task (.paying amount)

def run (i : Nat) (task : Task) (env : Env) : Option State :=
  match task.phase with
  | .waiting op => if s.lockFree task then some (s.setPhase i task op.phase) else none
  | .exchange money => some (s.setPhase i task (s.readCommission task.account money env))
  | .incr money => some (s.incrCommission i task money env)
  | .taking amount => some (s.take i task amount)
  | .crediting amount => some (s.credit i task amount env)
  | .paying amount =>
      some (if env.database then s.pay i task amount else s.setPhase i task .done)
  | .done => none

end State

def step (s : State) : Label → Option State
  | .start server account op =>
      let phase := if account = .club then op.phase else .waiting op
      some { s with tasks := s.tasks ++ [⟨server, account, phase, 0, 0⟩] }
  | .run i env => s.tasks[i]?.bind fun task => s.run i task env
  | .other account delta =>
      some { s with
        money := Function.update s.money account (s.money account + delta)
        earned := Function.update s.earned account (s.earned account + delta) }

/-- Any commissions and moneys, and no request yet. -/
structure Start where
  commission : Account → Int
  money : Account → Int

def Start.state (start : Start) : State where
  commission := start.commission
  money := start.money
  tasks := []
  incoming := fun _ => 0
  earned := fun _ => 0

abbrev ExchangeReaches (start : Start) (ok : State → Label → Prop) : State → Prop :=
  Runs.Reaches (fun s => s = start.state) (fun s l s' => step s l = some s') ok

/-! ### What exchanges are to keep -/

/-- What a request has taken and not yet added. -/
def Task.inFlight (t : Task) : Int :=
  match t.phase with
  | .crediting amount => ⌊amount⌋
  | .paying amount => ⌊amount⌋
  | _ => 0

/-- The sum of a count over the requests of an account. -/
def total (count : Task → Int) (a : Account) (tasks : List Task) : Int :=
  ((tasks.filter fun t => t.account = a).map count).sum

/-- A commission is what came to it less what exchanges took, and a money what came to it and
what exchanges added. No request adds less or more than it took, but for what is on the way,
and none takes what is not there. -/
structure Conserves (start : Start) (ok : State → Label → Prop) (s : State) : Prop where
  commission : ∀ a, s.commission a = start.commission a + s.incoming a - total Task.took a s.tasks
  money : ∀ a, s.money a = start.money a + s.earned a + total Task.got a s.tasks
  even : ∀ t ∈ s.tasks, t.took = t.got + t.inFlight
  covered : ∀ l s', ok s l → step s l = some s' → ∀ a,
    total Task.took a s.tasks < total Task.took a s'.tasks → 0 ≤ s'.commission a

/-! ### What a run keeps -/

/-- Every other request that has checked and is about to take still finds enough. -/
def LeavesEnough (s : State) (i : Nat) (a : Account) (lowered : Int) : Prop :=
  ∀ j t amount, j ≠ i → s.tasks[j]? = some t → t.account = a → t.phase = .taking amount →
    0 < lowered → ⌊amount⌋ ≤ s.commission a - lowered

/-- The guard: a commission is not lowered under what another request is about to take, and a
credit is not refused after the taking. -/
def Undisturbed (s : State) : Label → Prop
  | .run i env => ∀ task, s.tasks[i]? = some task →
      match task.phase with
      | .incr money => LeavesEnough s i task.account (-money)
      | .taking amount => LeavesEnough s i task.account ⌊amount⌋
      | .crediting amount =>
          match task.account with
          | .partner _ => env.player = true
          | .club => 0 < (s.money .club : ℚ) + amount
      | .paying _ => env.database = true
      | _ => True
  | _ => True

/-- What is read back of the counts, and that each request about to take finds enough. -/
structure Balanced (start : Start) (s : State) : Prop where
  commission : ∀ a, s.commission a = start.commission a + s.incoming a - total Task.took a s.tasks
  money : ∀ a, s.money a = start.money a + s.earned a + total Task.got a s.tasks
  even : ∀ t ∈ s.tasks, t.took = t.got + t.inFlight
  enough : ∀ t ∈ s.tasks, ∀ amount, t.phase = .taking amount → ⌊amount⌋ ≤ s.commission t.account

variable {start : Start} {s s' : State} {i : Nat} {task t : Task} {a : Account} {phase : Phase}
variable {amount : ℚ}

/-- One request moves on, and its count with it. -/
theorem total_set (count : Task → Int) (a : Account) {tasks : List Task} (h : tasks[i]? = some task)
    (same : t.account = task.account) :
    total count a (tasks.set i t) =
      total count a tasks + if a = task.account then count t - count task else 0 := by
  induction tasks generalizing i with
  | nil => cases h
  | cons first rest ih =>
      cases i with
      | zero =>
          cases h
          rw [List.set_cons_zero, total, List.filter_cons, total, List.filter_cons, same]
          by_cases here : task.account = a
          · rw [if_pos (decide_eq_true here), if_pos (decide_eq_true here), if_pos here.symm,
              List.map_cons, List.sum_cons, List.map_cons, List.sum_cons]
            omega
          · rw [if_neg (by simpa using here), if_neg (by simpa using here),
              if_neg (Ne.symm here), add_zero]
      | succ i =>
          have later := ih h
          rw [total, total] at later
          rw [List.set_cons_succ, total, List.filter_cons, total, List.filter_cons]
          split
          · rw [List.map_cons, List.sum_cons, List.map_cons, List.sum_cons, later]
            omega
          · exact later

/-- A request whose count is as before. -/
theorem total_kept (count : Task → Int) (a : Account) {tasks : List Task}
    (h : tasks[i]? = some task) (same : t.account = task.account) (kept : count t = count task) :
    total count a (tasks.set i t) = total count a tasks := by
  rw [total_set count a h same, kept, sub_self, ite_self, add_zero]

/-- Who is in the list after one task moved on. -/
theorem mem_set (h : t ∈ s.tasks.set i task) : t = task ∨ ∃ j, j ≠ i ∧ s.tasks[j]? = some t := by
  obtain ⟨j, found⟩ := List.mem_iff_getElem?.1 h
  by_cases here : i = j
  · rw [here, List.getElem?_set_self'] at found
    obtain ⟨_, _, same⟩ := Option.map_eq_some_iff.1 found
    exact .inl same.symm
  · rw [List.getElem?_set_ne here] at found
    exact .inr ⟨j, Ne.symm here, found⟩

/-- A task moves on with as much in flight, on accounts as they are. -/
theorem Balanced.setPhase (inv : Balanced start s) (h : s.tasks[i]? = some task)
    (same : Task.inFlight { task with phase := phase } = task.inFlight)
    (enough : ∀ amount, phase = .taking amount → ⌊amount⌋ ≤ s.commission task.account) :
    Balanced start (s.setPhase i task phase) := by
  refine ⟨fun a => ?_, fun a => ?_, fun t member => ?_, fun t member amount taking => ?_⟩
  · have took : total Task.took a (s.setPhase i task phase).tasks = total Task.took a s.tasks :=
      total_kept Task.took a h rfl rfl
    rw [took]
    exact inv.commission a
  · have got : total Task.got a (s.setPhase i task phase).tasks = total Task.got a s.tasks :=
      total_kept Task.got a h rfl rfl
    rw [got]
    exact inv.money a
  · cases mem_set member with
    | inl moved =>
        rw [moved, same]
        exact inv.even task (List.mem_of_getElem? h)
    | inr other =>
        obtain ⟨j, -, found⟩ := other
        exact inv.even t (List.mem_of_getElem? found)
  · cases mem_set member with
    | inl same =>
        rw [same] at taking ⊢
        exact enough amount taking
    | inr other =>
        obtain ⟨j, -, found⟩ := other
        exact inv.enough t (List.mem_of_getElem? found) amount taking

theorem inFlight_of_phase (none : ∀ q, t.phase ≠ .crediting q ∧ t.phase ≠ .paying q) :
    t.inFlight = 0 := by
  rw [Task.inFlight]
  cases phase : t.phase with
  | crediting q => exact absurd phase (none q).1
  | paying q => exact absurd phase (none q).2
  | _ => rfl

/-- Lowering one commission, when the other requests on it still find enough. -/
theorem Balanced.lower (inv : Balanced start s) {lowered : Int} {j : Nat} (different : j ≠ i)
    (found : s.tasks[j]? = some t) (others : LeavesEnough s i a lowered)
    (taking : t.phase = .taking amount) :
    ⌊amount⌋ ≤ Function.update s.commission a (s.commission a - lowered) t.account := by
  have before := inv.enough t (List.mem_of_getElem? found) amount taking
  by_cases same : t.account = a
  · rw [same, Function.update_self]
    rw [same] at before
    by_cases less : 0 < lowered
    · exact others j t amount different found same taking less
    · omega
  · rw [Function.update_of_ne same]
    exact before

theorem floor_rounded (account : Account) (money : ℚ) : ⌊State.rounded account money⌋ = ⌊money⌋ := by
  cases account with
  | partner guid => exact Int.floor_intCast _
  | club => rfl

theorem checked_enough (account : Account) {money : ℚ} (h : s.checked account money = .taking amount) :
    ⌊amount⌋ ≤ s.commission account := by
  rw [State.checked] at h
  generalize (if money < 0 then (s.commission account : ℚ) else money) = money at h
  split at h
  · cases h
  · split at h
    · cases h
    · rename_i covered
      cases h
      rw [floor_rounded]
      have floor := (Int.floor_le money).trans (not_lt.1 covered)
      exact_mod_cast floor

theorem checked_quiet (account : Account) (money q : ℚ) :
    s.checked account money ≠ .crediting q ∧ s.checked account money ≠ .paying q := by
  rw [State.checked]
  generalize (if money < 0 then (s.commission account : ℚ) else money) = money
  split
  · exact ⟨Phase.noConfusion, Phase.noConfusion⟩
  · split
    · exact ⟨Phase.noConfusion, Phase.noConfusion⟩
    · exact ⟨Phase.noConfusion, Phase.noConfusion⟩

theorem Balanced.take (inv : Balanced start s) (h : s.tasks[i]? = some task)
    (taking : task.phase = .taking amount) (others : LeavesEnough s i task.account ⌊amount⌋) :
    Balanced start (s.take i task amount) := by
  have even := inv.even task (List.mem_of_getElem? h)
  have before : task.inFlight = 0 := by simp [Task.inFlight, taking]
  refine ⟨fun a => ?_, fun a => ?_, fun t member => ?_, fun t member q taking' => ?_⟩
  · have commission := inv.commission a
    show Function.update s.commission task.account _ a =
      start.commission a + s.incoming a - total Task.took a (s.tasks.set i (task.take amount))
    have took : (task.take amount).took = task.took + ⌊amount⌋ := rfl
    rw [total_set Task.took a h (t := task.take amount) rfl, took]
    by_cases here : a = task.account
    · rw [if_pos here, here, Function.update_self, ← here]
      omega
    · rw [if_neg here, Function.update_of_ne here]
      omega
  · have got : total Task.got a (s.take i task amount).tasks = total Task.got a s.tasks :=
      total_kept Task.got a h rfl rfl
    rw [got]
    exact inv.money a
  · cases mem_set member with
    | inl same =>
        rw [same]
        show task.took + ⌊amount⌋ = task.got + ⌊amount⌋
        omega
    | inr other =>
        obtain ⟨j, -, found⟩ := other
        exact inv.even t (List.mem_of_getElem? found)
  · cases mem_set member with
    | inl same =>
        rw [same] at taking'
        cases taking'
    | inr other =>
        obtain ⟨j, different, found⟩ := other
        exact inv.lower different found others taking'

theorem Balanced.pay (inv : Balanced start s) (h : s.tasks[i]? = some task)
    (flying : task.phase = .crediting amount ∨ task.phase = .paying amount) :
    Balanced start (s.pay i task amount) := by
  have even := inv.even task (List.mem_of_getElem? h)
  have held : task.inFlight = ⌊amount⌋ := by
    cases flying with
    | inl phase => simp [Task.inFlight, phase]
    | inr phase => simp [Task.inFlight, phase]
  refine ⟨fun a => ?_, fun a => ?_, fun t member => ?_, fun t member q taking => ?_⟩
  · have took : total Task.took a (s.pay i task amount).tasks = total Task.took a s.tasks :=
      total_kept Task.took a h rfl rfl
    rw [took]
    exact inv.commission a
  · have money := inv.money a
    show Function.update s.money task.account _ a =
      start.money a + s.earned a + total Task.got a (s.tasks.set i (task.pay amount))
    have got : (task.pay amount).got = task.got + ⌊amount⌋ := rfl
    rw [total_set Task.got a h (t := task.pay amount) rfl, got]
    by_cases here : a = task.account
    · rw [if_pos here, here, Function.update_self, ← here]
      omega
    · rw [if_neg here, Function.update_of_ne here]
      omega
  · cases mem_set member with
    | inl same =>
        rw [same]
        show task.took = task.got + ⌊amount⌋ + 0
        omega
    | inr other =>
        obtain ⟨j, -, found⟩ := other
        exact inv.even t (List.mem_of_getElem? found)
  · cases mem_set member with
    | inl same =>
        rw [same] at taking
        cases taking
    | inr other =>
        obtain ⟨j, -, found⟩ := other
        exact inv.enough t (List.mem_of_getElem? found) q taking

theorem Balanced.incrCommission (inv : Balanced start s) (h : s.tasks[i]? = some task) {money : Int}
    (adding : task.phase = .incr money) (others : LeavesEnough s i task.account (-money)) (env : Env) :
    Balanced start (s.incrCommission i task money env) := by
  have before : task.inFlight = 0 := by
    simp [Task.inFlight, adding]
  rw [State.incrCommission]
  split
  · refine inv.setPhase h ?_ fun _ => Phase.noConfusion
    rw [before]
    exact inFlight_of_phase fun q => ⟨Phase.noConfusion, Phase.noConfusion⟩
  · dsimp only
    generalize next : (if env.cash = true ∧ task.account ≠ .club then
      Phase.taking ((s.commission task.account + money : Int) : ℚ) else .done) = phase
    have quiet : Task.inFlight { task with phase := phase } = 0 := by
      rw [← next]
      refine inFlight_of_phase fun q => ?_
      dsimp only
      split
      · exact ⟨Phase.noConfusion, Phase.noConfusion⟩
      · exact ⟨Phase.noConfusion, Phase.noConfusion⟩
    refine ⟨fun a => ?_, fun a => ?_, fun t member => ?_, fun t member amount taking => ?_⟩
    · have commission := inv.commission a
      show Function.update s.commission task.account _ a =
        start.commission a + Function.update s.incoming task.account _ a -
          total Task.took a (s.tasks.set i { task with phase := phase })
      rw [total_kept Task.took a h (t := { task with phase := phase }) rfl rfl]
      by_cases here : a = task.account
      · rw [here, Function.update_self, Function.update_self, ← here]
        omega
      · rw [Function.update_of_ne here, Function.update_of_ne here]
        exact commission
    · have got : total Task.got a (s.tasks.set i { task with phase := phase }) =
          total Task.got a s.tasks := total_kept Task.got a h rfl rfl
      show s.money a = start.money a + s.earned a + total Task.got a (s.tasks.set i _)
      rw [got]
      exact inv.money a
    · cases mem_set member with
      | inl same =>
          have even := inv.even task (List.mem_of_getElem? h)
          rw [same, quiet]
          rwa [before] at even
      | inr other =>
          obtain ⟨j, -, found⟩ := other
          exact inv.even t (List.mem_of_getElem? found)
    · cases mem_set member with
      | inl same =>
          rw [same] at taking ⊢
          show _ ≤ Function.update s.commission task.account _ task.account
          rw [Function.update_self]
          dsimp only at taking
          rw [← next] at taking
          split at taking
          · cases taking
            rw [Int.floor_intCast]
          · cases taking
      | inr other =>
          obtain ⟨j, different, found⟩ := other
          have enough := inv.lower different found others taking
          rw [sub_neg_eq_add] at enough
          exact enough

theorem Balanced.run {env : Env} (inv : Balanced start s) (h : s.tasks[i]? = some task)
    (ok : Undisturbed s (.run i env)) (moved : s.run i task env = some s') : Balanced start s' := by
  have ok := ok task h
  -- neither the phase before nor the one after has anything in flight
  have quiet : ∀ phase : Phase, (∀ q, task.phase ≠ .crediting q ∧ task.phase ≠ .paying q) →
      (∀ q, phase ≠ .crediting q ∧ phase ≠ .paying q) →
      Task.inFlight { task with phase := phase } = task.inFlight := by
    intro phase before after
    have none : task.inFlight = 0 := inFlight_of_phase before
    rw [none]
    exact inFlight_of_phase after
  rw [State.run] at moved
  cases at_phase : task.phase with
  | waiting op =>
      rw [at_phase] at moved
      dsimp only at moved
      split at moved
      · cases moved
        refine inv.setPhase h (quiet _ (fun q => ?_) fun q => ?_) ?_
        · rw [at_phase]
          exact ⟨Phase.noConfusion, Phase.noConfusion⟩
        · cases op <;> exact ⟨Phase.noConfusion, Phase.noConfusion⟩
        · cases op <;> exact fun _ => Phase.noConfusion
      · cases moved
  | exchange money =>
      rw [at_phase] at moved
      cases moved
      refine inv.setPhase h (quiet _ (fun q => ?_) fun q => ?_) ?_
      · rw [at_phase]
        exact ⟨Phase.noConfusion, Phase.noConfusion⟩
      · rw [State.readCommission]
        split
        · exact ⟨Phase.noConfusion, Phase.noConfusion⟩
        · exact checked_quiet task.account money q
      · intro amount taking
        rw [State.readCommission] at taking
        split at taking
        · cases taking
        · exact checked_enough task.account taking
  | incr money =>
      rw [at_phase] at moved ok
      cases moved
      exact inv.incrCommission h at_phase ok env
  | taking amount =>
      rw [at_phase] at moved ok
      cases moved
      exact inv.take h at_phase ok
  | crediting amount =>
      rw [at_phase] at moved ok
      cases moved
      rw [State.credit]
      cases account : task.account with
      | partner guid =>
          rw [account] at ok
          dsimp only at ok ⊢
          rw [if_pos ok]
          exact inv.pay h (.inl at_phase)
      | club =>
          rw [account] at ok
          dsimp only at ok ⊢
          rw [if_neg (not_le.2 ok)]
          refine inv.setPhase h ?_ fun _ => Phase.noConfusion
          simp [Task.inFlight, at_phase]
  | paying amount =>
      rw [at_phase] at moved ok
      cases moved
      rw [if_pos ok]
      exact inv.pay h (.inr at_phase)
  | done =>
      rw [at_phase] at moved
      cases moved

/-- A request that begins has taken and added nothing. -/
theorem total_append (count : Task → Int) (a : Account) (tasks : List Task) (zero : count t = 0) :
    total count a (tasks ++ [t]) = total count a tasks := by
  rw [total, List.filter_append, List.map_append, List.sum_append, total, List.filter_cons]
  split
  · rw [List.filter_nil, List.map_singleton, List.sum_singleton, zero, add_zero]
  · rw [List.filter_nil, List.map_nil, List.sum_nil, add_zero]

theorem Balanced.step {l : Label} (inv : Balanced start s) (ok : Undisturbed s l)
    (moved : step s l = some s') : Balanced start s' := by
  cases l with
  | start server account op =>
      cases moved
      generalize phase : (if account = .club then op.phase else .waiting op) = phase
      refine ⟨fun a => ?_, fun a => ?_, fun t member => ?_, fun t member amount taking => ?_⟩
      · rw [total_append Task.took a s.tasks rfl]
        exact inv.commission a
      · rw [total_append Task.got a s.tasks rfl]
        exact inv.money a
      · cases List.mem_append.1 member with
        | inl old => exact inv.even t old
        | inr new =>
            rw [List.mem_singleton.1 new, ← phase]
            split
            · cases op <;> rfl
            · rfl
      · cases List.mem_append.1 member with
        | inl old => exact inv.enough t old amount taking
        | inr new =>
            rw [List.mem_singleton.1 new, ← phase] at taking
            dsimp only at taking
            split at taking
            · cases op <;> cases taking
            · cases taking
  | run i env =>
      obtain ⟨task, h, moved⟩ := Option.bind_eq_some_iff.1 moved
      exact inv.run h ok moved
  | other account delta =>
      cases moved
      refine ⟨inv.commission, fun a => ?_, inv.even, inv.enough⟩
      have money := inv.money a
      show Function.update s.money account _ a =
        start.money a + Function.update s.earned account _ a + total Task.got a s.tasks
      by_cases here : a = account
      · rw [here, Function.update_self, Function.update_self, ← here]
        omega
      · rw [Function.update_of_ne here, Function.update_of_ne here]
        exact money

/-- Only a request that has checked takes something. -/
theorem takes_of_more {l : Label} (moved : step s l = some s')
    (more : total Task.took a s.tasks < total Task.took a s'.tasks) :
    ∃ i task amount, s.tasks[i]? = some task ∧ task.phase = .taking amount ∧
      s' = s.take i task amount := by
  cases l with
  | start server account op =>
      cases moved
      rw [total_append Task.took a s.tasks rfl] at more
      exact absurd more (lt_irrefl _)
  | run i env =>
      obtain ⟨task, h, moved⟩ := Option.bind_eq_some_iff.1 moved
      -- a request that goes on without taking
      have quiet : ∀ t, t.account = task.account → t.took = task.took →
          s'.tasks ≠ s.tasks.set i t := by
        intro t same took tasks
        rw [tasks, total_kept Task.took a h same took] at more
        exact lt_irrefl _ more
      rw [State.run] at moved
      cases at_phase : task.phase with
      | waiting op =>
          rw [at_phase] at moved
          dsimp only at moved
          split at moved
          · cases moved
            exact absurd rfl (quiet { task with phase := op.phase } rfl rfl)
          · cases moved
      | exchange money =>
          rw [at_phase] at moved
          cases moved
          exact absurd rfl (quiet { task with phase := _ } rfl rfl)
      | incr money =>
          rw [at_phase] at moved
          cases moved
          rw [State.incrCommission] at quiet
          split at quiet
          · exact absurd rfl (quiet { task with phase := .done } rfl rfl)
          · exact absurd rfl (quiet { task with phase := _ } rfl rfl)
      | taking amount =>
          rw [at_phase] at moved
          cases moved
          exact ⟨i, task, amount, h, at_phase, rfl⟩
      | crediting amount =>
          rw [at_phase] at moved
          cases moved
          rw [State.credit] at quiet
          split at quiet <;> split at quiet
          · exact absurd rfl (quiet (task.pay amount) rfl rfl)
          · exact absurd rfl (quiet { task with phase := .done } rfl rfl)
          · exact absurd rfl (quiet { task with phase := .done } rfl rfl)
          · exact absurd rfl (quiet { task with phase := .paying amount } rfl rfl)
      | paying amount =>
          rw [at_phase] at moved
          cases moved
          split at quiet
          · exact absurd rfl (quiet (task.pay amount) rfl rfl)
          · exact absurd rfl (quiet { task with phase := .done } rfl rfl)
      | done =>
          rw [at_phase] at moved
          cases moved
  | other account delta =>
      cases moved
      exact absurd more (lt_irrefl _)

/-- In every run whose steps meet the guard the commissions and the moneys are what came to them
and what exchanges took and added; no exchange leaves a commission below zero, and each adds what
it took, but for what is on the way. -/
theorem exchanges_conserve (reached : ExchangeReaches start Undisturbed s) :
    Conserves start Undisturbed s := by
  have inv : Balanced start s := by
    refine reached.invariant (fun s first => ?_) fun _ _ _ inv ok => inv.step ok
    rw [first]
    refine ⟨fun a => ?_, fun a => ?_, fun t member => ?_, fun t member => ?_⟩
    · show start.commission a = start.commission a + 0 - 0
      omega
    · show start.money a = start.money a + 0 + 0
      omega
    · exact absurd member List.not_mem_nil
    · exact absurd member List.not_mem_nil
  refine ⟨inv.commission, inv.money, inv.even, fun l s' _ moved a more => ?_⟩
  obtain ⟨i, task, amount, found, taking, rfl⟩ := takes_of_more moved more
  have enough := inv.enough task (List.mem_of_getElem? found) amount taking
  have took : total Task.took a (s.take i task amount).tasks = _ := total_set Task.took a found rfl
  show 0 ≤ Function.update s.commission task.account (s.commission task.account - ⌊amount⌋) a
  by_cases here : a = task.account
  · rw [here, Function.update_self]
    omega
  · rw [took, if_neg here, add_zero] at more
    exact absurd more (lt_irrefl _)

/-! ### Runs of two servers -/

/-- The partner 7 has a commission of 100. -/
def hundred : Start where
  commission := fun a => if a = .partner 7 then 100 else 0
  money := fun _ => 0

/-- Everything answers, and nothing is cashed automatically. -/
def answers : Env := ⟨true, false, true, true⟩

theorem hundred_exchanged :
    ∃ s, [Label.start 1 (.partner 7) (.exchange (-1)), .run 0 answers, .run 0 answers, .run 0 answers,
        .run 0 answers].foldlM step hundred.state = some s ∧
      s.money (.partner 7) = 100 ∧ Conserves hundred Undisturbed s := by
  refine ⟨_, rfl, by decide, exchanges_conserve ?_⟩
  have start : ExchangeReaches hundred Undisturbed hundred.state := .start rfl
  have asked := Runs.Reaches.next (Label.start 1 (.partner 7) (.exchange (-1))) start True.intro rfl
  have locked := Runs.Reaches.next (Label.run 0 answers) asked
    (by
      intro task found
      cases found
      exact True.intro) rfl
  have checked := Runs.Reaches.next (Label.run 0 answers) locked
    (by
      intro task found
      cases found
      exact True.intro) rfl
  have took := Runs.Reaches.next (Label.run 0 answers) checked
    (by
      intro task found
      cases found
      -- there is no other request
      intro j t amount other found
      cases j with
      | zero => exact absurd rfl other
      | succ j => cases found) rfl
  exact Runs.Reaches.next (Label.run 0 answers) took
    (by
      intro task found
      cases found
      rfl) rfl

/-- Two servers read the commission of 100 before one of them takes it. -/
theorem two_servers_overdraw : ¬ ∀ start s, ExchangeReaches start (fun _ _ => True) s →
    Conserves start (fun _ _ => True) s := by
  intro claim
  have start : ExchangeReaches hundred (fun _ _ => True) hundred.state := .start rfl
  obtain ⟨s, run, s', moved, more, below⟩ :
      ∃ s, [Label.start 1 (.partner 7) (.exchange (-1)), .start 2 (.partner 7) (.exchange (-1)),
          .run 0 answers, .run 1 answers, .run 0 answers, .run 1 answers,
          .run 0 answers].foldlM step hundred.state = some s ∧
        ∃ s', step s (.run 1 answers) = some s' ∧
          total Task.took (.partner 7) s.tasks < total Task.took (.partner 7) s'.tasks ∧
          s'.commission (.partner 7) < 0 :=
    ⟨_, rfl, _, rfl, by decide, by decide⟩
  have conserves := claim hundred s (Runs.reachable_of_foldlM start run)
  exact absurd (conserves.covered _ s' trivial moved (.partner 7) more) (not_le.2 below)

end FkServer.CommissionExchange
