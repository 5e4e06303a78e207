import FkServer.Library.LuaSort
import Mathlib.Algebra.BigOperators.Group.Finset.Piecewise
import Mathlib.Algebra.BigOperators.Ring.Finset
import Mathlib.Algebra.Order.BigOperators.Group.Finset
import Mathlib.Data.Rat.Floor

/-!
`base_table:cost_tax`: what a finished table takes from its players, and what the teams above
them are credited. The two are computed apart, each with floors of its own. A configuration may
give any numbers; money is whole. The son that a contribution names is read by nothing here.
-/
namespace FkServer.Tax

abbrev Guid := Nat

/-- `rule.union.tax` -/
structure Conf where
  AA : Option ℚ
  AA1 : Bool
  bigWin : Option (List (ℚ × ℚ))
  minEnsurance : Option ℚ

/-- A table as `cost_tax` finds it. `union` says whether it is a private table of a union with
a rule, `template` whether its template is found, `branch` is `father_branch`, and
`teamCommission` is `team_commission` with the configuration of the team. `keys` is the order
in which `pairs` meets the keys of a table. -/
structure TaxTable where
  players : List Guid
  distinct : players.Nodup
  owner : Guid
  union : Bool
  template : Bool
  conf : Option Conf
  branch : Guid → List Guid
  teamCommission : Guid → ℚ → ℚ
  winlose : Guid → Int
  lua : LuaSort
  keys : List Guid → List Guid
  keys_perm : ∀ list, (keys list).Perm list

/-- The tables `commissions` and `contributions`. -/
structure Books where
  commissions : List (Guid × ℚ)
  contributions : List (Guid × ℚ)

def Books.empty : Books := ⟨[], []⟩

/-- `t[key] = (t[key] or 0) + amount` -/
def incr (key : Guid) (amount : ℚ) : List (Guid × ℚ) → List (Guid × ℚ)
  | [] => [(key, amount)]
  | (k, v) :: rest => if k = key then (k, v + amount) :: rest else (k, v) :: incr key amount rest

def Books.credit (b : Books) (team : Guid) (amount : ℚ) : Books :=
  { b with commissions := incr team amount b.commissions }

def Books.log (b : Books) (parent : Guid) (amount : ℚ) : Books :=
  { b with contributions := b.contributions ++ [(parent, amount)] }

/-- `math.floor(commission + 0.0000001)` -/
def floored (commission : ℚ) : Int := ⌊commission + 1 / 10000000⌋

/-- The calls of `incr_team_commission`, for every team that is left something. -/
def Books.credits (b : Books) : List (Guid × Int) :=
  (b.commissions.map fun e => (e.1, floored e.2)).filter fun e => 0 < e.2

namespace TaxTable

variable (t : TaxTable)

/-! ### The commissions -/

/-- What goes on to the next team of the branch, if there is one: not below nothing and not
above all that is left. -/
def sonCommission (rest : List Guid) (commission : ℚ) : ℚ :=
  let son := match rest with
    | [] => 0
    | son :: _ => t.teamCommission son commission
  let son := if 0 < son then son else 0
  if son < commission then son else commission

/-- `do_branch_commission`, on what is left of the branch from `myself` down. -/
def doBranchCommission : List Guid → ℚ → Books → Books
  | [], _, b => b
  | myself :: rest, commission, b =>
      let son := t.sonCommission rest commission
      let my := commission - son
      let b := b.credit myself my
      let b := if 0 < my then b.log myself my else b
      if son ≤ 0 then b else doBranchCommission rest son b

/-- The loop over the players' shares. -/
def eachBranch (taxes : Guid → ℚ) (b : Books) : Books :=
  (t.keys t.players).foldl (fun b guid =>
    if 0 < taxes guid then t.doBranchCommission (t.branch guid) (taxes guid) b else b) b

def doTaxCommission (tax : ℚ) : Books :=
  if t.template = false then .empty else t.eachBranch (fun _ => tax) .empty

/-- `taxconf.min_ensurance`, or the whole tax if that is less. -/
def minEnsurance (tax : ℚ) : ℚ :=
  let least := (t.conf.bind Conf.minEnsurance).getD 0
  if least < tax then least else tax

/-- The team that gets the least share for a winner. -/
def topTeam (guid : Guid) : Guid := (t.branch guid).headD t.owner

def eachWinCommissionTax (winTax : ℚ) : Int := ⌊winTax / t.players.length⌋

def doWinnerCommission (taxes : List (Guid × ℚ)) : Books :=
  if t.template = false then .empty
  else
    let allwintax := (taxes.map Prod.snd).sum
    let firstid := (t.keys (taxes.map Prod.fst)).getLastD 0
    let least := t.minEnsurance allwintax
    let b := if 0 < least then
        (Books.empty.credit (t.topTeam firstid) least).log (t.topTeam firstid) least
      else .empty
    t.eachBranch (fun _ => t.eachWinCommissionTax (allwintax - least)) b

/-- `each_bigwin_commission_tax`: the first winner gets what the floor leaves. -/
def eachBigwinCommissionTax (bigwinTax : ℚ) (bigwinGuids : List Guid) (guid : Guid) : ℚ :=
  let eachwin := ⌊bigwinTax / t.players.length⌋
  if guid = bigwinGuids.headD 0 then eachwin + (bigwinTax - eachwin * t.players.length) else eachwin

def doBigwinCommission (bigwinTax : ℚ) (bigwinGuids : List Guid) : Books :=
  if t.template = false then .empty
  else
    let least := t.minEnsurance bigwinTax
    let b := if 0 < least then
        bigwinGuids.foldl (fun b guid =>
          (b.credit (t.topTeam guid) ⌊least / bigwinGuids.length⌋).log (t.topTeam guid) least) .empty
      else .empty
    t.eachBranch (t.eachBigwinCommissionTax (bigwinTax - least) bigwinGuids) b

/-! ### The tax -/

/-- `roulette_value` -/
def rouletteValue (roulette : List (ℚ × ℚ)) (v : Int) : Option ℚ :=
  (roulette.find? fun s => (v : ℚ) ≤ s.1 ∨ s.1 < 0).map Prod.snd

/-- What is charged, by the configuration and the result. -/
inductive Charge
  | nothing
  | each (tax : ℚ)
  | bigwin (tax : ℚ) (guids : List Guid)
  | winners (taxes : List (Guid × ℚ))

def winloselist : List (Guid × Int) :=
  t.lua.sort (fun l r => decide (r.2 < l.2)) (t.players.map fun guid => (guid, t.winlose guid))

/-- The ranges from the least up, one without a bound last. -/
def ranges (conf : List (ℚ × ℚ)) : List (ℚ × ℚ) :=
  t.lua.sort (fun l r => if l.1 < 0 then false else if r.1 < 0 then true else l.1 < r.1) conf

def charge : Charge :=
  match t.union, t.conf with
  | true, some conf =>
      match conf.AA.filter fun tax => 0 < tax, conf.bigWin, t.winloselist with
      | some tax, _, _ => .each tax
      | none, some bigWin, first :: rest =>
          let maxwin := first.2
          if maxwin ≤ 0 then .nothing
          else if conf.AA1 then
            .winners (((first :: rest).filter fun d => 0 < d.2).map fun d =>
              (d.1, (rouletteValue (t.ranges bigWin) d.2).getD 0))
          else
            match rouletteValue (t.ranges bigWin) maxwin with
            | none => .nothing
            | some tax => .bigwin tax (((first :: rest).filter fun d => d.2 = maxwin).map Prod.fst)
      | _, _, _ => .nothing
  | _, _ => .nothing

/-- `do_cost_tax_money`: what `incr_member_money` takes off, which floors what it adds. -/
def doCostTaxMoney (taxes : Guid → ℚ) : List (Guid × Int) :=
  (t.players.filter fun guid => taxes guid ≠ 0).map fun guid => (guid, -⌊-taxes guid⌋)

/-- The debits, and the books the commissions are credited and logged from. -/
def costTax : List (Guid × Int) × Books :=
  match t.charge with
  | .nothing => ([], .empty)
  | .each tax => (t.doCostTaxMoney fun _ => tax, t.doTaxCommission tax)
  | .bigwin tax guids =>
      (t.doCostTaxMoney fun guid => if guid ∈ guids then (⌊tax / guids.length⌋ : Int) else 0,
        t.doBigwinCommission tax (t.keys guids))
  | .winners taxes =>
      (t.doCostTaxMoney fun guid => (taxes.lookup guid).getD 0, t.doWinnerCommission taxes)

def debited : Int := (t.costTax.1.map Prod.snd).sum

def credited : Int := (t.costTax.2.credits.map Prod.snd).sum

def contributed : ℚ := (t.costTax.2.contributions.map Prod.snd).sum

/-- No more is credited than was debited, and as much as is logged. -/
def Conserves : Prop := t.credited ≤ t.debited ∧ t.contributed = t.credited

end TaxTable

/-! ### Payments -/

/-- What a list of payments comes to for one team. -/
def due (payments : List (Guid × ℚ)) (team : Guid) : ℚ :=
  ((payments.filter fun e => e.1 = team).map Prod.snd).sum

/-- Who is paid something. -/
def payees (payments : List (Guid × ℚ)) : Finset Guid := (payments.map Prod.fst).toFinset

/-- What floors at the end leave of the payments, team by team; less than nothing where the
`0.0000001` completes an amount. -/
def dropped (payments : List (Guid × ℚ)) : ℚ :=
  ∑ team ∈ payees payments, (due payments team - floored (due payments team))

def Books.pay (b : Books) (payments logs : List (Guid × ℚ)) : Books :=
  ⟨payments.foldl (fun table e => incr e.1 e.2 table) b.commissions, b.contributions ++ logs⟩

variable {payments payments' logs logs' table : List (Guid × ℚ)} {b : Books} {key team : Guid}
variable {amount : ℚ}

@[simp] theorem Books.pay_nil (b : Books) : b.pay [] [] = b := by
  rw [Books.pay, List.foldl_nil, List.append_nil]

theorem Books.pay_pay (b : Books) (payments logs payments' logs' : List (Guid × ℚ)) :
    (b.pay payments logs).pay payments' logs' = b.pay (payments ++ payments') (logs ++ logs') := by
  rw [Books.pay, Books.pay, Books.pay, List.foldl_append, List.append_assoc]

theorem due_append (payments payments' : List (Guid × ℚ)) (team : Guid) :
    due (payments ++ payments') team = due payments team + due payments' team := by
  rw [due, due, due, List.filter_append, List.map_append, List.sum_append]

theorem due_cons (e : Guid × ℚ) (rest : List (Guid × ℚ)) (team : Guid) :
    due (e :: rest) team = (if team = e.1 then e.2 else 0) + due rest team := by
  rw [due, due, List.filter_cons]
  by_cases same : team = e.1
  · simp [same]
  · simp [same, Ne.symm same]

theorem due_nonneg (h : ∀ e ∈ payments, 0 ≤ e.2) (team : Guid) : 0 ≤ due payments team := by
  refine List.sum_nonneg fun amount member => ?_
  obtain ⟨e, among, rfl⟩ := List.mem_map.1 member
  exact h e (List.mem_of_mem_filter among)

theorem floored_nonneg (h : 0 ≤ amount) : 0 ≤ floored amount := by
  rw [floored]
  refine Int.floor_nonneg.2 (add_nonneg h ?_)
  norm_num

theorem due_eq_zero (h : team ∉ payees payments) : due payments team = 0 := by
  have none : (payments.filter fun e => e.1 = team) = [] := by
    refine List.filter_eq_nil_iff.2 fun e member same => h ?_
    rw [decide_eq_true_eq] at same
    rw [payees, List.mem_toFinset, ← same]
    exact List.mem_map_of_mem member
  rw [due, none]
  rfl

/-- A table with one entry for everybody who is paid, of all that comes to him. -/
structure Tallies (table payments : List (Guid × ℚ)) : Prop where
  distinct : (table.map Prod.fst).Nodup
  same : payees table = payees payments
  amount : ∀ e ∈ table, e.2 = due payments e.1

theorem keys_incr (key : Guid) (amount : ℚ) (table : List (Guid × ℚ)) :
    (incr key amount table).map Prod.fst =
      if key ∈ table.map Prod.fst then table.map Prod.fst else table.map Prod.fst ++ [key] := by
  induction table with
  | nil => rfl
  | cons e rest ih =>
      obtain ⟨k, v⟩ := e
      rw [incr]
      by_cases here : k = key
      · simp [here]
      · rw [if_neg here, List.map_cons, ih, List.map_cons]
        by_cases later : key ∈ rest.map Prod.fst
        · rw [if_pos later, if_pos (List.mem_cons_of_mem _ later)]
        · rw [if_neg later, if_neg (by simp [Ne.symm here, later]), List.cons_append]

theorem mem_incr {e : Guid × ℚ} (distinct : (table.map Prod.fst).Nodup)
    (h : e ∈ incr key amount table) :
    (e.1 = key ∧ ((key, e.2 - amount) ∈ table ∨ key ∉ table.map Prod.fst ∧ e.2 = amount)) ∨
      (e.1 ≠ key ∧ e ∈ table) := by
  induction table with
  | nil =>
      rw [incr, List.mem_singleton] at h
      rw [h]
      exact .inl ⟨rfl, .inr ⟨List.not_mem_nil, rfl⟩⟩
  | cons first rest ih =>
      obtain ⟨k, v⟩ := first
      rw [List.map_cons, List.nodup_cons] at distinct
      rw [incr] at h
      by_cases here : k = key
      · rw [if_pos here] at h
        cases List.mem_cons.1 h with
        | inl same =>
            rw [same]
            refine .inl ⟨here, .inl ?_⟩
            rw [add_sub_cancel_right, here]
            exact List.mem_cons_self
        | inr later =>
            have other := List.mem_map_of_mem (f := Prod.fst) later
            refine .inr ⟨fun same => distinct.1 ?_, List.mem_cons_of_mem _ later⟩
            rwa [here, ← same]
      · rw [if_neg here] at h
        cases List.mem_cons.1 h with
        | inl same =>
            rw [same]
            exact .inr ⟨here, List.mem_cons_self⟩
        | inr later =>
            obtain ⟨same, found | none⟩ | ⟨other, found⟩ := ih distinct.2 later
            · exact .inl ⟨same, .inl (List.mem_cons_of_mem _ found)⟩
            · refine .inl ⟨same, .inr ⟨?_, none.2⟩⟩
              simp [Ne.symm here, none.1]
            · exact .inr ⟨other, List.mem_cons_of_mem _ found⟩

theorem Tallies.incr (h : Tallies table payments) (key : Guid) (amount : ℚ) :
    Tallies (incr key amount table) (payments ++ [(key, amount)]) := by
  have last : ∀ team, due [(key, amount)] team = if team = key then amount else 0 := by
    intro team
    rw [due_cons]
    exact add_zero _
  refine ⟨?_, ?_, fun e member => ?_⟩
  · rw [keys_incr]
    split
    · exact h.distinct
    · rename_i new
      exact List.nodup_append'.2 ⟨h.distinct, List.nodup_singleton _,
        List.disjoint_singleton.2 new⟩
  · have same := h.same
    rw [payees, payees] at same ⊢
    rw [keys_incr, List.map_append, List.toFinset_append, ← same]
    split
    · rename_i old
      rw [List.map_singleton, List.toFinset_cons, List.toFinset_nil, Finset.union_insert,
        Finset.union_empty, Finset.insert_eq_of_mem (List.mem_toFinset.2 old)]
    · rw [List.toFinset_append]
      rfl
  · rw [due_append, last]
    obtain ⟨same, found | ⟨new, value⟩⟩ | ⟨other, found⟩ := mem_incr h.distinct member
    · rw [if_pos same, same, ← h.amount _ found]
      exact (sub_add_cancel _ _).symm
    · rw [if_pos same, same, value, due_eq_zero, zero_add]
      rw [← h.same, payees, List.mem_toFinset]
      exact new
    · rw [if_neg other, add_zero]
      exact h.amount e found

theorem tallies_pay (payments logs : List (Guid × ℚ)) :
    Tallies (Books.empty.pay payments logs).commissions payments := by
  induction payments using List.reverseRecOn with
  | nil => exact ⟨List.nodup_nil, rfl, fun e member => absurd member List.not_mem_nil⟩
  | append_singleton rest e ih =>
      rw [Books.pay] at ih ⊢
      rw [List.foldl_append]
      exact ih.incr e.1 e.2

theorem sum_payees (payments : List (Guid × ℚ)) :
    ∑ team ∈ payees payments, due payments team = (payments.map Prod.snd).sum := by
  induction payments with
  | nil => rfl
  | cons e rest ih =>
      have members : payees (e :: rest) = insert e.1 (payees rest) := by
        rw [payees, payees, List.map_cons, List.toFinset_cons]
      rw [Finset.sum_congr rfl fun team _ => due_cons e rest team, Finset.sum_add_distrib, members,
        Finset.sum_ite_eq', if_pos (Finset.mem_insert_self _ _), List.map_cons, List.sum_cons, ← ih]
      congr 1
      by_cases old : e.1 ∈ payees rest
      · rw [Finset.insert_eq_of_mem old]
      · rw [Finset.sum_insert old, due_eq_zero old, zero_add]

/-- What is credited in the end is what was due but for what the floors drop. -/
theorem sum_credits (positive : ∀ e ∈ payments, 0 ≤ e.2) (logs : List (Guid × ℚ)) :
    ((((Books.empty.pay payments logs).credits.map Prod.snd).sum : Int) : ℚ) =
      (payments.map Prod.snd).sum - dropped payments := by
  have tally := tallies_pay payments logs
  have all : ((Books.empty.pay payments logs).credits.map Prod.snd).sum =
      ∑ team ∈ payees payments, floored (due payments team) := by
    rw [← tally.same, payees, List.sum_toFinset _ tally.distinct, Books.credits]
    have amounts := tally.amount
    generalize (Books.empty.pay payments logs).commissions = table at amounts
    induction table with
    | nil => rfl
    | cons e rest ih =>
        obtain ⟨here, later⟩ := List.forall_mem_cons.1 amounts
        rw [List.map_cons, List.filter_cons, List.map_cons, List.map_cons, List.sum_cons, ← ih later,
          ← here]
        split
        · rw [List.map_cons, List.sum_cons]
        · rename_i nothing
          have none : floored e.2 = 0 := by
            have := floored_nonneg (here ▸ due_nonneg positive e.1 : 0 ≤ e.2)
            have nothing : ¬ 0 < floored e.2 := by simpa using nothing
            omega
          rw [none, zero_add]
  rw [all, dropped, Finset.sum_sub_distrib, sum_payees, Int.cast_sum, sub_sub_cancel]

/-! ### Whole amounts -/

def IsWhole (amount : ℚ) : Prop := ∃ n : Int, amount = n

theorem isWhole_intCast (n : Int) : IsWhole n := ⟨n, rfl⟩

theorem isWhole_zero : IsWhole 0 := ⟨0, rfl⟩

theorem IsWhole.add {a b : ℚ} (ha : IsWhole a) (hb : IsWhole b) : IsWhole (a + b) := by
  obtain ⟨n, rfl⟩ := ha
  obtain ⟨m, rfl⟩ := hb
  exact ⟨n + m, (Int.cast_add n m).symm⟩

theorem IsWhole.sub {a b : ℚ} (ha : IsWhole a) (hb : IsWhole b) : IsWhole (a - b) := by
  obtain ⟨n, rfl⟩ := ha
  obtain ⟨m, rfl⟩ := hb
  exact ⟨n - m, (Int.cast_sub n m).symm⟩

theorem IsWhole.mul_natCast {a : ℚ} (ha : IsWhole a) (k : Nat) : IsWhole (a * k) := by
  obtain ⟨n, rfl⟩ := ha
  exact ⟨n * k, by rw [Int.cast_mul, Int.cast_natCast]⟩

theorem isWhole_sum {list : List ℚ} (h : ∀ a ∈ list, IsWhole a) : IsWhole list.sum := by
  induction list with
  | nil => exact isWhole_zero
  | cons a rest ih =>
      obtain ⟨here, later⟩ := List.forall_mem_cons.1 h
      rw [List.sum_cons]
      exact here.add (ih later)

theorem floored_eq (h : IsWhole amount) : (floored amount : ℚ) = amount := by
  obtain ⟨n, rfl⟩ := h
  have small : ⌊(1 / 10000000 : ℚ)⌋ = 0 := by
    rw [Int.floor_eq_zero_iff]
    norm_num
  rw [floored, Int.floor_intCast_add, small, add_zero]

theorem due_whole (h : ∀ e ∈ payments, IsWhole e.2) (team : Guid) : IsWhole (due payments team) := by
  refine isWhole_sum fun amount member => ?_
  obtain ⟨e, among, rfl⟩ := List.mem_map.1 member
  exact h e (List.mem_of_mem_filter among)

theorem dropped_of_whole (h : ∀ e ∈ payments, IsWhole e.2) : dropped payments = 0 := by
  refine Finset.sum_eq_zero fun team _ => ?_
  rw [floored_eq (due_whole h team), sub_self]

namespace TaxTable

variable {t : TaxTable} {commission tax : ℚ} {taxes : Guid → ℚ}

/-! ### The shares of the teams -/

theorem cut_eq (son commission : ℚ) :
    (if (if 0 < son then son else 0) < commission then if 0 < son then son else 0 else commission) =
      min (max son 0) commission := by
  have low : (if 0 < son then son else 0) = max son 0 := by
    split
    · rename_i some
      exact (max_eq_left some.le).symm
    · rename_i none
      exact (max_eq_right (not_lt.1 none)).symm
  rw [low]
  split
  · rename_i less
    exact (min_eq_left less.le).symm
  · rename_i more
    exact (min_eq_right (not_lt.1 more)).symm

theorem sonCommission_cons (t : TaxTable) (son : Guid) (rest : List Guid) (commission : ℚ) :
    t.sonCommission (son :: rest) commission = min (max (t.teamCommission son commission) 0) commission :=
  cut_eq (t.teamCommission son commission) commission

theorem sonCommission_nil (positive : 0 < commission) : t.sonCommission [] commission = 0 := by
  have cut : t.sonCommission [] commission = min (max 0 0) commission := cut_eq 0 commission
  rw [cut, max_self, min_eq_left positive.le]

theorem sonCommission_bounds (t : TaxTable) (rest : List Guid) (positive : 0 < commission) :
    0 ≤ t.sonCommission rest commission ∧ t.sonCommission rest commission ≤ commission := by
  cases rest with
  | nil =>
      rw [sonCommission_nil positive]
      exact ⟨le_rfl, positive.le⟩
  | cons son rest =>
      rw [sonCommission_cons]
      exact ⟨le_min (le_max_right _ _) positive.le, min_le_right _ _⟩

/-- What the levels of a branch keep of a commission, down to the last level that is reached. -/
def levelShares (t : TaxTable) : List Guid → ℚ → List (Guid × ℚ)
  | [], _ => []
  | myself :: rest, commission =>
      let son := t.sonCommission rest commission
      (myself, commission - son) :: if son ≤ 0 then [] else levelShares t rest son

/-- The shares of one player's commission tax. -/
def sharesOf (t : TaxTable) (taxes : Guid → ℚ) (guid : Guid) : List (Guid × ℚ) :=
  if 0 < taxes guid then t.levelShares (t.branch guid) (taxes guid) else []

def shares (t : TaxTable) (taxes : Guid → ℚ) : List (Guid × ℚ) :=
  (t.keys t.players).flatMap (t.sharesOf taxes)

/-- Only a share that is something is logged. -/
def logged (payments : List (Guid × ℚ)) : List (Guid × ℚ) := payments.filter fun e => 0 < e.2

theorem doBranchCommission_pays (branch : List Guid) (commission : ℚ) (b : Books) :
    t.doBranchCommission branch commission b =
      b.pay (t.levelShares branch commission) (logged (t.levelShares branch commission)) := by
  induction branch generalizing commission b with
  | nil => exact b.pay_nil.symm
  | cons myself rest ih =>
      rw [doBranchCommission, levelShares]
      generalize t.sonCommission rest commission = son
      have mine : (if 0 < commission - son then
            (b.credit myself (commission - son)).log myself (commission - son)
          else b.credit myself (commission - son)) =
          b.pay [(myself, commission - son)] (logged [(myself, commission - son)]) := by
        rw [logged, List.filter_cons]
        split
        · rename_i some
          rw [if_pos (decide_eq_true some)]
          rfl
        · rename_i none
          rw [if_neg (by simpa using none)]
          exact congrArg (Books.mk _) (List.append_nil _).symm
      rw [mine]
      split
      · rfl
      · rw [ih, Books.pay_pay, logged, logged, ← List.filter_append]
        rfl

theorem eachBranch_pays (t : TaxTable) (taxes : Guid → ℚ) (b : Books) :
    t.eachBranch taxes b = b.pay (t.shares taxes) (logged (t.shares taxes)) := by
  rw [eachBranch, shares]
  induction t.keys t.players generalizing b with
  | nil => exact b.pay_nil.symm
  | cons guid rest ih =>
      have turn : (if 0 < taxes guid then t.doBranchCommission (t.branch guid) (taxes guid) b
          else b) = b.pay (t.sharesOf taxes guid) (logged (t.sharesOf taxes guid)) := by
        rw [sharesOf]
        split
        · exact doBranchCommission_pays _ _ b
        · exact b.pay_nil.symm
      rw [List.foldl_cons, turn, ih, Books.pay_pay, List.flatMap_cons, logged, logged, logged,
        ← List.filter_append]

theorem levelShares_nonneg (branch : List Guid) (positive : 0 < commission) :
    ∀ share ∈ t.levelShares branch commission, 0 ≤ share.2 := by
  induction branch generalizing commission with
  | nil => exact fun _ member => absurd member List.not_mem_nil
  | cons myself rest ih =>
      obtain ⟨low, high⟩ := t.sonCommission_bounds rest positive
      rw [levelShares]
      refine List.forall_mem_cons.2 ⟨sub_nonneg.2 high, ?_⟩
      split
      · exact fun _ member => absurd member List.not_mem_nil
      · rename_i goes
        exact ih (not_le.1 goes)

/-- The differences telescope: what one level hands down is what the next one starts from, and
the last level reached hands down nothing. -/
theorem levelShares_sum (branch : List Guid) (positive : 0 < commission) :
    ((t.levelShares branch commission).map Prod.snd).sum = if branch = [] then 0 else commission := by
  induction branch generalizing commission with
  | nil => rfl
  | cons myself rest ih =>
      rw [levelShares, if_neg (List.cons_ne_nil _ _), List.map_cons, List.sum_cons]
      have bounds := t.sonCommission_bounds rest positive
      split
      · rename_i ended
        rw [List.map_nil, List.sum_nil, le_antisymm ended bounds.1]
        exact (add_zero _).trans (sub_zero _)
      · rename_i goes
        have more : rest ≠ [] := by
          intro nil
          rw [nil, sonCommission_nil positive] at goes
          exact goes le_rfl
        rw [ih (not_le.1 goes), if_neg more]
        exact sub_add_cancel _ _

theorem sharesOf_nonneg (t : TaxTable) (taxes : Guid → ℚ) (guid : Guid) :
    ∀ share ∈ t.sharesOf taxes guid, 0 ≤ share.2 := by
  rw [sharesOf]
  split
  · rename_i positive
    exact levelShares_nonneg _ positive
  · exact fun _ member => absurd member List.not_mem_nil

theorem shares_nonneg (t : TaxTable) (taxes : Guid → ℚ) : ∀ share ∈ t.shares taxes, 0 ≤ share.2 := by
  intro share member
  obtain ⟨guid, -, among⟩ := List.mem_flatMap.1 member
  exact t.sharesOf_nonneg taxes guid share among

theorem sharesOf_sum (t : TaxTable) (taxes : Guid → ℚ) (guid : Guid) :
    ((t.sharesOf taxes guid).map Prod.snd).sum = if t.branch guid = [] then 0 else max (taxes guid) 0 := by
  rw [sharesOf]
  split
  · rename_i positive
    rw [levelShares_sum _ positive, max_eq_left positive.le]
  · rename_i none
    rw [max_eq_right (not_lt.1 none), ite_self]
    rfl

theorem sum_logged (h : ∀ e ∈ payments, 0 ≤ e.2) :
    ((logged payments).map Prod.snd).sum = (payments.map Prod.snd).sum := by
  induction payments with
  | nil => rfl
  | cons e rest ih =>
      obtain ⟨here, later⟩ := List.forall_mem_cons.1 h
      have ih := ih later
      rw [logged] at ih ⊢
      rw [List.filter_cons]
      split
      · rw [List.map_cons, List.sum_cons, ih, List.map_cons, List.sum_cons]
      · rename_i zero
        rw [decide_eq_true_eq] at zero
        rw [ih, List.map_cons, List.sum_cons, le_antisymm (not_lt.1 zero) here, zero_add]

/-- How many players are in no team. -/
def teamless (t : TaxTable) : Nat := (t.players.toFinset.filter fun guid => t.branch guid = []).card

theorem sum_shares (t : TaxTable) (positive : ∀ guid, 0 ≤ taxes guid) :
    ((t.shares taxes).map Prod.snd).sum = ∑ guid ∈ t.players.toFinset, taxes guid -
      ∑ guid ∈ t.players.toFinset with t.branch guid = [], taxes guid := by
  have each : ∀ list : List Guid, ((list.flatMap (t.sharesOf taxes)).map Prod.snd).sum =
      (list.map fun guid => if t.branch guid = [] then 0 else taxes guid).sum := by
    intro list
    induction list with
    | nil => rfl
    | cons guid rest ih =>
        rw [List.flatMap_cons, List.map_append, List.sum_append, ih, sharesOf_sum,
          max_eq_left (positive guid), List.map_cons, List.sum_cons]
  rw [shares, each, ((t.keys_perm t.players).map _).sum_eq, ← List.sum_toFinset _ t.distinct,
    Finset.sum_filter, ← Finset.sum_sub_distrib]
  refine Finset.sum_congr rfl fun guid _ => ?_
  split
  · rw [sub_self]
  · rw [sub_zero]

theorem card_players : (t.players.toFinset.card : ℚ) = t.players.length := by
  rw [List.toFinset_card_of_nodup t.distinct]

/-- Everybody has the same share. -/
theorem sum_shares_const (t : TaxTable) (positive : 0 ≤ tax) :
    ((t.shares fun _ => tax).map Prod.snd).sum = t.players.length * tax - t.teamless * tax := by
  rw [sum_shares t fun _ => positive, Finset.sum_const, Finset.sum_const, nsmul_eq_mul, nsmul_eq_mul,
    card_players, teamless]

/-- What the shares of the players without a team come to, `rest` being more for the first. -/
def lost (t : TaxTable) (tax rest : ℚ) (first : Guid) : ℚ :=
  t.teamless * tax + if t.branch first = [] then rest else 0

/-- One player has `rest` more. -/
theorem sum_shares_first (t : TaxTable) {rest : ℚ} {first : Guid} (player : first ∈ t.players)
    (positive : ∀ guid, 0 ≤ taxes guid)
    (each : ∀ guid, taxes guid = tax + if guid = first then rest else 0) :
    ((t.shares taxes).map Prod.snd).sum =
      t.players.length * tax + rest - t.lost tax rest first := by
  rw [sum_shares t positive, Finset.sum_congr rfl fun guid _ => each guid,
    Finset.sum_congr rfl fun guid _ => each guid, Finset.sum_add_distrib, Finset.sum_add_distrib,
    Finset.sum_const, Finset.sum_const, nsmul_eq_mul, nsmul_eq_mul, card_players, lost, teamless,
    Finset.sum_ite_eq', Finset.sum_ite_eq', if_pos (List.mem_toFinset.2 player)]
  simp only [Finset.mem_filter, List.mem_toFinset, player, true_and]

/-! ### What is debited -/

/-- What a player is charged in the end. -/
def charged (amount : ℚ) : Int := -⌊-amount⌋

theorem charged_zero : charged 0 = 0 := by
  rw [charged, neg_zero, Int.floor_zero, neg_zero]

theorem le_charged (amount : ℚ) : amount ≤ charged amount := by
  have floor := Int.floor_le (-amount)
  rw [charged, Int.cast_neg]
  linarith

theorem charged_intCast (n : Int) : charged n = n := by
  rw [charged, ← Int.cast_neg, Int.floor_intCast, neg_neg]

theorem sum_doCostTaxMoney (t : TaxTable) (taxes : Guid → ℚ) :
    ((t.doCostTaxMoney taxes).map Prod.snd).sum =
      ∑ guid ∈ t.players.toFinset, charged (taxes guid) := by
  rw [List.sum_toFinset _ t.distinct, doCostTaxMoney, List.map_map]
  induction t.players with
  | nil => rfl
  | cons guid rest ih =>
      rw [List.filter_cons]
      split
      · rw [List.map_cons, List.sum_cons, ih, List.map_cons, List.sum_cons]
        rfl
      · rename_i zero
        have zero : taxes guid = 0 := by simpa using zero
        rw [ih, List.map_cons, List.sum_cons, zero, charged_zero, zero_add]

theorem sum_doCostTaxMoney_some {guids : List Guid} (distinct : guids.Nodup)
    (players : ∀ guid ∈ guids, guid ∈ t.players) (tax : Int) :
    ((t.doCostTaxMoney fun guid => if guid ∈ guids then (tax : ℚ) else 0).map Prod.snd).sum =
      guids.length * tax := by
  have who : t.players.toFinset.filter (· ∈ guids) = guids.toFinset := by
    ext guid
    rw [Finset.mem_filter, List.mem_toFinset, List.mem_toFinset]
    exact and_iff_right_of_imp (players guid)
  have each : ∀ guid, charged (if guid ∈ guids then (tax : ℚ) else 0) =
      if guid ∈ guids then tax else 0 := by
    intro guid
    split
    · exact charged_intCast tax
    · exact charged_zero
  rw [sum_doCostTaxMoney, Finset.sum_congr rfl fun guid _ => each guid, ← Finset.sum_filter, who,
    Finset.sum_const, nsmul_eq_mul, List.toFinset_card_of_nodup distinct]

theorem sum_doCostTaxMoney_lookup {taxes : List (Guid × ℚ)} (distinct : (taxes.map Prod.fst).Nodup)
    (players : ∀ e ∈ taxes, e.1 ∈ t.players) :
    ((t.doCostTaxMoney fun guid => (taxes.lookup guid).getD 0).map Prod.snd).sum =
      (taxes.map fun e => charged e.2).sum := by
  rw [sum_doCostTaxMoney]
  induction taxes with
  | nil => simp [charged_zero]
  | cons e rest ih =>
      obtain ⟨here, later⟩ := List.forall_mem_cons.1 players
      rw [List.map_cons, List.nodup_cons] at distinct
      have apart : ∀ guid, charged (((e :: rest).lookup guid).getD 0) =
          (if guid = e.1 then charged e.2 else 0) + charged ((rest.lookup guid).getD 0) := by
        intro guid
        by_cases same : guid = e.1
        · have none : rest.lookup e.1 = none := by
            refine List.lookup_eq_none_iff.2 fun d member => ?_
            refine bne_iff_ne.2 fun eq => distinct.1 ?_
            rw [eq]
            exact List.mem_map_of_mem member
          rw [same, List.lookup_cons_self, none, if_pos rfl, Option.getD_none, charged_zero, add_zero,
            Option.getD_some]
        · rw [List.lookup_cons, beq_false_of_ne same, if_neg same, zero_add]
      rw [Finset.sum_congr rfl fun guid _ => apart guid, Finset.sum_add_distrib, Finset.sum_ite_eq',
        if_pos (List.mem_toFinset.2 here), ih distinct.2 later, List.map_cons, List.sum_cons]

/-! ### Who is charged -/

theorem winloselist_perm (t : TaxTable) : (t.winloselist.map Prod.fst).Perm t.players := by
  have sorted := (t.lua.perm (fun l r : Guid × Int => decide (r.2 < l.2))
    (t.players.map fun guid => (guid, t.winlose guid))).map Prod.fst
  rwa [List.map_map, show (Prod.fst ∘ fun guid => (guid, t.winlose guid)) = id from rfl,
    List.map_id] at sorted

theorem some_of_winloselist (t : TaxTable) (p : Guid × Int → Bool) :
    ((t.winloselist.filter p).map Prod.fst).Nodup ∧
      ∀ guid ∈ (t.winloselist.filter p).map Prod.fst, guid ∈ t.players := by
  have some : ((t.winloselist.filter p).map Prod.fst).Sublist (t.winloselist.map Prod.fst) :=
    List.filter_sublist.map _
  refine ⟨some.nodup ((winloselist_perm t).nodup_iff.2 t.distinct), fun guid member => ?_⟩
  exact (winloselist_perm t).mem_iff.1 (some.subset member)

theorem charge_bigwin {tax : ℚ} {guids : List Guid} (h : t.charge = .bigwin tax guids) :
    guids ≠ [] ∧ guids.Nodup ∧ ∀ guid ∈ guids, guid ∈ t.players := by
  rw [charge] at h
  split at h
  · split at h
    · cases h
    · rename_i first rest _ _ listed
      dsimp only at h
      split at h
      · cases h
      · split at h
        · cases h
        · split at h
          · cases h
          · cases h
            refine ⟨?_, ?_⟩
            · simp
            · rw [← listed]
              exact some_of_winloselist t _
    · cases h
  · cases h

theorem charge_winners {taxes : List (Guid × ℚ)} (h : t.charge = .winners taxes) :
    taxes ≠ [] ∧ (taxes.map Prod.fst).Nodup ∧ ∀ e ∈ taxes, e.1 ∈ t.players := by
  rw [charge] at h
  split at h
  · split at h
    · cases h
    · rename_i first rest _ _ listed
      dsimp only at h
      split at h
      · cases h
      · rename_i wins
        split at h
        · cases h
          rw [← listed]
          obtain ⟨distinct, players⟩ := some_of_winloselist t fun d => 0 < d.2
          refine ⟨?_, ?_, fun e member => ?_⟩
          · simp [listed, not_le.1 wins]
          · rwa [List.map_map]
          · obtain ⟨d, among, rfl⟩ := List.mem_map.1 member
            exact players d.1 (List.mem_map_of_mem among)
        · split at h
          · cases h
          · cases h
    · cases h
  · cases h

theorem charge_each {tax : ℚ} (h : t.charge = .each tax) : 0 < tax := by
  rw [charge] at h
  split at h
  · split at h
    · rename_i accepted
      cases h
      obtain ⟨-, positive⟩ := Option.filter_eq_some_iff.1 accepted
      exact of_decide_eq_true positive
    · dsimp only at h
      repeat' split at h
      all_goals cases h
    · cases h
  · cases h

/-! ### What the teams are due -/

/-- The part of a winners' tax that goes to the top team before it is split. -/
def insurance (t : TaxTable) (taxes : List (Guid × ℚ)) : List (Guid × ℚ) :=
  let least := t.minEnsurance (taxes.map Prod.snd).sum
  if 0 < least then [(t.topTeam ((t.keys (taxes.map Prod.fst)).getLastD 0), least)] else []

/-- A player's equal part of the winners' tax less the insurance. -/
def eachWin (t : TaxTable) (taxes : List (Guid × ℚ)) : ℚ :=
  let allwintax := (taxes.map Prod.snd).sum
  t.eachWinCommissionTax (allwintax - t.minEnsurance allwintax)

/-- The same amount for the top team of each of the biggest winners. -/
def ensured (t : TaxTable) (amount : ℚ) (guids : List Guid) : List (Guid × ℚ) :=
  guids.map fun guid => (t.topTeam guid, amount)

/-- What the teams are due by the configuration, before the last floor. -/
def dues (t : TaxTable) : List (Guid × ℚ) :=
  if t.template = false then []
  else
    match t.charge with
    | .nothing => []
    | .each tax => t.shares fun _ => tax
    | .winners taxes => t.insurance taxes ++ t.shares fun _ => t.eachWin taxes
    | .bigwin tax guids =>
        let least := t.minEnsurance tax
        (if 0 < least then t.ensured ⌊least / guids.length⌋ (t.keys guids) else []) ++
          t.shares (t.eachBigwinCommissionTax (tax - least) (t.keys guids))

theorem doTaxCommission_pays (template : ¬t.template = false) (tax : ℚ) :
    t.doTaxCommission tax =
      Books.empty.pay (t.shares fun _ => tax) (logged (t.shares fun _ => tax)) := by
  rw [doTaxCommission, if_neg template, eachBranch_pays]

theorem doWinnerCommission_pays (template : ¬t.template = false) (taxes : List (Guid × ℚ)) :
    t.doWinnerCommission taxes =
      Books.empty.pay (t.insurance taxes ++ t.shares fun _ => t.eachWin taxes)
        (t.insurance taxes ++ logged (t.shares fun _ => t.eachWin taxes)) := by
  rw [doWinnerCommission, if_neg template, ← Books.pay_pay]
  have first : (if 0 < t.minEnsurance (taxes.map Prod.snd).sum then
      (Books.empty.credit (t.topTeam ((t.keys (taxes.map Prod.fst)).getLastD 0))
        (t.minEnsurance (taxes.map Prod.snd).sum)).log
        (t.topTeam ((t.keys (taxes.map Prod.fst)).getLastD 0))
        (t.minEnsurance (taxes.map Prod.snd).sum)
      else .empty) = Books.empty.pay (t.insurance taxes) (t.insurance taxes) := by
    rw [insurance]
    split
    · rfl
    · rfl
  dsimp only
  rw [first, eachBranch_pays]
  rfl

theorem ensured_pays (t : TaxTable) (part least : ℚ) (guids : List Guid) (b : Books) :
    guids.foldl (fun b guid => (b.credit (t.topTeam guid) part).log (t.topTeam guid) least) b =
      b.pay (t.ensured part guids) (t.ensured least guids) := by
  induction guids generalizing b with
  | nil => exact b.pay_nil.symm
  | cons guid rest ih =>
      have one : (b.credit (t.topTeam guid) part).log (t.topTeam guid) least =
          b.pay (t.ensured part [guid]) (t.ensured least [guid]) := rfl
      rw [List.foldl_cons, one, ih, Books.pay_pay]
      rfl

theorem doBigwinCommission_pays (template : ¬t.template = false) (tax : ℚ) (guids : List Guid) :
    t.doBigwinCommission tax guids =
      let least := t.minEnsurance tax
      let shares := t.shares (t.eachBigwinCommissionTax (tax - least) guids)
      Books.empty.pay
        ((if 0 < least then t.ensured ⌊least / guids.length⌋ guids else []) ++ shares)
        ((if 0 < least then t.ensured least guids else []) ++ logged shares) := by
  rw [doBigwinCommission, if_neg template]
  dsimp only
  rw [← Books.pay_pay, eachBranch_pays, ensured_pays]
  split
  · rfl
  · rw [Books.pay_nil]

theorem sum_ensured (t : TaxTable) (amount : ℚ) (guids : List Guid) :
    ((t.ensured amount guids).map Prod.snd).sum = guids.length * amount := by
  rw [ensured, List.map_map, show (Prod.snd ∘ fun guid => (t.topTeam guid, amount)) =
    fun _ => amount from rfl, List.map_const', List.sum_replicate, nsmul_eq_mul]

theorem minEnsurance_le (t : TaxTable) (tax : ℚ) : t.minEnsurance tax ≤ tax := by
  unfold minEnsurance
  dsimp only
  split
  · rename_i less
    exact less.le
  · exact le_rfl

/-! ### When the books agree with the debits -/

/-- The books against the debits, with what the last floor drops. -/
theorem conserves_iff (positive : ∀ e ∈ t.dues, 0 ≤ e.2)
    (books : t.costTax.2 = Books.empty.pay t.dues logs) :
    t.Conserves ↔ (t.dues.map Prod.snd).sum - dropped t.dues ≤ t.debited ∧
      (logs.map Prod.snd).sum = (t.dues.map Prod.snd).sum - dropped t.dues := by
  have credited : (t.credited : ℚ) = (t.dues.map Prod.snd).sum - dropped t.dues := by
    rw [TaxTable.credited, books]
    exact sum_credits positive logs
  have contributed : t.contributed = (logs.map Prod.snd).sum := by
    rw [TaxTable.contributed, books]
    rfl
  rw [Conserves, contributed, ← credited, Int.cast_le]

/-- When the books agree with the debits. What the last floor drops of all that the teams are due
has to come to nothing. Besides, with a tax of every winner only a negative least share can do
harm. With a tax of the biggest winners a least share is logged once for each of them but
credited in parts that are floored, and what their number leaves of the tax is credited but not
debited, unless that much is lost on players without a team. -/
def Fair (t : TaxTable) : Prop :=
  match t.charge with
  | .nothing => True
  | .each _ => dropped t.dues = 0
  | .winners taxes =>
      let tax := (taxes.map Prod.snd).sum
      let least := t.minEnsurance tax
      let debit : ℚ := ((taxes.map fun e => charged e.2).sum : Int)
      if t.template = false then 0 ≤ debit
      else dropped t.dues = 0 ∧
        (0 ≤ least ∨ (t.players.length - t.teamless) * ⌊(tax - least) / t.players.length⌋ ≤ debit)
  | .bigwin tax guids =>
      let least := t.minEnsurance tax
      let debit : ℚ := guids.length * ⌊tax / guids.length⌋
      let each := ⌊(tax - least) / t.players.length⌋
      let lost := t.lost each (tax - least - each * t.players.length) ((t.keys guids).headD 0)
      if t.template = false then 0 ≤ tax
      else if 0 < least then
        dropped t.dues + guids.length * (least - ⌊least / guids.length⌋) = 0 ∧
          guids.length * least + (tax - least - lost) ≤ debit
      else dropped t.dues = 0 ∧ tax - least - lost ≤ debit

theorem players_pos {guid : Guid} (player : guid ∈ t.players) : (0 : ℚ) < t.players.length :=
  Nat.cast_pos.2 (List.length_pos_of_mem player)

/-- Without a template nothing is credited or logged. -/
theorem conserves_iff_of_no_template (books : t.costTax.2 = .empty) : t.Conserves ↔ 0 ≤ t.debited := by
  rw [Conserves, credited, contributed, books]
  exact and_iff_left rfl

theorem each_conserves_iff (h : t.charge = .each tax) : t.Conserves ↔ t.Fair := by
  have positive := charge_each h
  have runs : t.costTax = (t.doCostTaxMoney fun _ => tax, t.doTaxCommission tax) := by
    rw [costTax, h]
  have debits : t.debited = t.players.length * charged tax := by
    rw [debited, runs, sum_doCostTaxMoney, Finset.sum_const, nsmul_eq_mul,
      List.toFinset_card_of_nodup t.distinct]
  have enough : (t.players.length : ℚ) * tax ≤ t.debited := by
    rw [debits, Int.cast_mul, Int.cast_natCast]
    exact mul_le_mul_of_nonneg_left (le_charged tax) (Nat.cast_nonneg _)
  rw [Fair, h]
  by_cases template : t.template = false
  · have none : t.dues = [] := by rw [dues, if_pos template]
    have books : t.costTax.2 = .empty := by rw [runs, doTaxCommission, if_pos template]
    rw [conserves_iff_of_no_template books, none]
    refine iff_of_true ?_ rfl
    have all : (0 : ℚ) ≤ t.players.length * tax := mul_nonneg (Nat.cast_nonneg _) positive.le
    exact_mod_cast all.trans enough
  · have all : t.dues = t.shares fun _ => tax := by
      rw [dues, if_neg template, h]
    have books : t.costTax.2 = Books.empty.pay t.dues (logged t.dues) := by
      rw [runs, doTaxCommission_pays template, all]
    have nonneg : ∀ e ∈ t.dues, 0 ≤ e.2 := all ▸ t.shares_nonneg _
    have paid : (t.dues.map Prod.snd).sum ≤ t.players.length * tax := by
      rw [all, sum_shares_const t positive.le]
      exact sub_le_self _ (mul_nonneg (Nat.cast_nonneg _) positive.le)
    rw [conserves_iff nonneg books, sum_logged nonneg]
    constructor
    · intro agree
      linarith only [agree.2]
    · intro whole
      rw [whole, sub_zero]
      exact ⟨paid.trans enough, rfl⟩

theorem le_sum_charged (taxes : List (Guid × ℚ)) :
    (taxes.map Prod.snd).sum ≤ (((taxes.map fun e => charged e.2).sum : Int) : ℚ) := by
  induction taxes with
  | nil => simp
  | cons e rest ih =>
      rw [List.map_cons, List.sum_cons, List.map_cons, List.sum_cons, Int.cast_add]
      exact add_le_add (le_charged e.2) ih

theorem insurance_nonneg (t : TaxTable) (taxes : List (Guid × ℚ)) :
    ∀ e ∈ t.insurance taxes, 0 ≤ e.2 := by
  intro e member
  rw [insurance] at member
  split at member
  · rename_i positive
    rw [List.mem_singleton.1 member]
    exact positive.le
  · exact absurd member List.not_mem_nil

theorem sum_insurance (t : TaxTable) (taxes : List (Guid × ℚ)) :
    ((t.insurance taxes).map Prod.snd).sum = max (t.minEnsurance (taxes.map Prod.snd).sum) 0 := by
  rw [insurance]
  split
  · rename_i positive
    rw [max_eq_left positive.le, List.map_singleton, List.sum_singleton]
  · rename_i none
    rw [max_eq_right (not_lt.1 none)]
    rfl

/-- No more than what is to be split goes to the players of a team. -/
theorem split_le (t : TaxTable) {part : ℚ} (positive : 0 ≤ part) (some : (0 : ℚ) < t.players.length) :
    (t.players.length - t.teamless) * (⌊part / t.players.length⌋ : ℚ) ≤ part := by
  have share : (0 : ℚ) ≤ ⌊part / t.players.length⌋ :=
    Int.cast_nonneg (Int.floor_nonneg.2 (div_nonneg positive some.le))
  have less : (t.players.length - t.teamless : ℚ) ≤ t.players.length :=
    sub_le_self _ (Nat.cast_nonneg _)
  calc (t.players.length - t.teamless) * (⌊part / t.players.length⌋ : ℚ)
      ≤ t.players.length * ⌊part / t.players.length⌋ := mul_le_mul_of_nonneg_right less share
    _ ≤ t.players.length * (part / t.players.length) :=
        mul_le_mul_of_nonneg_left (Int.floor_le _) some.le
    _ = part := mul_div_cancel₀ _ some.ne'

theorem winners_conserves_iff {taxes : List (Guid × ℚ)} (h : t.charge = .winners taxes) :
    t.Conserves ↔ t.Fair := by
  obtain ⟨some, distinct, players⟩ := charge_winners h
  have runs : t.costTax = (t.doCostTaxMoney fun guid => (taxes.lookup guid).getD 0,
      t.doWinnerCommission taxes) := by
    rw [costTax, h]
  have debits : t.debited = (taxes.map fun e => charged e.2).sum := by
    rw [debited, runs, sum_doCostTaxMoney_lookup distinct players]
  rw [Fair, h]
  dsimp only
  by_cases template : t.template = false
  · have books : t.costTax.2 = .empty := by rw [runs, doWinnerCommission, if_pos template]
    rw [conserves_iff_of_no_template books, if_pos template, debits]
    exact Int.cast_nonneg_iff.symm
  · have all : t.dues = t.insurance taxes ++ t.shares fun _ => t.eachWin taxes := by
      rw [dues, if_neg template, h]
    have books : t.costTax.2 = Books.empty.pay t.dues
        (t.insurance taxes ++ logged (t.shares fun _ => t.eachWin taxes)) := by
      rw [runs, doWinnerCommission_pays template, all]
    have nonneg : ∀ e ∈ t.dues, 0 ≤ e.2 := by
      rw [all]
      exact List.forall_mem_append.2 ⟨t.insurance_nonneg taxes, t.shares_nonneg _⟩
    obtain ⟨e, among⟩ := List.exists_mem_of_ne_nil taxes some
    have several := players_pos (players e among)
    have smaller := t.minEnsurance_le (taxes.map Prod.snd).sum
    have share : 0 ≤ t.eachWin taxes :=
      Int.cast_nonneg (Int.floor_nonneg.2 (div_nonneg (sub_nonneg.2 smaller) several.le))
    have enough := le_sum_charged taxes
    have sums : (t.dues.map Prod.snd).sum = max (t.minEnsurance (taxes.map Prod.snd).sum) 0 +
        (t.players.length - t.teamless) * t.eachWin taxes := by
      rw [all, List.map_append, List.sum_append, sum_insurance, sum_shares_const t share, sub_mul]
    have logs : ((t.insurance taxes ++ logged (t.shares fun _ => t.eachWin taxes)).map Prod.snd).sum =
        (t.dues.map Prod.snd).sum := by
      rw [all, List.map_append, List.sum_append, sum_logged (t.shares_nonneg _), List.map_append,
        List.sum_append]
    have split := t.split_le (sub_nonneg.2 smaller) several
    rw [conserves_iff nonneg books, logs, sums, debits, if_neg template]
    rw [eachWin, eachWinCommissionTax]
    generalize t.minEnsurance (taxes.map Prod.snd).sum = least at *
    generalize (t.players.length - t.teamless : ℚ) *
      (⌊((taxes.map Prod.snd).sum - least) / t.players.length⌋ : ℚ) = passed at *
    constructor
    · rintro ⟨paid, agree⟩
      have whole : dropped t.dues = 0 := by linarith only [agree]
      refine ⟨whole, or_iff_not_imp_left.2 fun negative => ?_⟩
      rw [whole, max_eq_right (not_le.1 negative).le] at paid
      linarith only [paid]
    · rintro ⟨whole, positive | less⟩
      · rw [whole, max_eq_left positive]
        exact ⟨by linarith only [split, enough], by ring⟩
      · rw [whole]
        refine ⟨?_, by ring⟩
        by_cases positive : 0 ≤ least
        · rw [max_eq_left positive]
          linarith only [split, enough]
        · rw [max_eq_right (not_le.1 positive).le]
          linarith only [less]

theorem eachBigwinCommissionTax_eq (t : TaxTable) (part : ℚ) (guids : List Guid) (guid : Guid) :
    t.eachBigwinCommissionTax part guids guid = ⌊part / t.players.length⌋ +
      if guid = guids.headD 0 then part - ⌊part / t.players.length⌋ * t.players.length else 0 := by
  rw [eachBigwinCommissionTax]
  split
  · rfl
  · rw [add_zero]

theorem eachBigwinCommissionTax_nonneg {part : ℚ} (positive : 0 ≤ part)
    (some : (0 : ℚ) < t.players.length) (guids : List Guid) (guid : Guid) :
    0 ≤ t.eachBigwinCommissionTax part guids guid := by
  have share : (0 : ℚ) ≤ ⌊part / t.players.length⌋ :=
    Int.cast_nonneg (Int.floor_nonneg.2 (div_nonneg positive some.le))
  have rest : (⌊part / t.players.length⌋ : ℚ) * t.players.length ≤ part :=
    (le_div_iff₀ some).1 (Int.floor_le _)
  rw [eachBigwinCommissionTax_eq]
  split
  · exact add_nonneg share (sub_nonneg.2 rest)
  · rw [add_zero]
    exact share

theorem ensured_nonneg (positive : 0 ≤ amount) (guids : List Guid) :
    ∀ e ∈ t.ensured amount guids, 0 ≤ e.2 := by
  intro e member
  obtain ⟨guid, -, rfl⟩ := List.mem_map.1 member
  exact positive

theorem bigwin_conserves_iff {guids : List Guid} (h : t.charge = .bigwin tax guids) :
    t.Conserves ↔ t.Fair := by
  obtain ⟨some, distinct, players⟩ := charge_bigwin h
  have runs : t.costTax = (t.doCostTaxMoney fun guid =>
      if guid ∈ guids then (⌊tax / guids.length⌋ : Int) else 0,
      t.doBigwinCommission tax (t.keys guids)) := by
    rw [costTax, h]
  have debits : t.debited = guids.length * ⌊tax / guids.length⌋ := by
    rw [debited, runs, sum_doCostTaxMoney_some distinct players]
  have order := t.keys_perm guids
  have length : (t.keys guids).length = guids.length := order.length_eq
  have one : (0 : ℚ) < guids.length := Nat.cast_pos.2 (List.length_pos_iff.2 some)
  have first : (t.keys guids).headD 0 ∈ t.players := by
    cases keys : t.keys guids with
    | nil =>
        rw [keys] at length
        exact absurd (List.length_eq_zero_iff.1 length.symm) some
    | cons guid rest =>
        have member : guid ∈ t.keys guids := by
          rw [keys]
          exact List.mem_cons_self
        exact players guid (order.mem_iff.1 member)
  have several := players_pos first
  rw [Fair, h]
  dsimp only
  by_cases template : t.template = false
  · have books : t.costTax.2 = .empty := by rw [runs, doBigwinCommission, if_pos template]
    rw [conserves_iff_of_no_template books, if_pos template, debits]
    have some : (0 : Int) < guids.length := by exact_mod_cast one
    rw [mul_nonneg_iff_of_pos_left some, Int.floor_nonneg]
    rw [le_div_iff₀ one, zero_mul]
  · have positive := sub_nonneg.2 (t.minEnsurance_le tax)
    have all : t.dues = (if 0 < t.minEnsurance tax then
        t.ensured ⌊t.minEnsurance tax / guids.length⌋ (t.keys guids) else []) ++
        t.shares (t.eachBigwinCommissionTax (tax - t.minEnsurance tax) (t.keys guids)) := by
      rw [dues, if_neg template, h]
    have books : t.costTax.2 = Books.empty.pay t.dues
        ((if 0 < t.minEnsurance tax then t.ensured (t.minEnsurance tax) (t.keys guids) else []) ++
          logged (t.shares (t.eachBigwinCommissionTax (tax - t.minEnsurance tax) (t.keys guids)))) := by
      rw [runs, doBigwinCommission_pays template, all, length]
    have shares := t.sum_shares_first first
      (eachBigwinCommissionTax_nonneg positive several (t.keys guids))
      (t.eachBigwinCommissionTax_eq (tax - t.minEnsurance tax) (t.keys guids))
    have nonneg : ∀ e ∈ t.dues, 0 ≤ e.2 := by
      rw [all]
      refine List.forall_mem_append.2 ⟨?_, t.shares_nonneg _⟩
      split
      · rename_i least
        exact ensured_nonneg (Int.cast_nonneg (Int.floor_nonneg.2 (div_nonneg least.le one.le))) _
      · exact fun _ member => absurd member List.not_mem_nil
    have debit : (t.debited : ℚ) = guids.length * ⌊tax / guids.length⌋ := by
      rw [debits, Int.cast_mul, Int.cast_natCast]
    rw [conserves_iff nonneg books, debit, if_neg template]
    have due : (t.dues.map Prod.snd).sum = ((if 0 < t.minEnsurance tax then
        t.ensured ⌊t.minEnsurance tax / guids.length⌋ (t.keys guids) else []).map Prod.snd).sum +
        ((t.shares (t.eachBigwinCommissionTax (tax - t.minEnsurance tax) (t.keys guids))).map
          Prod.snd).sum := by
      rw [all, List.map_append, List.sum_append]
    rw [due, List.map_append, List.sum_append, sum_logged (t.shares_nonneg _), shares]
    generalize t.minEnsurance tax = least at *
    generalize (⌊(tax - least) / t.players.length⌋ : ℚ) = each at *
    generalize t.lost each (tax - least - each * t.players.length) ((t.keys guids).headD 0) = lost at *
    generalize dropped t.dues = loss at *
    generalize (guids.length * ⌊tax / guids.length⌋ : ℚ) = debit at *
    split
    · rename_i some
      rw [sum_ensured, sum_ensured, length]
      constructor
      · rintro ⟨paid, agree⟩
        exact ⟨by linarith only [agree], by linarith only [paid, agree]⟩
      · rintro ⟨agree, paid⟩
        exact ⟨by linarith only [paid, agree], by linarith only [agree]⟩
    · rw [List.map_nil, List.sum_nil]
      constructor
      · rintro ⟨paid, agree⟩
        exact ⟨by linarith only [agree], by linarith only [paid, agree]⟩
      · rintro ⟨agree, paid⟩
        exact ⟨by linarith only [paid, agree], by linarith only [agree]⟩

/-! ### With whole amounts -/

theorem charged_eq (h : IsWhole amount) : (charged amount : ℚ) = amount := by
  obtain ⟨n, rfl⟩ := h
  rw [charged_intCast]

/-- Of a whole amount every team passes on a whole one. -/
def PassesWhole (t : TaxTable) : Prop :=
  ∀ team commission, IsWhole commission → IsWhole (t.teamCommission team commission)

theorem PassesWhole.sonCommission (passes : t.PassesWhole) (rest : List Guid) (positive : 0 < commission)
    (h : IsWhole commission) : IsWhole (t.sonCommission rest commission) := by
  cases rest with
  | nil =>
      rw [sonCommission_nil positive]
      exact isWhole_zero
  | cons son rest =>
      rw [sonCommission_cons]
      exact min_rec' _ (max_rec' _ (passes son commission h) isWhole_zero) h

theorem PassesWhole.levelShares (passes : t.PassesWhole) (branch : List Guid) (positive : 0 < commission)
    (h : IsWhole commission) : ∀ share ∈ t.levelShares branch commission, IsWhole share.2 := by
  induction branch generalizing commission with
  | nil => exact fun _ member => absurd member List.not_mem_nil
  | cons myself rest ih =>
      have son := passes.sonCommission rest positive h
      rw [TaxTable.levelShares]
      refine List.forall_mem_cons.2 ⟨h.sub son, ?_⟩
      split
      · exact fun _ member => absurd member List.not_mem_nil
      · rename_i goes
        exact ih (not_le.1 goes) son

theorem PassesWhole.shares (passes : t.PassesWhole) (h : ∀ guid, IsWhole (taxes guid)) :
    ∀ share ∈ t.shares taxes, IsWhole share.2 := by
  intro share member
  obtain ⟨guid, -, among⟩ := List.mem_flatMap.1 member
  rw [sharesOf] at among
  split at among
  · rename_i positive
    exact passes.levelShares _ positive (h guid) share among
  · exact absurd among List.not_mem_nil

theorem minEnsurance_whole
    (ensured : ∀ conf least, t.conf = some conf → conf.minEnsurance = some least → IsWhole least)
    (h : IsWhole tax) : IsWhole (t.minEnsurance tax) := by
  rw [TaxTable.minEnsurance]
  have set : IsWhole ((t.conf.bind Conf.minEnsurance).getD 0) := by
    cases found : t.conf.bind Conf.minEnsurance with
    | none => exact isWhole_zero
    | some least =>
        obtain ⟨conf, set, some⟩ := Option.bind_eq_some_iff.1 found
        exact ensured conf least set some
  split
  · exact set
  · exact h

theorem insurance_whole
    (ensured : ∀ conf least, t.conf = some conf → conf.minEnsurance = some least → IsWhole least)
    {taxes : List (Guid × ℚ)} (h : ∀ e ∈ taxes, IsWhole e.2) : ∀ e ∈ t.insurance taxes, IsWhole e.2 := by
  have sum : IsWhole (taxes.map Prod.snd).sum := by
    refine isWhole_sum fun amount member => ?_
    obtain ⟨e, among, rfl⟩ := List.mem_map.1 member
    exact h e among
  intro e member
  rw [insurance] at member
  split at member
  · rw [List.mem_singleton.1 member]
    exact minEnsurance_whole ensured sum
  · exact absurd member List.not_mem_nil

/-- Every amount of the configuration is a whole number, and so is what teams pass on. -/
structure Whole (t : TaxTable) : Prop where
  AA : ∀ conf tax, t.conf = some conf → conf.AA = some tax → IsWhole tax
  bigWin : ∀ conf list, t.conf = some conf → conf.bigWin = some list → ∀ e ∈ list, IsWhole e.2
  minEnsurance : ∀ conf least, t.conf = some conf → conf.minEnsurance = some least → IsWhole least
  passes : t.PassesWhole

/-- What is charged consists of whole amounts. -/
def Charge.Whole : Charge → Prop
  | .nothing => True
  | .each tax => IsWhole tax
  | .bigwin tax _ => IsWhole tax
  | .winners taxes => ∀ e ∈ taxes, IsWhole e.2

namespace Whole

theorem rouletteValue (whole : t.Whole) {conf : Conf} {list : List (ℚ × ℚ)} (set : t.conf = some conf)
    (ranges : conf.bigWin = some list) {v : Int} (h : rouletteValue (t.ranges list) v = some amount) :
    IsWhole amount := by
  obtain ⟨e, found, rfl⟩ := Option.map_eq_some_iff.1 h
  exact whole.bigWin conf list set ranges e ((t.lua.perm _ list).mem_iff.1 (List.mem_of_find?_eq_some found))

theorem charge (whole : t.Whole) : t.charge.Whole := by
  rw [TaxTable.charge]
  split
  · rename_i conf _ set
    split
    · rename_i accepted
      exact whole.AA conf _ set (Option.filter_eq_some_iff.1 accepted).1
    · rename_i bigWin first rest _ ranges _
      dsimp only
      split
      · trivial
      · split
        · intro e member
          obtain ⟨d, -, rfl⟩ := List.mem_map.1 member
          dsimp only
          cases found : TaxTable.rouletteValue (t.ranges bigWin) d.2 with
          | none => exact isWhole_zero
          | some amount => exact whole.rouletteValue set ranges found
        · split
          · trivial
          · rename_i found
            exact whole.rouletteValue set ranges found
    · trivial
  · trivial

theorem least (whole : t.Whole) (h : IsWhole tax) : IsWhole (t.minEnsurance tax) :=
  minEnsurance_whole whole.minEnsurance h

theorem bigwinShare (h : IsWhole amount) (guids : List Guid) (guid : Guid) :
    IsWhole (t.eachBigwinCommissionTax amount guids guid) := by
  rw [eachBigwinCommissionTax_eq]
  refine (isWhole_intCast _).add ?_
  split
  · exact h.sub ((isWhole_intCast _).mul_natCast _)
  · exact isWhole_zero

theorem dues (whole : t.Whole) : ∀ e ∈ t.dues, IsWhole e.2 := by
  have charged := whole.charge
  rw [TaxTable.dues]
  split
  · exact fun _ member => absurd member List.not_mem_nil
  · cases h : t.charge with
    | nothing => exact fun _ member => absurd member List.not_mem_nil
    | each tax =>
        rw [h] at charged
        exact whole.passes.shares fun _ => charged
    | winners taxes =>
        rw [h] at charged
        exact List.forall_mem_append.2 ⟨insurance_whole whole.minEnsurance charged,
          whole.passes.shares fun _ => isWhole_intCast _⟩
    | bigwin tax guids =>
        rw [h] at charged
        refine List.forall_mem_append.2 ⟨fun e member => ?_,
          whole.passes.shares (bigwinShare (charged.sub (whole.least charged)) _)⟩
        split at member
        · obtain ⟨guid, -, rfl⟩ := List.mem_map.1 member
          exact isWhole_intCast _
        · exact absurd member List.not_mem_nil

end Whole

/-- When the books agree with the debits, if all amounts are whole. -/
def FairWhole (t : TaxTable) : Prop :=
  match t.charge with
  | .nothing => True
  | .each _ => True
  | .winners taxes =>
      let tax := (taxes.map Prod.snd).sum
      let least := t.minEnsurance tax
      if t.template = false then 0 ≤ tax
      else 0 ≤ least ∨
        (t.players.length - t.teamless) * ⌊(tax - least) / t.players.length⌋ ≤ tax
  | .bigwin tax guids =>
      let least := t.minEnsurance tax
      let each := ⌊(tax - least) / t.players.length⌋
      let lost := t.lost each (tax - least - each * t.players.length) ((t.keys guids).headD 0)
      if t.template = false then 0 ≤ tax
      else if 0 < least then guids.length = 1
      else tax - least - lost ≤ guids.length * ⌊tax / guids.length⌋

theorem lost_nonneg (t : TaxTable) {tax rest : ℚ} (first : Guid) (share : 0 ≤ tax) (floor : 0 ≤ rest) :
    0 ≤ t.lost tax rest first := by
  rw [lost]
  refine add_nonneg (mul_nonneg (Nat.cast_nonneg _) share) ?_
  split
  · exact floor
  · exact le_rfl

theorem winners_fair_iff (whole : t.Whole) {taxes : List (Guid × ℚ)} (h : t.charge = .winners taxes) :
    t.Fair ↔ t.FairWhole := by
  have charges := whole.charge
  rw [h] at charges
  have debit : (((taxes.map fun e => charged e.2).sum : Int) : ℚ) = (taxes.map Prod.snd).sum := by
    clear h
    induction taxes with
    | nil => rfl
    | cons e rest ih =>
        obtain ⟨here, later⟩ := List.forall_mem_cons.1 charges
        rw [List.map_cons, List.sum_cons, Int.cast_add, charged_eq here, ih later, List.map_cons,
          List.sum_cons]
  rw [Fair, FairWhole, h]
  dsimp only
  rw [debit, dropped_of_whole whole.dues]
  simp only [true_and]

/-- A least share is credited to several winners in parts that are floored. -/
theorem parts_eq_iff {least : ℚ} {winners : Nat} (positive : 0 < least) (h : IsWhole least)
    (some : 0 < winners) : (winners : ℚ) * (least - ⌊least / winners⌋) = 0 ↔ winners = 1 := by
  obtain ⟨n, rfl⟩ := h
  constructor
  · intro same
    have whole : ((n : ℚ) - ⌊(n : ℚ) / winners⌋) = 0 :=
      (mul_eq_zero.1 same).resolve_left (Nat.cast_ne_zero.2 some.ne')
    by_contra several
    have two : (1 : ℚ) < winners := by
      exact_mod_cast (by omega : 1 < winners)
    have less : (n : ℚ) / winners < n := div_lt_self positive two
    have floor := Int.floor_le ((n : ℚ) / winners)
    linarith only [whole, less, floor]
  · intro one
    rw [one, Nat.cast_one, div_one, Int.floor_intCast, sub_self, mul_zero]

theorem bigwin_fair_iff (whole : t.Whole) {guids : List Guid} (h : t.charge = .bigwin tax guids) :
    t.Fair ↔ t.FairWhole := by
  obtain ⟨some, -, players⟩ := charge_bigwin h
  have charges := whole.charge
  rw [h] at charges
  have winners : 0 < guids.length := List.length_pos_iff.2 some
  rw [Fair, FairWhole, h]
  dsimp only
  rw [dropped_of_whole whole.dues]
  by_cases template : t.template = false
  · rw [if_pos template, if_pos template]
  · rw [if_neg template, if_neg template]
    split
    · rename_i positive
      rw [zero_add, parts_eq_iff positive (whole.least charges) winners]
      refine and_iff_left_of_imp fun one => ?_
      obtain ⟨guid, among⟩ := List.exists_mem_of_ne_nil guids some
      have several := players_pos (players guid among)
      have part := sub_nonneg.2 (t.minEnsurance_le tax)
      have each : (0 : ℚ) ≤ ⌊(tax - t.minEnsurance tax) / t.players.length⌋ :=
        Int.cast_nonneg (Int.floor_nonneg.2 (div_nonneg part several.le))
      have rest : (⌊(tax - t.minEnsurance tax) / t.players.length⌋ : ℚ) * t.players.length ≤
          tax - t.minEnsurance tax := (le_div_iff₀ several).1 (Int.floor_le _)
      have lost := t.lost_nonneg ((t.keys guids).headD 0) each (sub_nonneg.2 rest)
      obtain ⟨n, rfl⟩ := charges
      rw [one, Nat.cast_one, div_one, Int.floor_intCast]
      linarith only [lost]
    · simp only [true_and]

/-- In every mode the books agree with the debits exactly when the condition holds, and with
whole amounts the condition is about the least share and the number of winners only. -/
theorem tax_conserved_iff (t : TaxTable) :
    (t.Conserves ↔ t.Fair) ∧ (t.Whole → (t.Fair ↔ t.FairWhole)) := by
  cases h : t.charge with
  | nothing =>
      have runs : t.costTax = ([], .empty) := by rw [costTax, h]
      rw [Fair, FairWhole, h, Conserves, credited, debited, contributed, runs]
      exact ⟨iff_of_true ⟨le_refl _, rfl⟩ trivial, fun _ => Iff.rfl⟩
  | each tax =>
      refine ⟨each_conserves_iff h, fun whole => ?_⟩
      rw [Fair, FairWhole, h]
      exact iff_of_true (dropped_of_whole whole.dues) trivial
  | bigwin tax guids => exact ⟨bigwin_conserves_iff h, fun whole => bigwin_fair_iff whole h⟩
  | winners taxes => exact ⟨winners_conserves_iff h, fun whole => winners_fair_iff whole h⟩

/-- Three players of one team, of whom the players 1 and 2 won as much. -/
def twoBigWinners : TaxTable where
  players := [1, 2, 3]
  distinct := by decide
  owner := 9
  union := true
  template := true
  conf := some { AA := none, AA1 := false, bigWin := some [(-1, 5)], minEnsurance := none }
  branch := fun _ => [9]
  teamCommission := fun _ _ => 0
  winlose := fun guid => if guid = 3 then -20 else 10
  lua := .insertion
  keys := fun list => list
  keys_perm := fun list => .refl list

/-- Of a tax of 5 the two winners pay 2 each, and 5 are credited. -/
theorem more_credited_than_debited : ¬ ∀ t : TaxTable, t.Conserves := by
  intro claim
  have debits : twoBigWinners.debited = 4 := by decide +kernel
  have credits : twoBigWinners.credited = 5 := by decide +kernel
  have le := (claim twoBigWinners).1
  rw [debits, credits] at le
  exact absurd le (by decide)

end TaxTable
end FkServer.Tax
