import Mathlib.Algebra.BigOperators.Group.Finset.Piecewise
import Mathlib.Algebra.Ring.Int.Defs

/-!
Payments between accounts, each with the cause it is made for. What an account
ends with is a sum over the payments, and payments within a group of accounts
leave the group as a whole with nothing.
-/
namespace Ledger

universe u v
variable {Account : Type u} {Cause : Type v} [DecidableEq Account]

structure Payment (Account : Type u) (Cause : Type v) where
  payer : Account
  payee : Account
  amount : Int
  cause : Cause

/-- What one payment does to one account. -/
def Payment.effect (p : Payment Account Cause) (a : Account) : Int :=
  (if p.payee = a then p.amount else 0) - (if p.payer = a then p.amount else 0)

def balance (payments : List (Payment Account Cause)) (a : Account) : Int :=
  (payments.map fun p => p.effect a).sum

theorem sum_effect {group : Finset Account} {p : Payment Account Cause}
    (payer : p.payer ∈ group) (payee : p.payee ∈ group) : ∑ a ∈ group, p.effect a = 0 := by
  unfold Payment.effect
  rw [Finset.sum_sub_distrib, Finset.sum_ite_eq, Finset.sum_ite_eq, if_pos payer, if_pos payee,
    sub_self]

theorem sum_balance {group : Finset Account} {payments : List (Payment Account Cause)}
    (inside : ∀ p ∈ payments, p.payer ∈ group ∧ p.payee ∈ group) :
    ∑ a ∈ group, balance payments a = 0 := by
  induction payments with
  | nil => exact Finset.sum_const_zero
  | cons p rest ih =>
      obtain ⟨here, later⟩ := List.forall_mem_cons.1 inside
      have apart : ∀ a ∈ group, balance (p :: rest) a = p.effect a + balance rest a :=
        fun a _ => by simp [balance]
      rw [Finset.sum_congr rfl apart, Finset.sum_add_distrib, sum_effect here.1 here.2,
        ih later, add_zero]

/-- A sum over a group of which one member has changed. -/
theorem sum_change {group : Finset Account} {a : Account} (inside : a ∈ group)
    {f f' : Account → Int} (others : ∀ b, b ≠ a → f' b = f b) :
    ∑ b ∈ group, f' b = ∑ b ∈ group, f b + (f' a - f a) := by
  have rest : ∑ b ∈ group.erase a, f' b = ∑ b ∈ group.erase a, f b :=
    Finset.sum_congr rfl fun b h => others b (Finset.ne_of_mem_erase h)
  rw [← Finset.add_sum_erase _ f' inside, ← Finset.add_sum_erase _ f inside, rest]
  omega

/-! ### From one account to another -/

/-- What `payer` pays to `payee` in the payments made for causes of a `kind`. -/
def paid (kind : Cause → Bool) (payments : List (Payment Account Cause)) (payer payee : Account) :
    Int :=
  ((payments.filter fun p => kind p.cause ∧ p.payer = payer ∧ p.payee = payee).map
    Payment.amount).sum

variable {kind : Cause → Bool} {payer payee : Account}

theorem paid_append (l l' : List (Payment Account Cause)) :
    paid kind (l ++ l') payer payee = paid kind l payer payee + paid kind l' payer payee := by
  simp only [paid, List.filter_append, List.map_append, List.sum_append]

theorem paid_eq_zero {payments : List (Payment Account Cause)}
    (other : ∀ p ∈ payments, kind p.cause = true → p.payer = payer → p.payee ≠ payee) :
    paid kind payments payer payee = 0 := by
  unfold paid
  rw [List.filter_eq_nil_iff.2, List.map_nil, List.sum_nil]
  intro p h meant
  obtain ⟨cause, taken, given⟩ := of_decide_eq_true meant
  exact other p h cause taken given

/-- Of payments that each account takes for itself, only those of `payee` matter. -/
theorem paid_flatMap {takes : Account → List (Payment Account Cause)} {l : List Account}
    (own : ∀ a ∈ l, ∀ p ∈ takes a, p.payee = a) (distinct : l.Nodup) (here : payee ∈ l) :
    paid kind (l.flatMap takes) payer payee = paid kind (takes payee) payer payee := by
  induction l with
  | nil => cases here
  | cons a rest ih =>
      obtain ⟨first, later⟩ := List.forall_mem_cons.1 own
      obtain ⟨fresh, distinct⟩ := List.nodup_cons.1 distinct
      rw [List.flatMap_cons, paid_append]
      by_cases h : a = payee
      · subst h
        have rest_apart : paid kind (rest.flatMap takes) payer a = 0 := by
          refine paid_eq_zero fun p mem _ _ same => ?_
          obtain ⟨b, in_rest, taken⟩ := List.mem_flatMap.1 mem
          exact fresh (same ▸ later b in_rest p taken ▸ in_rest)
        rw [rest_apart, add_zero]
      · have none_here : paid kind (takes a) payer payee = 0 :=
          paid_eq_zero fun p mem _ _ same => h ((first p mem).symm.trans same)
        rw [none_here, zero_add, ih later distinct ((List.mem_cons.1 here).resolve_left (Ne.symm h))]

/-- Payments to one account for one cause. -/
theorem paid_map {α : Type u} {cause : Cause} (which : kind cause = true) (who : α → Account)
    (amount : α → Int) (l : List α) :
    paid kind (l.map fun x => ⟨who x, payee, amount x, cause⟩) payer payee =
      ((l.filter fun x => who x = payer).map amount).sum := by
  simp only [paid, List.filter_map, List.map_map, Function.comp_def, which, true_and, and_true]

/-- Payments of one account each. -/
theorem paid_each {cause : Cause} (which : kind cause = true) (amount : Account → Int)
    {l : List Account} (distinct : l.Nodup) :
    paid kind (l.map fun a => ⟨a, payee, amount a, cause⟩) payer payee =
      if payer ∈ l then amount payer else 0 := by
  rw [paid_map which (fun a => a) amount, List.filter_eq, distinct.count]
  split <;> simp

end Ledger
