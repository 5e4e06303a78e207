import FkServer.Library.Buckets
import FkServer.Library.Runs
import Mathlib.Data.Nat.Bitwise
import Mathlib.Data.BitVec
import Mathlib.Tactic.IntervalCases

/-!
`skynet_timer.c`: the hierarchical timing wheel behind `skynet.timeout`. Any thread adds a node;
the timer thread shifts the time and dispatches what is due. Both hold the lock of the wheel,
which the timer thread gives back while it dispatches a list.
-/
namespace FkServer.Skynet

/-- `struct timer_event` -/
structure TimerEvent where
  handle : BitVec 32
  session : Int
deriving DecidableEq

/-- `struct timer_node`, with the event behind it. -/
structure TimerNode where
  expire : BitVec 32
  event : TimerEvent
deriving DecidableEq

/-- A list of the wheel: one of `near`, or one of a level of `t`. -/
inductive Slot
  | near (idx : Nat)
  | t (level idx : Nat)
deriving DecidableEq

/-- `struct timer` without the clock. -/
structure Timer where
  list : Slot → List TimerNode
  time : BitVec 32

def TIME_NEAR_SHIFT : Nat := 8
def TIME_NEAR : BitVec 32 := 1#32 <<< TIME_NEAR_SHIFT
def TIME_LEVEL_SHIFT : Nat := 6
def TIME_LEVEL : BitVec 32 := 1#32 <<< TIME_LEVEL_SHIFT
def TIME_NEAR_MASK : BitVec 32 := TIME_NEAR - 1
def TIME_LEVEL_MASK : BitVec 32 := TIME_LEVEL - 1

/-- The loop of `add_node`, with the rounds that are left. -/
def addLevel (time current_time : BitVec 32) : Nat → Nat → BitVec 32 → Nat
  | 0, i, _ => i
  | rounds + 1, i, mask =>
      if time ||| (mask - 1) = current_time ||| (mask - 1) then i
      else addLevel time current_time rounds (i + 1) (mask <<< TIME_LEVEL_SHIFT)

/-- Where `add_node` links a node. -/
def addSlot (time current_time : BitVec 32) : Slot :=
  if time ||| TIME_NEAR_MASK = current_time ||| TIME_NEAR_MASK then
    .near (time &&& TIME_NEAR_MASK).toNat
  else
    let i := addLevel time current_time 3 0 (TIME_NEAR <<< TIME_LEVEL_SHIFT)
    .t i ((time >>> (TIME_NEAR_SHIFT + i * TIME_LEVEL_SHIFT)) &&& TIME_LEVEL_MASK).toNat

namespace Timer

variable (T : Timer)

def addNode (node : TimerNode) : Timer :=
  { T with list := Buckets.link T.list (addSlot node.expire T.time) node }

/-- `timer_add`, under the lock. -/
def timerAdd (event : TimerEvent) (time : Int) : Timer :=
  T.addNode ⟨BitVec.ofInt 32 time + T.time, event⟩

/-- `link_clear` -/
def linkClear (s : Slot) : Timer := { T with list := Function.update T.list s [] }

def moveList (level idx : Nat) : Timer :=
  (T.list (.t level idx)).foldl addNode (T.linkClear (.t level idx))

/-- The loop of `timer_shift`, with the rounds that are left; the last level always moves. -/
def shiftLoop (ct : BitVec 32) : Nat → Nat → BitVec 32 → BitVec 32 → Timer
  | 0, _, _, _ => T
  | rounds + 1, i, mask, time =>
      if ct &&& (mask - 1) = 0 then
        let idx := (time &&& TIME_LEVEL_MASK).toNat
        if idx ≠ 0 then T.moveList i idx
        else shiftLoop ct rounds (i + 1) (mask <<< TIME_LEVEL_SHIFT) (time >>> TIME_LEVEL_SHIFT)
      else T

def timerShift : Timer :=
  let ct := T.time + 1
  let T := { T with time := ct }
  if ct = 0 then T.moveList 3 0
  else T.shiftLoop ct 4 0 TIME_NEAR (ct >>> TIME_NEAR_SHIFT)

/-- The list that `timer_execute` looks at. -/
def executeSlot : Slot := .near (T.time &&& TIME_NEAR_MASK).toNat

/-- `timer_create_timer` -/
def create : Timer := ⟨fun _ => [], 0⟩

end Timer

/-! ### Bits and digits -/

theorem or_mask_eq_iff {k a b : Nat} :
    a ||| (2 ^ k - 1) = b ||| (2 ^ k - 1) ↔ a / 2 ^ k = b / 2 ^ k := by
  constructor
  · intro same
    refine Nat.eq_of_testBit_eq fun j => ?_
    have bit := congrArg (Nat.testBit · (k + j)) same
    have high : ¬k + j < k := by omega
    simp only [Nat.testBit_or, Nat.testBit_two_pow_sub_one, high, decide_false,
      Bool.or_false] at bit
    rwa [Nat.testBit_div_two_pow, Nat.testBit_div_two_pow, Nat.add_comm j k]
  · intro same
    refine Nat.eq_of_testBit_eq fun j => ?_
    rw [Nat.testBit_or, Nat.testBit_or, Nat.testBit_two_pow_sub_one]
    by_cases low : j < k
    · simp [low]
    · have bit := congrArg (Nat.testBit · (j - k)) same
      simpa [low, Nat.testBit_div_two_pow, Nat.sub_add_cancel (Nat.le_of_not_lt low)] using bit

/-- The level of the wheel that tells `d` from `n`, which is the highest digit they differ in. -/
def slotOf (d n : Nat) : Slot :=
  if d / 2 ^ 8 = n / 2 ^ 8 then .near (d % 2 ^ 8)
  else if d / 2 ^ 14 = n / 2 ^ 14 then .t 0 (d / 2 ^ 8 % 2 ^ 6)
  else if d / 2 ^ 20 = n / 2 ^ 20 then .t 1 (d / 2 ^ 14 % 2 ^ 6)
  else if d / 2 ^ 26 = n / 2 ^ 26 then .t 2 (d / 2 ^ 20 % 2 ^ 6)
  else .t 3 (d / 2 ^ 26 % 2 ^ 6)

theorem or_mask_iff (a b mask : BitVec 32) (k : Nat) (ones : mask.toNat = 2 ^ k - 1) :
    a ||| mask = b ||| mask ↔ a.toNat / 2 ^ k = b.toNat / 2 ^ k := by
  rw [← or_mask_eq_iff, ← ones, ← BitVec.toNat_or, ← BitVec.toNat_or, BitVec.toNat_inj]

theorem and_mask_toNat (a mask : BitVec 32) (k : Nat) (ones : mask.toNat = 2 ^ k - 1) :
    (a &&& mask).toNat = a.toNat % 2 ^ k := by
  rw [BitVec.toNat_and, ones, Nat.and_two_pow_sub_one_eq_mod]

theorem shift_and_mask_toNat (a : BitVec 32) (s : Nat) :
    ((a >>> s) &&& TIME_LEVEL_MASK).toNat = a.toNat / 2 ^ s % 2 ^ 6 := by
  rw [and_mask_toNat _ _ 6 (by decide), BitVec.toNat_ushiftRight, Nat.shiftRight_eq_div_pow]

theorem addLevel_eq (time current : BitVec 32) :
    addLevel time current 3 0 (TIME_NEAR <<< TIME_LEVEL_SHIFT) =
      if time.toNat / 2 ^ 14 = current.toNat / 2 ^ 14 then 0
      else if time.toNat / 2 ^ 20 = current.toNat / 2 ^ 20 then 1
      else if time.toNat / 2 ^ 26 = current.toNat / 2 ^ 26 then 2 else 3 := by
  have level₀ := or_mask_iff time current (TIME_NEAR <<< TIME_LEVEL_SHIFT - 1) 14 (by decide)
  have level₁ := or_mask_iff time current
    (TIME_NEAR <<< TIME_LEVEL_SHIFT <<< TIME_LEVEL_SHIFT - 1) 20 (by decide)
  have level₂ := or_mask_iff time current
    (TIME_NEAR <<< TIME_LEVEL_SHIFT <<< TIME_LEVEL_SHIFT <<< TIME_LEVEL_SHIFT - 1) 26 (by decide)
  simp only [addLevel, level₀, level₁, level₂]

theorem addSlot_toNat (time current : BitVec 32) :
    addSlot time current = slotOf time.toNat current.toNat := by
  have near := or_mask_iff time current TIME_NEAR_MASK 8 (by decide)
  have idx := and_mask_toNat time TIME_NEAR_MASK 8 (by decide)
  unfold addSlot slotOf
  simp only [near, idx, addLevel_eq, shift_and_mask_toNat]
  split
  · rfl
  · split
    · rfl
    · split
      · rfl
      · split <;> rfl

/-- The times that a node may have: not past, and less than half a round away. -/
def InReach (n d : Nat) : Prop := n ≤ d ∧ d < n + 2 ^ 31

theorem slotOf_mod {d n : Nat} (reach : InReach n d) :
    slotOf (d % 2 ^ 32) (n % 2 ^ 32) = slotOf d n := by
  obtain ⟨after, before⟩ := reach
  have near : d % 2 ^ 32 / 2 ^ 8 = n % 2 ^ 32 / 2 ^ 8 ↔ d / 2 ^ 8 = n / 2 ^ 8 := by omega
  have level₀ : d % 2 ^ 32 / 2 ^ 14 = n % 2 ^ 32 / 2 ^ 14 ↔ d / 2 ^ 14 = n / 2 ^ 14 := by omega
  have level₁ : d % 2 ^ 32 / 2 ^ 20 = n % 2 ^ 32 / 2 ^ 20 ↔ d / 2 ^ 20 = n / 2 ^ 20 := by omega
  have level₂ : d % 2 ^ 32 / 2 ^ 26 = n % 2 ^ 32 / 2 ^ 26 ↔ d / 2 ^ 26 = n / 2 ^ 26 := by omega
  have digit₀ : d % 2 ^ 32 % 2 ^ 8 = d % 2 ^ 8 := by omega
  have digit₁ : d % 2 ^ 32 / 2 ^ 8 % 2 ^ 6 = d / 2 ^ 8 % 2 ^ 6 := by omega
  have digit₂ : d % 2 ^ 32 / 2 ^ 14 % 2 ^ 6 = d / 2 ^ 14 % 2 ^ 6 := by omega
  have digit₃ : d % 2 ^ 32 / 2 ^ 20 % 2 ^ 6 = d / 2 ^ 20 % 2 ^ 6 := by omega
  have digit₄ : d % 2 ^ 32 / 2 ^ 26 % 2 ^ 6 = d / 2 ^ 26 % 2 ^ 6 := by omega
  simp only [slotOf, near, level₀, level₁, level₂, digit₀, digit₁, digit₂, digit₃, digit₄]

/-- How far down the wheel a list is. -/
def Slot.rank : Slot → Nat
  | .near _ => 0
  | .t level _ => level + 1

/-- The first digit of a level. -/
def low (level : Nat) : Nat := 2 ^ (8 + 6 * level)

theorem slotOf_congr {d n n' : Nat}
    (same : ∀ level < 4, d / low level = n' / low level ↔ d / low level = n / low level) :
    slotOf d n' = slotOf d n := by
  have near := same 0 (by decide)
  have level₀ := same 1 (by decide)
  have level₁ := same 2 (by decide)
  have level₂ := same 3 (by decide)
  simp only [low] at near level₀ level₁ level₂
  simp only [slotOf, near, level₀, level₁, level₂]

theorem rank_le_iff {d n level : Nat} (small : level < 4) :
    (slotOf d n).rank ≤ level ↔ d / low level = n / low level := by
  unfold slotOf low
  interval_cases level <;> split_ifs <;> simp only [Slot.rank] <;> omega

theorem slotOf_eq_t_iff {d n level idx : Nat} (small : level < 4) :
    slotOf d n = .t level idx ↔ d / low level ≠ n / low level ∧
      (level < 3 → d / low (level + 1) = n / low (level + 1)) ∧ d / low level % 2 ^ 6 = idx := by
  unfold slotOf low
  interval_cases level <;> split_ifs <;>
    simp only [Slot.t.injEq, Nat.reduceEqDiff, zero_ne_one, one_ne_zero, OfNat.ofNat_ne_zero,
      OfNat.zero_ne_ofNat, OfNat.ofNat_ne_one, OfNat.one_ne_ofNat, false_and, true_and,
      false_iff] <;> omega

theorem low_succ (level : Nat) : low (level + 1) = low level * 2 ^ 6 := by
  rw [low, low, Nat.mul_add, ← Nat.add_assoc, Nat.pow_add]

theorem low_pos (level : Nat) : 0 < low level := Nat.two_pow_pos _

/-- Numbers that agree from a digit on agree from every higher one on. -/
theorem div_low_congr {d n level level' : Nat} (le : level ≤ level')
    (same : d / low level = n / low level) : d / low level' = n / low level' := by
  induction le with
  | refl => exact same
  | step _ ih => rw [low_succ, ← Nat.div_div_eq_div_mul, ← Nat.div_div_eq_div_mul, ih]

theorem mod_low_succ {n level : Nat} :
    n % low (level + 1) = 0 ↔ n % low level = 0 ∧ n / low level % 2 ^ 6 = 0 := by
  rw [low_succ, Nat.mod_mul, Nat.add_eq_zero_iff, Nat.mul_eq_zero]
  have pos := low_pos level
  omega

/-! ### The shift -/

/-- The list that the shift to `n` moves: the digit that has just been carried to. -/
def carry (n : Nat) : Option (Nat × Nat) :=
  if n % low 0 ≠ 0 then none
  else if n / low 0 % 2 ^ 6 ≠ 0 then some (0, n / low 0 % 2 ^ 6)
  else if n / low 1 % 2 ^ 6 ≠ 0 then some (1, n / low 1 % 2 ^ 6)
  else if n / low 2 % 2 ^ 6 ≠ 0 then some (2, n / low 2 % 2 ^ 6)
  else some (3, n / low 3 % 2 ^ 6)

theorem carry_none {n : Nat} (none : carry n = none) : n % low 0 ≠ 0 := by
  intro zero
  unfold carry at none
  split_ifs at none
  contradiction

theorem carry_some {n level idx : Nat} (carried : carry n = some (level, idx)) :
    level < 4 ∧ n / low level % 2 ^ 6 = idx ∧ n % low level = 0 ∧
      (level < 3 → n % low (level + 1) ≠ 0) := by
  unfold carry at carried
  split_ifs at carried <;> simp only [Option.some.injEq, Prod.mk.injEq] at carried <;>
    obtain ⟨rfl, rfl⟩ := carried <;> simp_all [mod_low_succ]

/-- A digit that has not been carried to. -/
theorem succ_div_low {n level : Nat} (dirty : (n + 1) % low level ≠ 0) :
    (n + 1) / low level = n / low level := by
  rw [Nat.succ_div, if_neg fun dvd => dirty (Nat.mod_eq_zero_of_dvd dvd), Nat.add_zero]

/-- What comes after a carry is apart from what came before it in every digit below. -/
theorem div_low_ne {d n level level' : Nat} (le : level ≤ level')
    (clean : (n + 1) % low level' = 0) (after : n + 1 ≤ d) : d / low level ≠ n / low level := by
  intro same
  have high := div_low_congr le same
  have grown : (n + 1) / low level' = n / low level' + 1 := by
    rw [Nat.succ_div, if_pos (Nat.dvd_of_mod_eq_zero clean)]
  have mono : (n + 1) / low level' ≤ d / low level' := Nat.div_le_div_right after
  omega

theorem slotOf_no_carry {d n : Nat} (none : carry (n + 1) = none) :
    slotOf d (n + 1) = slotOf d n := by
  refine slotOf_congr fun level _ => ?_
  rw [div_low_congr (Nat.zero_le level) (succ_div_low (carry_none none))]

/-- What is left of the lists below the digit is in the past. -/
theorem rank_of_carry {d n level idx : Nat} (carried : carry (n + 1) = some (level, idx))
    (after : n + 1 ≤ d) : level < (slotOf d n).rank := by
  obtain ⟨small, -, clean, -⟩ := carry_some carried
  rw [← Nat.not_le, rank_le_iff small]
  exact div_low_ne (Nat.le_refl level) clean after

theorem div_low_carried {n level idx : Nat} (carried : carry (n + 1) = some (level, idx))
    (inner : level < 3) : (n + 1) / low (level + 1) = n / low (level + 1) :=
  succ_div_low ((carry_some carried).2.2.2 inner)

/-- The list that is moved is the block that the time enters. -/
theorem slotOf_eq_carried_iff {d n level idx : Nat}
    (carried : carry (n + 1) = some (level, idx)) (reach : InReach (n + 1) d) :
    slotOf d n = .t level idx ↔ d / low level = (n + 1) / low level := by
  obtain ⟨small, digit, clean, -⟩ := carry_some carried
  rw [slotOf_eq_t_iff small]
  constructor
  · rintro ⟨-, close, same⟩
    rw [← digit] at same
    by_cases inner : level < 3
    · have high := close inner
      rw [← div_low_carried carried inner, low_succ, ← Nat.div_div_eq_div_mul,
        ← Nat.div_div_eq_div_mul] at high
      omega
    · obtain ⟨after, before⟩ := reach
      have last : level = 3 := by omega
      subst last
      simp only [low] at same ⊢
      omega
  · intro same
    refine ⟨div_low_ne (Nat.le_refl level) clean reach.1, fun inner => ?_, by rw [same, digit]⟩
    rw [div_low_congr (Nat.le_succ level) same, div_low_carried carried inner]

theorem rank_of_moved {d n level idx : Nat} (carried : carry (n + 1) = some (level, idx))
    (reach : InReach (n + 1) d) (there : slotOf d n = .t level idx) :
    (slotOf d (n + 1)).rank ≤ level := by
  rw [rank_le_iff (carry_some carried).1]
  exact (slotOf_eq_carried_iff carried reach).1 there

theorem slotOf_of_unmoved {d n level idx : Nat} (carried : carry (n + 1) = some (level, idx))
    (reach : InReach (n + 1) d) (elsewhere : slotOf d n ≠ .t level idx) :
    slotOf d (n + 1) = slotOf d n := by
  obtain ⟨small, -, clean, -⟩ := carry_some carried
  refine slotOf_congr fun level' small' => ?_
  by_cases below : level' ≤ level
  · refine iff_of_false (fun same => elsewhere ?_) (div_low_ne below clean reach.1)
    exact (slotOf_eq_carried_iff carried reach).2 (div_low_congr below same)
  · have inner : level < 3 := by omega
    have above : level + 1 ≤ level' := by omega
    rw [div_low_congr above (div_low_carried carried inner)]

theorem and_mask_eq_zero_iff {a mask : BitVec 32} {k : Nat} (ones : mask.toNat = 2 ^ k - 1) :
    a &&& mask = 0 ↔ a.toNat % 2 ^ k = 0 := by
  rw [← BitVec.toNat_inj, and_mask_toNat _ _ k ones]
  rfl

theorem toNat_low (n : Nat) {level : Nat} (small : level < 4) :
    (BitVec.ofNat 32 n).toNat % low level = n % low level ∧
      (BitVec.ofNat 32 n).toNat / low level % 2 ^ 6 = n / low level % 2 ^ 6 := by
  rw [BitVec.toNat_ofNat]
  interval_cases level <;> simp only [low] <;> omega

namespace Timer

variable (T : Timer)

/-- `timer_shift` steps the time and moves the list that is carried to. -/
def shifted (n : Nat) : Timer :=
  let T := { T with time := BitVec.ofNat 32 n }
  match carry n with
  | none => T
  | some (level, idx) => T.moveList level idx

/-- The loop skips the digits that are zero. -/
theorem shiftLoop_eq {n level idx : Nat} (carried : carry n = some (level, idx))
    (some : idx ≠ 0) {rounds i : Nat} (le : i ≤ level) (left : level < i + rounds) :
    T.shiftLoop (BitVec.ofNat 32 n) rounds i (BitVec.ofNat 32 (low i))
      (BitVec.ofNat 32 n >>> (8 + 6 * i)) = T.moveList level idx := by
  obtain ⟨small, digit, clean, -⟩ := carry_some carried
  induction rounds generalizing i with
  | zero => omega
  | succ rounds ih =>
      have small' : i < 4 := by omega
      have ones : (BitVec.ofNat 32 (low i) - 1).toNat = 2 ^ (8 + 6 * i) - 1 := by
        interval_cases i <;> decide
      have clean' : n % low i = 0 := by
        rw [← Nat.dvd_iff_mod_eq_zero] at clean ⊢
        exact (Nat.pow_dvd_pow 2 (by omega)).trans clean
      have low_bits : BitVec.ofNat 32 n &&& (BitVec.ofNat 32 (low i) - 1) = 0 := by
        rw [and_mask_eq_zero_iff ones]
        exact (toNat_low n small').1.trans clean'
      have idx_eq := shift_and_mask_toNat (BitVec.ofNat 32 n) (8 + 6 * i)
      rw [← low, (toNat_low n small').2] at idx_eq
      rw [shiftLoop, if_pos low_bits, idx_eq]
      by_cases here : i = level
      · subst here
        rw [digit, if_pos some]
      · have below : i < level := by omega
        have zero : n / low i % 2 ^ 6 = 0 := by
          refine (mod_low_succ.1 ?_).2
          rw [← Nat.dvd_iff_mod_eq_zero] at clean ⊢
          exact (Nat.pow_dvd_pow 2 (by omega)).trans clean
        have mask : BitVec.ofNat 32 (low i) <<< TIME_LEVEL_SHIFT =
            BitVec.ofNat 32 (low (i + 1)) := by
          have inner : i < 3 := by omega
          interval_cases i <;> decide
        have time : BitVec.ofNat 32 n >>> (8 + 6 * i) >>> TIME_LEVEL_SHIFT =
            BitVec.ofNat 32 n >>> (8 + 6 * (i + 1)) := by
          rw [← BitVec.shiftRight_add]
          rfl
        rw [zero, if_neg (by decide), mask, time]
        exact ih below (by omega)

theorem timerShift_eq {n : Nat} (time : T.time = BitVec.ofNat 32 n) :
    T.timerShift = T.shifted (n + 1) := by
  have ct : T.time + 1 = BitVec.ofNat 32 (n + 1) := by
    rw [time]
    exact (BitVec.ofNat_add ..).symm
  have zero : BitVec.ofNat 32 (n + 1) = 0 ↔ (n + 1) % 2 ^ 32 = 0 := by
    rw [← BitVec.toNat_inj, BitVec.toNat_ofNat]
    rfl
  simp only [timerShift, shifted, ct]
  by_cases wrapped : (n + 1) % 2 ^ 32 = 0
  · have digits : ∀ level < 4, (n + 1) % low level = 0 ∧ (n + 1) / low level % 2 ^ 6 = 0 := by
      intro level small
      interval_cases level <;> simp only [low] <;> omega
    have carried : carry (n + 1) = some (3, 0) := by
      simp only [carry, digits 0 (by decide), digits 1 (by decide), digits 2 (by decide),
        digits 3 (by decide), ne_eq, not_true_eq_false, if_false]
    rw [if_pos (zero.2 wrapped), carried]
  · rw [if_neg (wrapped ∘ zero.1)]
    cases carried : carry (n + 1) with
    | none =>
        have ones : (TIME_NEAR - 1).toNat = 2 ^ 8 - 1 := by decide
        have dirty : BitVec.ofNat 32 (n + 1) &&& (TIME_NEAR - 1) ≠ 0 := by
          rw [ne_eq, and_mask_eq_zero_iff ones]
          exact fun clean => carry_none carried ((toNat_low (n + 1) (by decide)).1.symm.trans clean)
        rw [shiftLoop, if_neg dirty]
    | some moved =>
        obtain ⟨level, idx⟩ := moved
        have some : idx ≠ 0 := by
          obtain ⟨small, digit, clean, dirty⟩ := carry_some carried
          by_cases inner : level < 3
          · rintro rfl
            exact dirty inner (mod_low_succ.2 ⟨clean, digit⟩)
          · have last : level = 3 := by omega
            subst last
            simp only [low] at digit clean
            omega
        have small := (carry_some carried).1
        exact shiftLoop_eq _ carried some (Nat.zero_le level) (by omega)

end Timer

/-! ### The timer thread -/

/-- Where the timer thread is in `skynet_updatetime`; `left` calls of `timer_update` are to come. -/
inductive Phase
  | idle
  | ticking (left : Nat)
  /-- In `dispatch_list`, without the lock, before or after the shift. -/
  | dispatching (shifted : Bool) (nodes : List TimerNode) (left : Nat)

/-- `TI` and its thread. The rest is history: the shifts so far, the timeouts asked for with their
deadlines and the messages pushed by `dispatch_list` with their ticks. -/
structure Clock where
  timer : Timer
  current : BitVec 64
  current_point : BitVec 64
  phase : Phase
  ticks : Nat
  asked : List (Nat × TimerEvent)
  pushed : List (Nat × TimerEvent)
  /-- Messages of timeouts that are not in the future. -/
  immediate : List TimerEvent

inductive TimerStep
  /-- `skynet_timeout`, by any thread. -/
  | timeout (event : TimerEvent) (time : Int)
  /-- `skynet_updatetime` reads the clock. -/
  | updatetime (cp : BitVec 64)
  /-- `timer_update` takes the lock, or the loop around it ends. -/
  | update
  /-- `dispatch_list` pushes a message. -/
  | dispatch
  /-- `timer_execute` has the lock again. -/
  | relock

namespace Clock

variable (s : Clock)

/-- What the thread is about to push. -/
def dispatching : List (Nat × TimerEvent) :=
  match s.phase with
  | .dispatching _ nodes _ => nodes.map fun node => (s.ticks, node.event)
  | _ => []

/-- The calls of `timer_update` that have not shifted yet. -/
def left : Nat :=
  match s.phase with
  | .idle => 0
  | .ticking left => left
  | .dispatching true _ left => left
  | .dispatching false _ left => left + 1

def skynetTimeout (event : TimerEvent) (time : Int) : Clock :=
  if time ≤ 0 then { s with immediate := s.immediate ++ [event] }
  else { s with
    timer := s.timer.timerAdd event time
    asked := s.asked ++ [(s.ticks + time.toNat, event)] }

def skynetUpdatetime (cp : BitVec 64) : Clock :=
  if cp < s.current_point then { s with current_point := cp }
  else if cp ≠ s.current_point then
    let diff := (cp - s.current_point).setWidth 32
    { s with
      current_point := cp
      current := s.current + diff.setWidth 64
      phase := .ticking diff.toNat }
  else s

/-- The loop of the second `timer_execute`, up to where it gives the lock back. -/
def executeAfter (left : Nat) : Clock :=
  match s.timer.list s.timer.executeSlot with
  | [] => { s with phase := .ticking left }
  | node :: nodes =>
      { s with
        timer := s.timer.linkClear s.timer.executeSlot
        phase := .dispatching true (node :: nodes) left }

def shift : Clock := { s with timer := s.timer.timerShift, ticks := s.ticks + 1 }

/-- The loop of the first one, which goes on to the shift. -/
def executeBefore (left : Nat) : Clock :=
  match s.timer.list s.timer.executeSlot with
  | [] => s.shift.executeAfter left
  | node :: nodes =>
      { s with
        timer := s.timer.linkClear s.timer.executeSlot
        phase := .dispatching false (node :: nodes) left }

def step : TimerStep → Option Clock
  | .timeout event time =>
      if -2 ^ 31 ≤ time ∧ time < 2 ^ 31 then some (s.skynetTimeout event time) else none
  | .updatetime cp =>
      match s.phase with
      | .idle => some (s.skynetUpdatetime cp)
      | _ => none
  | .update =>
      match s.phase with
      | .ticking 0 => some { s with phase := .idle }
      | .ticking (left + 1) => some (s.executeBefore left)
      | _ => none
  | .dispatch =>
      match s.phase with
      | .dispatching shifted (node :: nodes) left =>
          some { s with
            pushed := s.pushed ++ [(s.ticks, node.event)]
            phase := .dispatching shifted nodes left }
      | _ => none
  | .relock =>
      match s.phase with
      | .dispatching true [] left => some (s.executeAfter left)
      | .dispatching false [] left => some (s.executeBefore left)
      | _ => none

/-- `skynet_timer_init` -/
def start (current current_point : BitVec 64) : Clock where
  timer := .create
  current := current
  current_point := current_point
  phase := .idle
  ticks := 0
  asked := []
  pushed := []
  immediate := []

end Clock

/-! ### What the wheel holds -/

/-- The node of a timeout that ends at a tick. -/
def nodeOf (a : Nat × TimerEvent) : TimerNode := ⟨BitVec.ofNat 32 a.1, a.2⟩

/-- The wheel holds these timeouts, each in the list of its deadline, in the order asked for. -/
structure Wheel (T : Timer) (n : Nat) (items : List (Nat × TimerEvent)) : Prop where
  time : T.time = BitVec.ofNat 32 n
  reach : ∀ a ∈ items, InReach n a.1
  holds : Buckets.Holds nodeOf (fun a => slotOf a.1 n) T.list items

theorem addSlot_nodeOf {n : Nat} {a : Nat × TimerEvent} (reach : InReach n a.1) :
    addSlot (nodeOf a).expire (BitVec.ofNat 32 n) = slotOf a.1 n := by
  rw [addSlot_toNat, nodeOf, BitVec.toNat_ofNat, BitVec.toNat_ofNat, slotOf_mod reach]

namespace Timer

theorem foldl_addNode (T : Timer) (nodes : List TimerNode) :
    nodes.foldl addNode T =
      { T with list := Buckets.relink (fun node => addSlot node.expire T.time) T.list nodes } := by
  induction nodes generalizing T with
  | nil => rfl
  | cons node nodes ih => rw [List.foldl_cons, ih]; rfl

end Timer

namespace Wheel

variable {T : Timer} {n : Nat} {items : List (Nat × TimerEvent)}

theorem timerAdd (h : Wheel T n items) (event : TimerEvent) {time : Int} (pos : 0 < time)
    (small : time < 2 ^ 31) :
    Wheel (T.timerAdd event time) n (items ++ [(n + time.toNat, event)]) := by
  have reach : InReach n (n + time.toNat) := ⟨by omega, by omega⟩
  have expire : BitVec.ofInt 32 time + T.time = BitVec.ofNat 32 (n + time.toNat) := by
    have whole : time = (time.toNat : Int) := (Int.toNat_of_nonneg pos.le).symm
    rw [h.time, BitVec.add_comm, BitVec.ofNat_add, whole, BitVec.ofInt_natCast, ← whole]
  refine ⟨h.time, fun a mem => ?_, ?_⟩
  · cases List.mem_append.1 mem with
    | inl old => exact h.reach a old
    | inr new =>
        rw [List.mem_singleton.1 new]
        exact reach
  · have linked := h.holds.link (n + time.toNat, event)
    rw [← addSlot_nodeOf (a := (n + time.toNat, event)) reach] at linked
    rw [Timer.timerAdd, expire, Timer.addNode, h.time]
    exact linked

/-- Nothing due at `n` is left, so nothing is in the way of what is carried down. -/
theorem timerShift (h : Wheel T n items) (after : ∀ a ∈ items, n + 1 ≤ a.1) :
    Wheel T.timerShift (n + 1) items := by
  have reach : ∀ a ∈ items, InReach (n + 1) a.1 := by
    intro a mem
    obtain ⟨-, before⟩ := h.reach a mem
    exact ⟨after a mem, by omega⟩
  rw [T.timerShift_eq h.time, Timer.shifted]
  cases carried : carry (n + 1) with
  | none => exact ⟨rfl, reach, h.holds.congr fun a _ => slotOf_no_carry carried⟩
  | some moved =>
      obtain ⟨level, idx⟩ := moved
      refine ⟨?_, reach, ?_⟩
      · simp only [Timer.moveList, Timer.foldl_addNode]
        rfl
      · simp only [Timer.moveList, Timer.foldl_addNode]
        refine h.holds.relink (fun a mem _ => addSlot_nodeOf (reach a mem))
          (fun a mem elsewhere => slotOf_of_unmoved carried (reach a mem) elsewhere)
          fun a memA there b memB _ same => ?_
        have down := rank_of_moved carried (reach a memA) there
        have up := rank_of_carry carried (after b memB)
        rw [same] at up
        omega

theorem executeSlot_iff (h : Wheel T n items) {a : Nat × TimerEvent} (mem : a ∈ items) :
    slotOf a.1 n = T.executeSlot ↔ a.1 = n := by
  obtain ⟨after, before⟩ := h.reach a mem
  have idx := and_mask_toNat T.time TIME_NEAR_MASK 8 (by decide)
  rw [Timer.executeSlot, idx, h.time, BitVec.toNat_ofNat]
  unfold slotOf
  split_ifs <;> simp only [Slot.near.injEq, false_iff] <;> omega

theorem list_executeSlot (h : Wheel T n items) :
    T.list T.executeSlot = (items.filter (·.1 = n)).map nodeOf := by
  rw [h.holds]
  congr 1
  exact List.filter_congr fun a mem => decide_eq_decide.2 (h.executeSlot_iff mem)

theorem linkClear (h : Wheel T n items) :
    Wheel (T.linkClear T.executeSlot) n (items.filter (·.1 ≠ n)) := by
  have kept : items.filter (fun a => slotOf a.1 n ≠ T.executeSlot) = items.filter (·.1 ≠ n) :=
    List.filter_congr fun a mem => decide_eq_decide.2 (not_congr (h.executeSlot_iff mem))
  refine ⟨h.time, fun a mem => h.reach a (List.mem_of_mem_filter mem), ?_⟩
  rw [← kept]
  exact h.holds.clear T.executeSlot

end Wheel

/-! ### Runs -/

/-- The timeouts that end at a tick. -/
def due (asked : List (Nat × TimerEvent)) (n : Nat) : List (Nat × TimerEvent) :=
  asked.filter (·.1 = n)

/-- The timeouts that end after a tick. -/
def pending (asked : List (Nat × TimerEvent)) (n : Nat) : List (Nat × TimerEvent) :=
  asked.filter (n < ·.1)

/-- The first ticks, with what is due at each. -/
def allDue (asked : List (Nat × TimerEvent)) (ticks : Nat) : List (Nat × TimerEvent) :=
  (List.range ticks).flatMap (due asked)

theorem allDue_succ (asked : List (Nat × TimerEvent)) (ticks : Nat) :
    allDue asked (ticks + 1) = allDue asked ticks ++ due asked ticks := by
  rw [allDue, List.range_succ, List.flatMap_append, List.flatMap_singleton, ← allDue]

theorem allDue_append {asked : List (Nat × TimerEvent)} {a : Nat × TimerEvent} {ticks : Nat}
    (later : ticks ≤ a.1) : allDue (asked ++ [a]) ticks = allDue asked ticks := by
  refine List.flatMap_congr fun n mem => ?_
  have before : ¬a.1 = n := by
    have := List.mem_range.1 mem
    omega
  rw [due, List.filter_append, List.filter_singleton, decide_eq_false before]
  exact List.append_nil _

theorem pending_append (asked : List (Nat × TimerEvent)) {a : Nat × TimerEvent} {n : Nat}
    (later : n < a.1) : pending (asked ++ [a]) n = pending asked n ++ [a] := by
  rw [pending, List.filter_append, List.filter_singleton, decide_eq_true later]
  rfl

theorem due_pending (asked : List (Nat × TimerEvent)) (n : Nat) :
    (pending asked n).filter (·.1 = n + 1) = due asked (n + 1) := by
  rw [pending, List.filter_filter]
  refine List.filter_congr fun a _ => ?_
  by_cases now : a.1 = n + 1 <;> simp [now]

theorem pending_pending (asked : List (Nat × TimerEvent)) (n : Nat) :
    (pending asked n).filter (·.1 ≠ n + 1) = pending asked (n + 1) := by
  rw [pending, List.filter_filter]
  refine List.filter_congr fun a _ => ?_
  rw [← Bool.decide_and, decide_eq_decide]
  omega

namespace Clock

variable {s s' : Clock} {current₀ : BitVec 64}

structure Inv (current₀ : BitVec 64) (s : Clock) : Prop where
  wheel : Wheel s.timer s.ticks (pending s.asked s.ticks)
  pushed : s.pushed ++ s.dispatching = allDue s.asked (s.ticks + 1)
  /-- The first `timer_execute` of a call never finds anything. -/
  shifted : ∀ nodes left, s.phase ≠ .dispatching false nodes left
  current : s.current = current₀ + BitVec.ofNat 64 (s.ticks + s.left)

theorem Inv.start (point : BitVec 64) : Inv current₀ (start current₀ point) where
  wheel := ⟨rfl, fun _ mem => absurd mem (List.not_mem_nil), Buckets.Holds.empty⟩
  pushed := rfl
  shifted _ _ := nofun
  current := (BitVec.add_zero _).symm

theorem Inv.skynetTimeout (h : Inv current₀ s) {event : TimerEvent} {time : Int}
    (small : time < 2 ^ 31) : Inv current₀ (s.skynetTimeout event time) := by
  unfold Clock.skynetTimeout
  split
  · exact ⟨h.wheel, h.pushed, h.shifted, h.current⟩
  · rename_i pos
    have later : s.ticks < s.ticks + time.toNat := by omega
    refine ⟨?_, ?_, h.shifted, h.current⟩
    · rw [pending_append _ later]
      exact h.wheel.timerAdd event (by omega) small
    · rw [allDue_append (Nat.succ_le_of_lt later)]
      exact h.pushed

theorem Inv.skynetUpdatetime (h : Inv current₀ s) (idle : s.phase = .idle) (cp : BitVec 64) :
    Inv current₀ (s.skynetUpdatetime cp) := by
  have pushed := h.pushed
  have current := h.current
  simp only [dispatching, left, idle] at pushed current
  unfold Clock.skynetUpdatetime
  split
  · exact ⟨h.wheel, h.pushed, h.shifted, h.current⟩
  · split
    · refine ⟨h.wheel, pushed, fun _ _ => nofun, ?_⟩
      show s.current + ((cp - s.current_point).setWidth 32).setWidth 64 =
        current₀ + BitVec.ofNat 64 (s.ticks + ((cp - s.current_point).setWidth 32).toNat)
      rw [current, Nat.add_zero, BitVec.ofNat_add, BitVec.ofNat_toNat, BitVec.add_assoc]
    · exact h

/-- The shift and the `timer_execute` after it, with nothing due before. -/
theorem Inv.shift (h : Inv current₀ s) {left : Nat} (ticking : s.phase = .ticking (left + 1)) :
    Inv current₀ (s.shift.executeAfter left) := by
  have pushed := h.pushed
  have current := h.current
  simp only [dispatching, Clock.left, ticking] at pushed current
  have after : ∀ a ∈ pending s.asked s.ticks, s.ticks + 1 ≤ a.1 := fun a mem => by
    have later := (List.mem_filter.1 mem).2
    simp only [decide_eq_true_eq] at later
    exact later
  have wheel := h.wheel.timerShift after
  have list := wheel.list_executeSlot
  have cleared := wheel.linkClear
  rw [due_pending] at list
  rw [pending_pending] at cleared
  have count : s.ticks + 1 + left = s.ticks + (left + 1) := by omega
  unfold executeAfter
  rw [show s.shift.timer = s.timer.timerShift from rfl, list]
  cases here : due s.asked (s.ticks + 1) with
  | nil =>
      have same : s.timer.timerShift.linkClear s.timer.timerShift.executeSlot =
          s.timer.timerShift := by
        rw [here] at list
        rw [Timer.linkClear, ← List.map_nil (f := nodeOf), ← list, Function.update_eq_self]
      refine ⟨same ▸ cleared, ?_, fun _ _ => nofun, ?_⟩
      · show s.pushed ++ [] = allDue s.asked (s.ticks + 1 + 1)
        rw [allDue_succ, here, ← pushed, List.append_nil, List.append_nil]
      · show s.current = current₀ + BitVec.ofNat 64 (s.ticks + 1 + left)
        rw [count]
        exact current
  | cons a rest =>
      refine ⟨cleared, ?_, fun _ _ => nofun, ?_⟩
      · show s.pushed ++ ((a :: rest).map nodeOf).map (fun node => (s.ticks + 1, node.event)) =
          allDue s.asked (s.ticks + 1 + 1)
        have view : ((a :: rest).map nodeOf).map (fun node => (s.ticks + 1, node.event)) =
            due s.asked (s.ticks + 1) := by
          rw [List.map_map, ← here]
          conv_rhs => rw [← List.map_id (due s.asked (s.ticks + 1))]
          refine List.map_congr_left fun b mem => ?_
          have tick : b.1 = s.ticks + 1 := by simpa using (List.mem_filter.1 mem).2
          exact Prod.ext tick.symm rfl
        rw [view, allDue_succ, ← pushed, List.append_nil]
      · show s.current = current₀ + BitVec.ofNat 64 (s.ticks + 1 + left)
        rw [count]
        exact current

/-- Nothing is left at the tick that has been executed. -/
theorem Inv.nothing_due (h : Inv current₀ s) : s.timer.list s.timer.executeSlot = [] := by
  rw [h.wheel.list_executeSlot, List.map_eq_nil_iff, List.filter_eq_nil_iff]
  intro a mem now
  have later := (List.mem_filter.1 mem).2
  simp only [decide_eq_true_eq] at now later
  omega

theorem Inv.executeBefore (h : Inv current₀ s) {left : Nat}
    (ticking : s.phase = .ticking (left + 1)) : Inv current₀ (s.executeBefore left) := by
  rw [Clock.executeBefore, h.nothing_due]
  exact h.shift ticking

theorem Inv.step (h : Inv current₀ s) {a : TimerStep} (move : s.step a = some s') :
    Inv current₀ s' := by
  have pushed := h.pushed
  have current := h.current
  cases a with
  | timeout event time =>
      obtain ⟨⟨-, small⟩, same⟩ := Option.ite_none_right_eq_some.1 move
      cases same
      exact h.skynetTimeout small
  | updatetime cp =>
      cases phase : s.phase with
      | idle =>
          simp only [Clock.step, phase, Option.some.injEq] at move
          exact move ▸ h.skynetUpdatetime phase cp
      | ticking _ | dispatching _ _ _ => simp [Clock.step, phase] at move
  | update =>
      cases phase : s.phase with
      | ticking left =>
          cases left with
          | zero =>
              simp only [Clock.step, phase, Option.some.injEq] at move
              simp only [dispatching, left, phase] at pushed current
              exact move ▸ ⟨h.wheel, pushed, fun _ _ => nofun, current⟩
          | succ left =>
              simp only [Clock.step, phase, Option.some.injEq] at move
              exact move ▸ h.executeBefore phase
      | idle | dispatching _ _ _ => simp [Clock.step, phase] at move
  | dispatch =>
      cases phase : s.phase with
      | dispatching shifted nodes left =>
          cases nodes with
          | nil => simp [Clock.step, phase] at move
          | cons node nodes =>
              cases shifted with
              | false => exact absurd phase (h.shifted _ _)
              | true =>
                  simp only [Clock.step, phase, Option.some.injEq] at move
                  simp only [dispatching, Clock.left, phase] at pushed current
                  refine move ▸ ⟨h.wheel, ?_, fun _ _ => nofun, current⟩
                  rw [← pushed]
                  exact List.append_assoc ..
      | idle | ticking _ => simp [Clock.step, phase] at move
  | relock =>
      cases phase : s.phase with
      | dispatching shifted nodes left =>
          cases nodes with
          | nil =>
              cases shifted with
              | false => exact absurd phase (h.shifted _ _)
              | true =>
                  simp only [Clock.step, phase, Option.some.injEq] at move
                  simp only [dispatching, Clock.left, phase] at pushed current
                  rw [executeAfter, h.nothing_due] at move
                  exact move ▸ ⟨h.wheel, pushed, fun _ _ => nofun, current⟩
          | cons _ _ => simp [Clock.step, phase] at move
      | idle | ticking _ => simp [Clock.step, phase] at move

/-- The states of every run of the wheel, whoever asks for timeouts and whatever the clock reads. -/
abbrev Reachable (current₀ : BitVec 64) : Clock → Prop :=
  Runs.Reachable (fun s => ∃ point, s = start current₀ point) fun s a s' => s.step a = some s'

theorem Reachable.inv (reached : Reachable current₀ s) : Inv current₀ s :=
  Runs.Reaches.invariant reached (fun _ ⟨point, h⟩ => h ▸ .start point)
    fun _ _ _ h _ move => h.step move

/-- Every timeout is pushed once, at the tick its time has passed, and those of one tick in the
order they were asked for; the clock is ahead of the ticks by those that are still to come. -/
theorem pushed_exact (reached : Reachable current₀ s) :
    s.pushed ++ s.dispatching = (List.range (s.ticks + 1)).flatMap
        (fun n => s.asked.filter (·.1 = n)) ∧
      s.current = current₀ + BitVec.ofNat 64 (s.ticks + s.left) :=
  ⟨reached.inv.pushed, reached.inv.current⟩

/-- A timeout of two ticks, when the clock has moved on by two. -/
theorem second_tick_pushes :
    ∃ s : Clock, s.pushed = [(2, ⟨1, 7⟩)] ∧
      s.pushed ++ s.dispatching = (List.range (s.ticks + 1)).flatMap
        (fun n => s.asked.filter (·.1 = n)) ∧ s.current = 0 + BitVec.ofNat 64 (s.ticks + s.left) := by
  let run : List TimerStep :=
    [.timeout ⟨1, 7⟩ 2, .updatetime 2, .update, .update, .dispatch, .relock]
  have ended : run.foldlM Clock.step (start 0 0) =
      some ((run.foldlM Clock.step (start 0 0)).getD (start 0 0)) := rfl
  have started : Reachable 0 (start 0 0) := .start ⟨0, rfl⟩
  have reached := Runs.reachable_of_foldlM started ended
  exact ⟨_, rfl, pushed_exact reached⟩

end Clock

end FkServer.Skynet
