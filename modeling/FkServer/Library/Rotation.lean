import Mathlib.Data.Nat.ModEq
import Mathlib.Logic.Function.Iterate
import Mathlib.Data.Set.Function

/-!
Search along the iterates of a function for the first place that satisfies a test,
and the places of a round table, numbered from 1, with the two ways round it.
-/
namespace Rotation

universe u
variable {Place : Type u} {next : Place → Place} {stop : Place → Bool}

/-- The first place after `place` that passes the test, within `fuel` moves. -/
def seek (next : Place → Place) (stop : Place → Bool) : Nat → Place → Option Place
  | 0, _ => none
  | fuel + 1, place => if stop (next place) then some (next place) else seek next stop fuel (next place)

theorem seek_eq_some {fuel : Nat} {place found : Place}
    (h : seek next stop fuel place = some found) :
    ∃ k, k < fuel ∧ next^[k + 1] place = found ∧ stop found = true ∧
      ∀ m, m < k → stop (next^[m + 1] place) = false := by
  induction fuel generalizing place with
  | zero => cases h
  | succ fuel ih =>
      unfold seek at h
      split at h
      · rename_i here
        cases h
        exact ⟨0, Nat.succ_pos _, rfl, here, fun m hm => absurd hm (Nat.not_lt_zero m)⟩
      · rename_i not_here
        obtain ⟨k, within, at_k, stops, before⟩ := ih h
        refine ⟨k + 1, Nat.succ_lt_succ within, at_k, stops, ?_⟩
        intro m hm
        cases m with
        | zero => exact Bool.eq_false_of_not_eq_true not_here
        | succ m => exact before m (Nat.lt_of_succ_lt_succ hm)

theorem seek_isSome {fuel k : Nat} {place : Place} (within : k < fuel)
    (stops : stop (next^[k + 1] place) = true) : ∃ found, seek next stop fuel place = some found := by
  induction fuel generalizing place k with
  | zero => cases within
  | succ fuel ih =>
      unfold seek
      split
      · exact ⟨_, rfl⟩
      · rename_i not_here
        cases k with
        | zero => exact absurd stops not_here
        | succ k => exact ih (Nat.lt_of_succ_lt_succ within) stops

theorem seek_next {fuel : Nat} {place : Place} (pos : 0 < fuel)
    (stops : stop (next place) = true) : seek next stop fuel place = some (next place) := by
  cases fuel with
  | zero => cases pos
  | succ fuel => exact if_pos stops

/-- Two places that are themselves stops are followed by different stops. -/
theorem seek_inj {inside : Set Place} (maps : Set.MapsTo next inside inside)
    (inj : Set.InjOn next inside) {fuel : Nat} {a b found : Place}
    (in_a : a ∈ inside) (in_b : b ∈ inside) (stop_a : stop a = true) (stop_b : stop b = true)
    (from_a : seek next stop fuel a = some found) (from_b : seek next stop fuel b = some found) :
    a = b := by
  -- the longer way would pass the start of the shorter one
  have longer : ∀ {a b : Place} {k m : Nat}, a ∈ inside → b ∈ inside → stop a = true → k ≤ m →
      next^[k + 1] a = found → next^[m + 1] b = found →
      (∀ i, i < m → stop (next^[i + 1] b) = false) → a = b := by
    intro a b k m in_a in_b stop_a le at_a at_b before
    obtain ⟨d, rfl⟩ := Nat.exists_eq_add_of_le le
    have same : next^[k + 1] (next^[d] b) = next^[k + 1] a := by
      rw [← Function.iterate_add_apply, at_a, ← at_b]
      congr 1
      omega
    have back : next^[d] b = a :=
      (inj.iterate maps (k + 1)) ((maps.iterate d) in_b) in_a same
    cases d with
    | zero => exact back.symm
    | succ d =>
        have passed := before d (by omega)
        rw [back, stop_a] at passed
        cases passed
  obtain ⟨k, _, at_a, _, before_a⟩ := seek_eq_some from_a
  obtain ⟨m, _, at_b, _, before_b⟩ := seek_eq_some from_b
  cases Nat.le_total k m with
  | inl le => exact longer in_a in_b stop_a le at_a at_b before_b
  | inr le => exact (longer in_b in_a stop_b le at_b at_a before_a).symm

/-! ### A round table -/

def forward (n place : Nat) : Nat := place % n + 1

def backward (n place : Nat) : Nat := (place + n - 2) % n + 1

/-- The places 1 to `n`. -/
def places (n : Nat) : Set Nat := { place | 1 ≤ place ∧ place ≤ n }

theorem forward_mem {n : Nat} (pos : 0 < n) (place : Nat) : forward n place ∈ places n :=
  ⟨Nat.succ_pos _, Nat.mod_lt _ pos⟩

theorem backward_mem {n : Nat} (pos : 0 < n) (place : Nat) : backward n place ∈ places n :=
  ⟨Nat.succ_pos _, Nat.mod_lt _ pos⟩

theorem backward_forward {n place : Nat} (h : place ∈ places n) :
    backward n (forward n place) = place := by
  obtain ⟨low, high⟩ := h
  unfold backward forward
  cases Nat.lt_or_eq_of_le high with
  | inl lt =>
      rw [Nat.mod_eq_of_lt lt, show place + 1 + n - 2 = place - 1 + n by omega,
        Nat.add_mod_right, Nat.mod_eq_of_lt (by omega)]
      omega
  | inr eq =>
      subst eq
      rw [Nat.mod_self, show 0 + 1 + place - 2 = place - 1 by omega, Nat.mod_eq_of_lt (by omega)]
      omega

theorem forward_backward {n place : Nat} (h : place ∈ places n) :
    forward n (backward n place) = place := by
  obtain ⟨low, high⟩ := h
  unfold backward forward
  cases Nat.lt_or_eq_of_le low with
  | inl lt =>
      rw [show place + n - 2 = place - 2 + n by omega, Nat.add_mod_right,
        Nat.mod_eq_of_lt (show place - 2 < n by omega), Nat.mod_eq_of_lt (by omega)]
      omega
  | inr eq =>
      subst eq
      rw [show 1 + n - 2 = n - 1 by omega, Nat.mod_eq_of_lt (show n - 1 < n by omega),
        Nat.sub_add_cancel high, Nat.mod_self]

theorem forward_injOn (n : Nat) : Set.InjOn (forward n) (places n) := by
  intro a ha b hb same
  rw [← backward_forward ha, same, backward_forward hb]

theorem backward_injOn (n : Nat) : Set.InjOn (backward n) (places n) := by
  intro a ha b hb same
  rw [← forward_backward ha, same, forward_backward hb]

theorem iterate_forward {n place : Nat} (h : place ∈ places n) (k : Nat) :
    (forward n)^[k] place = (place - 1 + k) % n + 1 := by
  induction k with
  | zero =>
      have := h.1
      have := h.2
      rw [Function.iterate_zero_apply, Nat.add_zero, Nat.mod_eq_of_lt (by omega)]
      omega
  | succ k ih =>
      rw [Function.iterate_succ_apply', ih, forward, ← Nat.add_assoc]
      simp only [Nat.mod_add_mod]

/-- Every place is met on one turn round the table. -/
theorem forward_reaches {n a b : Nat} (ha : a ∈ places n) (hb : b ∈ places n) :
    ∃ k, k < n ∧ (forward n)^[k + 1] a = b := by
  obtain ⟨a_low, a_high⟩ := ha
  obtain ⟨b_low, b_high⟩ := hb
  by_cases after : a < b
  · refine ⟨b - a - 1, by omega, ?_⟩
    rw [iterate_forward ⟨a_low, a_high⟩, show a - 1 + (b - a - 1 + 1) = b - 1 by omega,
      Nat.mod_eq_of_lt (by omega)]
    omega
  · refine ⟨b + n - a - 1, by omega, ?_⟩
    rw [iterate_forward ⟨a_low, a_high⟩,
      show a - 1 + (b + n - a - 1 + 1) = b - 1 + n by omega, Nat.add_mod_right,
      Nat.mod_eq_of_lt (by omega)]
    omega

/-- The first `n` places met, the start among them, are all the places. -/
theorem forward_meets {n a b : Nat} (ha : a ∈ places n) (hb : b ∈ places n) :
    ∃ k, k < n ∧ (forward n)^[k] a = b := by
  have before := backward_mem (Nat.lt_of_lt_of_le ha.1 ha.2) a
  obtain ⟨k, within, met⟩ := forward_reaches before hb
  rw [Function.iterate_succ_apply, forward_backward ha] at met
  exact ⟨k, within, met⟩

theorem iterate_forward_inj {n place i j : Nat} (h : place ∈ places n) (hi : i < n) (hj : j < n)
    (same : (forward n)^[i] place = (forward n)^[j] place) : i = j := by
  rw [iterate_forward h, iterate_forward h] at same
  have congruent : i ≡ j [MOD n] := Nat.ModEq.add_left_cancel' (place - 1) (Nat.succ_injective same)
  exact congruent.eq_of_lt_of_lt hi hj

/-- Either way round, a turn of the table ends where it began. -/
theorem forward_round {n chair : Nat} (h : chair ∈ places n) :
    ∃ k, k < n ∧ (forward n)^[k + 1] chair = chair :=
  forward_reaches h h

theorem backward_round {n chair : Nat} (pos : 0 < n) (h : chair ∈ places n) :
    ∃ k, k < n ∧ (backward n)^[k + 1] chair = chair := by
  obtain ⟨k, within, back⟩ := forward_round h
  refine ⟨k, within, ?_⟩
  -- the way back undoes the way there
  have undo : ∀ m, (backward n)^[m] ((forward n)^[m] chair) = chair := by
    intro m
    induction m with
    | zero => rfl
    | succ m ih =>
        rw [Function.iterate_succ_apply, Function.iterate_succ_apply' (forward n)]
        have inside : (forward n)^[m] chair ∈ places n := by
          cases m with
          | zero => exact h
          | succ m =>
              rw [Function.iterate_succ_apply']
              exact forward_mem pos _
        rw [backward_forward inside, ih]
  have := undo (k + 1)
  rw [back] at this
  exact this

end Rotation
