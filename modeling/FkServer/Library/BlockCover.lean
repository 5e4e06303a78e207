import Mathlib.Algebra.BigOperators.Group.Multiset.Basic

/-!
Covers of a multiset by blocks and a limited number of special blocks, as in
games where a hand must fall apart into sets and at most one pair. A search may
take the block of any chosen element first; a multiset that lacks one element is
either one block short of it or still has a whole block that can be taken away.
-/
namespace BlockCover

universe u
variable {α : Type u} {block special : Multiset α → Prop} {k : Nat}
variable {s b : Multiset α} {a : α}

/-- `s` is a sum of blocks, at most `k` of them special. -/
inductive Covered (block special : Multiset α → Prop) : Nat → Multiset α → Prop
  | nil {k : Nat} : Covered block special k 0
  | block {k : Nat} {b s : Multiset α} :
      block b → Covered block special k s → Covered block special k (b + s)
  | special {k : Nat} {b s : Multiset α} :
      special b → Covered block special k s → Covered block special (k + 1) (b + s)

/-- Covers of two multisets cover them together. -/
theorem Covered.add {j : Nat} {t : Multiset α} (h : Covered block special k s)
    (h' : Covered block special j t) : Covered block special (k + j) (s + t) := by
  have more : ∀ {j : Nat} {t : Multiset α} (i : Nat), Covered block special j t →
      Covered block special (i + j) t := by
    intro j t i h
    induction h with
    | nil => exact .nil
    | block hb _ ih => exact .block hb ih
    | special hb _ ih => exact .special hb ih
  induction h with
  | nil =>
      rw [Multiset.zero_add]
      exact more _ h'
  | block hb _ ih =>
      rw [add_assoc]
      exact .block hb ih
  | @special k b s hb _ ih =>
      rw [add_assoc b s t, Nat.add_right_comm]
      exact .special hb ih

/-- The part of a cover that contains a given element can be taken first. -/
theorem Covered.split (h : Covered block special k s) (mem : a ∈ s) :
    (∃ b r, block b ∧ a ∈ b ∧ s = b + r ∧ Covered block special k r) ∨
    (∃ b r j, special b ∧ a ∈ b ∧ s = b + r ∧ k = j + 1 ∧ Covered block special j r) := by
  induction h with
  | nil => simp at mem
  | @block k b s hb hs ih =>
      by_cases here : a ∈ b
      · exact .inl ⟨b, s, hb, here, rfl, hs⟩
      · have there : a ∈ s := (Multiset.mem_add.1 mem).resolve_left here
        rcases ih there with ⟨b', r, hb', ha, rfl, hr⟩ | ⟨b', r, j, hb', ha, rfl, rfl, hr⟩
        · exact .inl ⟨b', b + r, hb', ha, add_left_comm _ _ _, .block hb hr⟩
        · exact .inr ⟨b', b + r, j, hb', ha, add_left_comm _ _ _, rfl, .block hb hr⟩
  | @special k b s hb hs ih =>
      by_cases here : a ∈ b
      · exact .inr ⟨b, s, k, hb, here, rfl, rfl, hs⟩
      · have there : a ∈ s := (Multiset.mem_add.1 mem).resolve_left here
        rcases ih there with ⟨b', r, hb', ha, rfl, hr⟩ | ⟨b', r, j, hb', ha, rfl, rfl, hr⟩
        · exact .inl ⟨b', b + r, hb', ha, add_left_comm _ _ _, .special hb hr⟩
        · exact .inr ⟨b', b + r, j + 1, hb', ha, add_left_comm _ _ _, rfl, .special hb hr⟩

private theorem regroup {t : α} {b₀ b' r' r s : Multiset α} (split : t ::ₘ s = (t ::ₘ b₀) + r)
    (rest : r = b' + r') : s = b' + (b₀ + r') := by
  rw [Multiset.cons_add, Multiset.cons_inj_right] at split
  rw [split, rest, add_left_comm]

/-- A multiset that lacks `t` lacks it in its only block, or has another block. -/
theorem Covered.lacking {t : α} (h : Covered block special k (t ::ₘ s)) :
    block (t ::ₘ s) ∨ (special (t ::ₘ s) ∧ k ≠ 0) ∨
    (∃ b r, block b ∧ s = b + r ∧ Covered block special k (t ::ₘ r)) ∨
    (∃ b r j, special b ∧ s = b + r ∧ k = j + 1 ∧ Covered block special j (t ::ₘ r)) := by
  have whole : ∀ {b r : Multiset α}, t ::ₘ s = b + r → r = 0 → t ::ₘ s = b := by
    rintro b r split rfl
    rw [split, add_zero]
  rcases h.split (Multiset.mem_cons_self t s) with
    ⟨b, r, hb, mem, split, hr⟩ | ⟨b, r, j, hb, mem, split, rfl, hr⟩
  all_goals
    obtain ⟨b₀, rfl⟩ := Multiset.exists_cons_of_mem mem
    rcases Multiset.empty_or_exists_mem r with empty | ⟨x, hx⟩
  · exact .inl (whole split empty ▸ hb)
  · rcases hr.split hx with ⟨b', r', hb', _, rest, hr'⟩ | ⟨b', r', j, hb', _, rest, rfl, hr'⟩
    · exact .inr (.inr (.inl ⟨b', b₀ + r', hb', regroup split rest,
        Multiset.cons_add t b₀ r' ▸ .block hb hr'⟩))
    · exact .inr (.inr (.inr ⟨b', b₀ + r', j, hb', regroup split rest, rfl,
        Multiset.cons_add t b₀ r' ▸ .block hb hr'⟩))
  · exact .inr (.inl ⟨whole split empty ▸ hb, Nat.succ_ne_zero _⟩)
  · rcases hr.split hx with ⟨b', r', hb', _, rest, hr'⟩ | ⟨b', r', i, hb', _, rest, rfl, hr'⟩
    · exact .inr (.inr (.inl ⟨b', b₀ + r', hb', regroup split rest,
        Multiset.cons_add t b₀ r' ▸ .special hb hr'⟩))
    · exact .inr (.inr (.inr ⟨b', b₀ + r', i + 1, hb', regroup split rest, rfl,
        Multiset.cons_add t b₀ r' ▸ .special hb hr'⟩))

end BlockCover
