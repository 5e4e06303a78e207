import Mathlib.Data.Multiset.AddSub
import Mathlib.Data.Multiset.Replicate
import FkServer.Library.BlockCover
import FkServer.MaajanXuezhan.Rule

/-!
The searches of `base/rule` against what they look for: `is_hu` finds a cover of
the concealed tiles by triplets, runs and at most one pair, `ting` the tiles one
such cover lacks. A counter table is compared through the multiset of its tiles.
-/
namespace FkServer.MaajanXuezhan.Rule
open BlockCover

variable {counts counts' : Counts} {b : Multiset Nat} {t tile : Nat}

/-- The tiles of a counter table. -/
def tilesOf (counts : Counts) : Multiset Nat := counts2Tiles counts

theorem count_tilesOf (counts : Counts) (t : Nat) :
    (tilesOf counts).count t = if 1 ≤ t ∧ t ≤ 50 then (counts t).toNat else 0 := by
  rw [tilesOf, Multiset.coe_count, count_counts2Tiles]

theorem mem_tilesOf : t ∈ tilesOf counts ↔ (1 ≤ t ∧ t ≤ 50) ∧ 0 < counts t := by
  rw [← Multiset.one_le_count_iff_mem, count_tilesOf]
  split
  · rename_i h
    simp only [h, and_self, true_and]
    omega
  · rename_i h
    simp [h]

/-- Tables that differ by the tiles of `b`. -/
theorem tilesOf_eq_add (inside : ∀ t ∈ b, 1 ≤ t ∧ t ≤ 50)
    (diff : ∀ t, 1 ≤ t ∧ t ≤ 50 → (counts t).toNat = b.count t + (counts' t).toNat) :
    tilesOf counts = b + tilesOf counts' := by
  ext t
  rw [Multiset.count_add, count_tilesOf, count_tilesOf]
  split
  · rename_i h
    exact diff t h
  · rename_i h
    rw [Multiset.count_eq_zero_of_notMem fun mem => h (inside t mem)]

def Triplet (b : Multiset Nat) : Prop := ∃ t, b = Multiset.replicate 3 t

def Run (b : Multiset Nat) : Prop :=
  ∃ t, (tileValue t ≤ 7 ∧ tileMen t < 3) ∧ b = {t, t + 1, t + 2}

def Meld (b : Multiset Nat) : Prop := Triplet b ∨ Run b

def Pair (b : Multiset Nat) : Prop := ∃ t, b = Multiset.replicate 2 t

/-- A hand of triplets, runs and at most `k` pairs. -/
abbrev Complete (k : Nat) (hand : Multiset Nat) : Prop := Covered Meld Pair k hand

theorem card_of_meld (h : Meld b) : b.card = 3 := by
  rcases h with ⟨z, rfl⟩ | ⟨z, _, rfl⟩
  · simp
  · simp

theorem card_of_pair (h : Pair b) : b.card = 2 := by
  obtain ⟨z, rfl⟩ := h
  simp

theorem tilesOf_decr (n : Nat) (inside : 1 ≤ t ∧ t ≤ 50) (held : (n : Int) ≤ counts t) :
    tilesOf counts = Multiset.replicate n t + tilesOf (decr counts t n) := by
  refine tilesOf_eq_add (fun x hx => Multiset.eq_of_mem_replicate hx ▸ inside) fun x _ => ?_
  rw [Multiset.count_replicate, decr_apply]
  by_cases h : x = t
  · simp only [h, if_true]
    omega
  · simp [h, Ne.symm h]

theorem tilesOf_run (inside : 1 ≤ t ∧ t + 2 ≤ 50)
    (held : 0 < counts t ∧ 0 < counts (t + 1) ∧ 0 < counts (t + 2)) :
    tilesOf counts =
      {t, t + 1, t + 2} + tilesOf (decr (decr (decr counts t 1) (t + 1) 1) (t + 2) 1) := by
  refine tilesOf_eq_add (fun x hx => ?_) fun x _ => ?_
  · simp only [Multiset.insert_eq_cons, Multiset.mem_cons, Multiset.mem_singleton] at hx
    omega
  · simp only [Multiset.insert_eq_cons, Multiset.count_cons, Multiset.count_singleton, decr_apply]
    rcases eq_or_ne x t with rfl | h₀
    · have : x ≠ x + 1 ∧ x ≠ x + 2 := by omega
      simp only [if_true, if_neg this.1, if_neg this.2]
      omega
    · rcases eq_or_ne x (t + 1) with rfl | h₁
      · have : t + 1 ≠ t + 2 := by omega
        simp only [if_true, if_neg h₀, if_neg this]
        omega
      · rcases eq_or_ne x (t + 2) with rfl | h₂
        · simp only [if_true, if_neg h₀, if_neg h₁]
          omega
        · simp only [if_neg h₀, if_neg h₁, if_neg h₂]
          omega

private theorem counts2Tiles_sorted (counts : Counts) :
    (counts2Tiles counts).Pairwise (· ≤ ·) := by
  rw [counts2Tiles, List.pairwise_flatMap]
  refine ⟨fun x _ => List.pairwise_replicate.2 (.inr (Nat.le_refl x)), ?_⟩
  have ordered : (List.range' 1 50).Pairwise (· < ·) := List.pairwise_lt_range'
  refine ordered.imp fun {x y} less a ha b hb => ?_
  rw [List.eq_of_mem_replicate ha, List.eq_of_mem_replicate hb]
  exact Nat.le_of_lt less

theorem first_least {index : Nat} {rest : List Nat}
    (h : counts2Tiles counts = index :: rest) : ∀ x ∈ tilesOf counts, index ≤ x := by
  have sorted := counts2Tiles_sorted counts
  rw [h, List.pairwise_cons] at sorted
  intro x hx
  rw [tilesOf, h, Multiset.mem_coe, List.mem_cons] at hx
  rcases hx with rfl | hx
  · exact Nat.le_refl x
  · exact sorted.1 x hx

/-- Equal tiles split off a hand are held, and what is left is the decremented table. -/
theorem take_same {n : Nat} {r : Multiset Nat} (pos : 0 < n)
    (split : tilesOf counts = Multiset.replicate n t + r) :
    (1 ≤ t ∧ t ≤ 50) ∧ (n : Int) ≤ counts t ∧ r = tilesOf (decr counts t n) := by
  have mem : t ∈ tilesOf counts := by
    rw [split, Multiset.mem_add, Multiset.mem_replicate]
    exact .inl ⟨Nat.pos_iff_ne_zero.1 pos, rfl⟩
  obtain ⟨inside, _⟩ := mem_tilesOf.1 mem
  have total := congrArg (Multiset.count t) split
  rw [count_tilesOf, if_pos inside, Multiset.count_add, Multiset.count_replicate_self] at total
  have held : (n : Int) ≤ counts t := by omega
  refine ⟨inside, held, ?_⟩
  rw [tilesOf_decr n inside held, Multiset.add_right_inj] at split
  exact split.symm

/-- A run split off a hand is held. -/
theorem take_run {r : Multiset Nat} (split : tilesOf counts = {t, t + 1, t + 2} + r) :
    (1 ≤ t ∧ t + 2 ≤ 50) ∧ (0 < counts t ∧ 0 < counts (t + 1) ∧ 0 < counts (t + 2)) ∧
      r = tilesOf (decr (decr (decr counts t 1) (t + 1) 1) (t + 2) 1) := by
  have has : ∀ y ∈ ({t, t + 1, t + 2} : Multiset Nat), (1 ≤ y ∧ y ≤ 50) ∧ 0 < counts y :=
    fun y hy => mem_tilesOf.1 (split ▸ Multiset.mem_add.2 (.inl hy))
  obtain ⟨low, held₀⟩ := has t (by simp)
  obtain ⟨_, held₁⟩ := has (t + 1) (by simp)
  obtain ⟨high, held₂⟩ := has (t + 2) (by simp)
  refine ⟨⟨low.1, high.2⟩, ⟨held₀, held₁, held₂⟩, ?_⟩
  rw [tilesOf_run ⟨low.1, high.2⟩ ⟨held₀, held₁, held₂⟩, Multiset.add_right_inj] at split
  exact split.symm

theorem card_tilesOf_decr (n : Nat) (pos : 0 < n) (inside : 1 ≤ t ∧ t ≤ 50)
    (held : (n : Int) ≤ counts t) :
    (tilesOf (decr counts t n)).card < (tilesOf counts).card := by
  rw [tilesOf_decr n inside held, Multiset.card_add, Multiset.card_replicate]
  omega

theorem card_tilesOf_run (inside : 1 ≤ t ∧ t + 2 ≤ 50)
    (held : 0 < counts t ∧ 0 < counts (t + 1) ∧ 0 < counts (t + 2)) :
    (tilesOf (decr (decr (decr counts t 1) (t + 1) 1) (t + 2) 1)).card < (tilesOf counts).card := by
  rw [tilesOf_run inside held, Multiset.card_add]
  simp

/-- The block of the smallest tile decides which of the three branches is taken. -/
theorem complete_first {k index : Nat} (mem : index ∈ tilesOf counts)
    (least : ∀ x ∈ tilesOf counts, index ≤ x) (h : Complete k (tilesOf counts)) :
    (3 ≤ counts index ∧ Complete k (tilesOf (decr counts index 3))) ∨
    (∃ j, k = j + 1 ∧ 2 ≤ counts index ∧ Complete j (tilesOf (decr counts index 2))) ∨
    ((tileValue index ≤ 7 ∧ tileMen index < 3 ∧ 0 < counts (index + 1) ∧
        0 < counts (index + 2)) ∧
      Complete k (tilesOf (decr (decr (decr counts index 1) (index + 1) 1) (index + 2) 1))) := by
  rcases h.split mem with ⟨b, r, hb, at_b, split, hr⟩ | ⟨b, r, j, ⟨x, rfl⟩, at_b, split, rfl, hr⟩
  · rcases hb with ⟨x, rfl⟩ | ⟨x, kind, rfl⟩
    · obtain rfl := Multiset.eq_of_mem_replicate at_b
      obtain ⟨_, held, rfl⟩ := take_same (by omega) split
      exact .inl ⟨held, hr⟩
    · have start : x ∈ tilesOf counts := split ▸ Multiset.mem_add.2 (.inl (by simp))
      have low := least x start
      obtain rfl : index = x := by
        simp only [Multiset.insert_eq_cons, Multiset.mem_cons, Multiset.mem_singleton] at at_b
        omega
      obtain ⟨_, held, rfl⟩ := take_run split
      exact .inr (.inr ⟨⟨kind.1, kind.2, held.2⟩, hr⟩)
  · obtain rfl := Multiset.eq_of_mem_replicate at_b
    obtain ⟨_, held, rfl⟩ := take_same (by omega) split
    exact .inr (.inl ⟨j, rfl, held, hr⟩)

theorem isHuState_iff {fuel : Nat} {jiang : Bool} (enough : (tilesOf counts).card < fuel) :
    isHuState fuel counts jiang = true ↔
      Complete (if jiang then 0 else 1) (tilesOf counts) := by
  induction fuel generalizing counts jiang with
  | zero => omega
  | succ fuel ih =>
      rw [isHuState]
      cases hl : counts2Tiles counts with
      | nil =>
          have empty : tilesOf counts = 0 := by rw [tilesOf, hl]; rfl
          simp only [empty, true_iff]
          exact .nil
      | cons index rest =>
          have mem : index ∈ tilesOf counts := by simp [tilesOf, hl]
          obtain ⟨inside, held⟩ := mem_tilesOf.1 mem
          have three : 3 ≤ counts index →
              (isHuState fuel (decr counts index 3) jiang = true ↔
                Complete (if jiang then 0 else 1) (tilesOf (decr counts index 3))) := fun h =>
            ih ((card_tilesOf_decr 3 (by omega) inside h).trans_le (Nat.le_of_lt_succ enough))
          have two : 2 ≤ counts index →
              (isHuState fuel (decr counts index 2) true = true ↔
                Complete 0 (tilesOf (decr counts index 2))) := fun h =>
            ih ((card_tilesOf_decr 2 (by omega) inside h).trans_le (Nat.le_of_lt_succ enough))
          have run : (tileValue index ≤ 7 ∧ tileMen index < 3 ∧ 0 < counts (index + 1) ∧
                0 < counts (index + 2)) →
              (1 ≤ index ∧ index + 2 ≤ 50) ∧
              (isHuState fuel (decr (decr (decr counts index 1) (index + 1) 1) (index + 2) 1) jiang =
                  true ↔
                Complete (if jiang then 0 else 1)
                  (tilesOf (decr (decr (decr counts index 1) (index + 1) 1) (index + 2) 1))) := by
            intro h
            have high : index + 2 ≤ 50 := by
              have := h.2.1
              simp only [tileMen] at this
              omega
            refine ⟨⟨inside.1, high⟩, ih ?_⟩
            have := card_tilesOf_run ⟨inside.1, high⟩ ⟨held, h.2.2⟩
            omega
          simp only [Bool.or_eq_true, Bool.and_eq_true, decide_eq_true_eq, Bool.not_eq_true']
          constructor
          · rintro ((⟨h, found⟩ | ⟨⟨rfl, h⟩, found⟩) | ⟨h, found⟩)
            · rw [tilesOf_decr 3 inside h]
              exact .block (.inl ⟨index, rfl⟩) ((three h).1 found)
            · rw [tilesOf_decr 2 inside h]
              exact .special ⟨index, rfl⟩ ((two h).1 found)
            · rw [tilesOf_run (run h).1 ⟨held, h.2.2⟩]
              exact .block (.inr ⟨index, ⟨h.1, h.2.1⟩, rfl⟩) ((run h).2.1 found)
          · intro complete
            rcases complete_first mem (first_least hl) complete with
              ⟨h, rest⟩ | ⟨j, hj, h, rest⟩ | ⟨h, rest⟩
            · exact .inl (.inl ⟨h, (three h).2 rest⟩)
            · cases jiang with
              | true => cases hj
              | false =>
                  cases hj
                  exact .inl (.inr ⟨⟨rfl, h⟩, (two h).2 rest⟩)
            · exact .inr ⟨h, (run h).2.2 rest⟩

end FkServer.MaajanXuezhan.Rule
