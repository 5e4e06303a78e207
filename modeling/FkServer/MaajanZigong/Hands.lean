import FkServer.Library.WildcardCover
import FkServer.MaajanZigong.IsHu
import Mathlib.Tactic.IntervalCases

/-!
Hands of three suits and wildcards, what it means that one wins, and what the tables of
`maajan_data` are taken to hold: the counts of one suit that a number of wildcards
completes. The tables do not tell the suits apart, and neither does winning.
-/
namespace FkServer.MaajanZigong
open WildcardCover WildcardCover.Deck

/-- A tile a wildcard can stand for. -/
def Ordinary (tile : Nat) : Prop := 1 ≤ tile % 10 ∧ tile < 30

def suitOf (tile : Nat) : Fin 3 := Fin.ofNat 3 (tile / 10)

def Triplet (b : Multiset Nat) : Prop := ∃ t, b = Multiset.replicate 3 t

def Run (b : Multiset Nat) : Prop :=
  ∃ t, (1 ≤ t % 10 ∧ t % 10 ≤ 7 ∧ t < 30) ∧ b = {t, t + 1, t + 2}

def hands : Deck Nat (Fin 3) where
  suit := suitOf
  ordinary := Ordinary
  block b := Triplet b ∨ Run b
  block_card := by
    rintro b (⟨t, rfl⟩ | ⟨t, _, rfl⟩)
    · exact Multiset.card_replicate 3 t
    · rfl
  block_suit := by
    rintro b (⟨t, rfl⟩ | ⟨t, ⟨_, low, _⟩, rfl⟩)
    · exact ⟨suitOf t, fun x hx => Multiset.eq_of_mem_replicate hx ▸ rfl⟩
    · refine ⟨suitOf t, fun x hx => congrArg (Fin.ofNat 3) ?_⟩
      simp only [Multiset.insert_eq_cons, Multiset.mem_cons, Multiset.mem_singleton] at hx
      omega
  triplet := fun a => .inl ⟨a, rfl⟩
  inhabited := fun i => by
    refine ⟨10 * i.val + 1, ⟨by omega, by omega⟩, Fin.ext ?_⟩
    change (10 * i.val + 1) / 10 % 3 = i.val
    omega

theorem of_suit_iff {i : Fin 3} {x : Nat} :
    hands.ordinary x ∧ hands.suit x = i ↔ 1 ≤ x % 10 ∧ x / 10 = i.val := by
  change (1 ≤ x % 10 ∧ x < 30) ∧ suitOf x = i ↔ _
  rw [suitOf, Fin.ext_iff, Fin.val_ofNat]
  omega

/-- The counts of some tiles of one suit, by their values. -/
structure CountVector (tbl : Counts) : Prop where
  values : ∀ d, tbl d ≠ 0 → 1 ≤ d ∧ d ≤ 9
  few : ∀ d, 0 ≤ tbl d ∧ tbl d ≤ 4
  held : ∃ d, 0 < tbl d

/-- The tiles of a count vector, as tiles of the first suit. -/
def ranks (tbl : Counts) : Multiset Nat := counts2Tiles tbl

/-- Where the table for `g` wildcards stands. -/
def tableIndex (g : Nat) : Nat := if g = 0 then 5 else g

/-- The tables hold the count vectors that `g` wildcards complete, with a pair or without. -/
structure Exact (data : MaajanData String) : Prop where
  jiang : ∀ tbl, CountVector tbl → ∀ g ≤ 4,
    (data 1 (tableIndex g) (concat tbl) = true ↔ hands.Completes hands.Paired 0 g (ranks tbl))
  men : ∀ tbl, CountVector tbl → ∀ g ≤ 4,
    (data 2 (tableIndex g) (concat tbl) = true ↔ hands.Completes hands.Melds 0 g (ranks tbl))

/-- A hand of the three suits and wildcards, with the right number of tiles. -/
structure Hand (counts : Counts) : Prop where
  tiles : ∀ t, counts t ≠ 0 → Ordinary t ∨ t = tyValue
  few : ∀ t, 0 ≤ counts t ∧ counts t ≤ 4
  total : (counts2Tiles counts).length % 3 = 2

def ordinaryTiles (counts : Counts) : Multiset Nat :=
  ((counts2Tiles counts).filter fun t => t ≠ tyValue : List Nat)

def wildcards (counts : Counts) : Nat := (counts tyValue).toNat

/-- Ordinary tiles for the wildcards make the hand melds and one pair. -/
def Winning (counts : Counts) : Prop := hands.Wins (wildcards counts) (ordinaryTiles counts)

theorem count_ordinaryTiles {counts : Counts} (t : Nat) : (ordinaryTiles counts).count t =
    if 1 ≤ t ∧ t ≤ 50 ∧ t ≠ tyValue then (counts t).toNat else 0 := by
  rw [ordinaryTiles, Multiset.coe_count]
  by_cases wildcard : t = tyValue
  · rw [if_neg fun h => h.2.2 wildcard]
    exact List.count_eq_zero.2 fun member => of_decide_eq_true (List.mem_filter.1 member).2 wildcard
  · rw [List.count_filter (by simpa using wildcard), count_counts2Tiles]
    simp [wildcard]

/-! ### The suits look alike -/

theorem map_value_block {i : Fin 3} {b : Multiset Nat} (hb : hands.block b) (_ : hands.Of i b) :
    hands.block (b.map (· % 10)) := by
  rcases hb with ⟨t, rfl⟩ | ⟨t, ⟨low, high, small⟩, rfl⟩
  · exact .inl ⟨t % 10, Multiset.map_replicate _ _ _⟩
  · refine .inr ⟨t % 10, by omega, ?_⟩
    have next : (t + 1) % 10 = t % 10 + 1 ∧ (t + 2) % 10 = t % 10 + 2 := by omega
    simp [next]

theorem map_shift_block {i : Fin 3} {b : Multiset Nat} (hb : hands.block b)
    (own : hands.Of 0 b) : hands.block (b.map (10 * i.val + ·)) := by
  rcases hb with ⟨t, rfl⟩ | ⟨t, ⟨low, high, small⟩, rfl⟩
  · exact .inl ⟨_, Multiset.map_replicate _ _ _⟩
  · have first := (of_suit_iff.1 (own t (by simp))).2
    refine .inr ⟨10 * i.val + t, ?_, by simp [Nat.add_assoc]⟩
    simp only [Fin.val_zero] at first
    omega

theorem value_move {i : Fin 3} (x : Nat) (h : hands.ordinary x ∧ hands.suit x = i) :
    hands.ordinary (x % 10) ∧ hands.suit (x % 10) = 0 := by
  rw [of_suit_iff] at *
  rw [Fin.val_zero]
  omega

theorem shift_move {i : Fin 3} (x : Nat) (h : hands.ordinary x ∧ hands.suit x = 0) :
    hands.ordinary (10 * i.val + x) ∧ hands.suit (10 * i.val + x) = i := by
  rw [of_suit_iff] at *
  rw [Fin.val_zero] at h
  omega

theorem map_shift_value {i : Fin 3} {s : Multiset Nat} (own : hands.Of i s) :
    (s.map (· % 10)).map (10 * i.val + ·) = s := by
  rw [Multiset.map_map]
  refine (Multiset.map_congr rfl fun x hx => ?_).trans (Multiset.map_id s)
  have := (of_suit_iff.1 (own x hx)).2
  change 10 * i.val + x % 10 = x
  omega

theorem of_value {i : Fin 3} {s : Multiset Nat} (own : hands.Of i s) :
    hands.Of 0 (s.map (· % 10)) := by
  intro y hy
  obtain ⟨x, hx, rfl⟩ := Multiset.mem_map.1 hy
  exact value_move x (own x hx)

/-- What completes some tiles of a suit completes the same values of the first suit. -/
theorem completes_value {i : Fin 3} {s : Multiset Nat} {g : Nat} (own : hands.Of i s) :
    (hands.Completes hands.Melds 0 g (s.map (· % 10)) ↔ hands.Completes hands.Melds i g s) ∧
      (hands.Completes hands.Paired 0 g (s.map (· % 10)) ↔ hands.Completes hands.Paired i g s) := by
  have keep := fun b hb => map_value_block (i := i) (b := b) hb
  have back := fun b hb => map_shift_block (i := i) (b := b) hb
  refine ⟨⟨fun h => ?_, fun h => ?_⟩, ⟨fun h => ?_, fun h => ?_⟩⟩
  · rw [← map_shift_value own]
    exact h.map shift_move (fun t ht melds => melds.map back ht) (of_value own)
  · exact h.map value_move (fun t ht melds => melds.map keep ht) own
  · rw [← map_shift_value own]
    exact h.map shift_move (fun t ht paired => paired.map back ht) (of_value own)
  · exact h.map value_move (fun t ht paired => paired.map keep ht) own

/-! ### The keys of the tables -/

/-- A count up to 4 is written with one digit. -/
theorem toString_digit {k : Int} (few : 0 ≤ k ∧ k ≤ 4) :
    (toString k).toList = [Nat.digitChar k.toNat] := by
  obtain ⟨n, rfl⟩ := Int.eq_ofNat_of_zero_le few.1
  have small : n ≤ 4 := by omega
  interval_cases n <;> rfl

theorem digitChar_injective : ∀ a ≤ 4, ∀ b ≤ 4, Nat.digitChar a = Nat.digitChar b → a = b := by
  decide

theorem concat_injective {tbl tbl' : Counts} (h : CountVector tbl) (h' : CountVector tbl')
    (same : concat tbl = concat tbl') : tbl = tbl' := by
  have digits : ∀ {tbl}, CountVector tbl →
      (concat tbl).toList = (List.range' 1 9).map fun d => Nat.digitChar (tbl d).toNat := by
    intro tbl h
    rw [concat, String.toList_join, List.flatMap_map]
    simp only [toString_digit (h.few _)]
    rw [← List.map_eq_flatMap]
  have equal := congrArg String.toList same
  rw [digits h, digits h'] at equal
  funext d
  by_cases inside : 1 ≤ d ∧ d ≤ 9
  · have few := h.few d
    have few' := h'.few d
    have digit := List.map_inj_left.1 equal d (List.mem_range'_1.2 (by omega))
    have := digitChar_injective _ (by omega) _ (by omega) digit
    omega
  · have outside : ∀ {tbl}, CountVector tbl → tbl d = 0 := fun h =>
      Classical.by_contradiction fun held => inside (h.values d held)
    rw [outside h, outside h']

open Classical in
/-- The tables as they are taken to be. -/
noncomputable def exactData : MaajanData String := fun k g key =>
  decide (∃ tbl, CountVector tbl ∧ concat tbl = key ∧
    hands.Completes (if k = 1 then hands.Paired else hands.Melds) 0 (if g = 5 then 0 else g)
      (ranks tbl))

theorem exactData_exact : Exact exactData := by
  have index : ∀ g ≤ 4, (if tableIndex g = 5 then 0 else tableIndex g) = g := by decide
  have entry : ∀ k tbl, CountVector tbl → ∀ g ≤ 4,
      (exactData k (tableIndex g) (concat tbl) = true ↔
        hands.Completes (if k = 1 then hands.Paired else hands.Melds) 0 g (ranks tbl)) := by
    intro k tbl vector g few
    simp only [exactData, decide_eq_true_eq, index g few]
    constructor
    · rintro ⟨tbl', vector', same, completes⟩
      rwa [← concat_injective vector' vector same]
    · exact fun completes => ⟨tbl, vector, rfl, completes⟩
  exact ⟨entry 1, entry 2⟩

end FkServer.MaajanZigong
