import FkServer.MaajanZigong.CaseSplit
import Mathlib.Algebra.BigOperators.Fin

/-!
`is_hu` on whole hands: the suits it sorts the tiles into are the parts of the hand, their
keys are the count vectors of the tables, and so the case split decides whether the hand
wins, but for the distributions of four wildcards it does not try.
-/
namespace FkServer.MaajanZigong
open WildcardCover WildcardCover.Deck

variable {data : MaajanData String} {counts : Counts} {i : Fin 3} {tiles : List Nat}

/-! ### The tiles of a suit -/

/-- Where `serialization` counts a tile. -/
def valueOf (v : Nat) : Nat := if 10 < v then v % 10 else v

theorem valueCounts_apply (tiles : List Nat) (d : Nat) :
    valueCounts tiles d = ((tiles.map valueOf).count d : Int) := by
  have fold : ∀ acc : Counts,
      tiles.foldl (fun tbl v => incr tbl (valueOf v) 1) acc d =
        acc d + ((tiles.map valueOf).count d : Int) := by
    induction tiles with
    | nil => simp
    | cons v rest ih =>
        intro acc
        rw [List.foldl_cons, ih, incr_apply, List.map_cons, List.count_cons]
        by_cases same : d = valueOf v
        · subst same
          simp
          omega
        · simp [same, Ne.symm same]
  exact (fold fun _ => 0).trans (zero_add _)

theorem valueOf_eq {t : Nat} (h : Ordinary t) : valueOf t = t % 10 := by
  unfold valueOf Ordinary at *
  split <;> omega

theorem length_eq_card_add (counts : Counts) :
    (counts2Tiles counts).length = (ordinaryTiles counts).card + wildcards counts := by
  have wild : wildcards counts = (counts2Tiles counts).countP fun t => t == tyValue := by
    rw [← List.count, count_counts2Tiles]
    rfl
  have rest : (ordinaryTiles counts).card =
      (counts2Tiles counts).countP fun t => ¬(t == tyValue) = true := by
    rw [ordinaryTiles, Multiset.coe_card, ← List.countP_eq_length_filter]
    simp
  rw [wild, rest, add_comm, ← List.length_eq_countP_add_countP]

variable (hand : Hand counts)
include hand

theorem Hand.held {t : Nat} (mem : t ∈ counts2Tiles counts) : Ordinary t ∨ t = tyValue :=
  hand.tiles t (ne_of_gt (mem_counts2Tiles.1 mem).2)

theorem Hand.ordinary : ∀ x ∈ ordinaryTiles counts, hands.ordinary x := by
  intro x hx
  obtain ⟨mem, kind⟩ := List.mem_filter.1 (Multiset.mem_coe.1 hx)
  exact (hand.held mem).resolve_right (of_decide_eq_true kind)

/-- The tiles the source sorts into a suit are that part of the hand. -/
theorem Hand.tilesMen_eq (i : Fin 3) :
    (tilesMen counts (i.val + 1) : Multiset Nat) = hands.part i (ordinaryTiles counts) := by
  rw [part, ordinaryTiles, Multiset.filter_coe, List.filter_filter, tilesMen]
  congr 1
  refine List.filter_congr fun t mem => ?_
  rw [← Bool.decide_and, decide_eq_decide]
  change curTileMen t = i.val + 1 ↔ suitOf t = i ∧ t ≠ tyValue
  rw [suitOf, Fin.ext_iff, Fin.val_ofNat, curTileMen]
  have last := i.isLt
  rcases hand.held mem with ⟨_, small⟩ | rfl
  · have other : t ≠ tyValue := by
      unfold tyValue
      omega
    rw [if_neg other, and_iff_left other]
    omega
  · refine iff_of_false ?_ fun both => both.2 rfl
    rw [if_pos rfl]
    omega

theorem Hand.of_tilesMen (i : Fin 3) : hands.Of i (tilesMen counts (i.val + 1)) :=
  hand.tilesMen_eq i ▸ part_of hand.ordinary

theorem Hand.length_wildcards : (tilesMen counts 4).length = wildcards counts := by
  have same : tilesMen counts 4 = (counts2Tiles counts).filter fun t => t == tyValue := by
    refine List.filter_congr fun t mem => ?_
    rw [curTileMen]
    rcases hand.held mem with ⟨_, small⟩ | rfl
    · have other : t ≠ tyValue := by
        unfold tyValue
        omega
      rw [if_neg other, beq_false_of_ne other, decide_eq_false_iff_not]
      omega
    · rfl
  rw [same, ← List.countP_eq_length_filter, ← List.count, count_counts2Tiles, wildcards]
  rfl

theorem Hand.residue : ((ordinaryTiles counts).card + wildcards counts) % 3 = 2 := by
  rw [← length_eq_card_add]
  exact hand.total

theorem Hand.few_wildcards : wildcards counts ≤ 4 := by
  have := hand.few tyValue
  unfold wildcards
  omega

/-- A value comes as often as the tile of the suit that has it. -/
theorem Hand.count_value (i : Fin 3) (d : Nat) :
    ((tilesMen counts (i.val + 1)).map valueOf).count d ≤ 4 := by
  have few := hand.few (10 * i.val + d)
  have least : (tilesMen counts (i.val + 1)).countP (fun t => valueOf t == d) ≤
      (counts2Tiles counts).count (10 * i.val + d) := by
    rw [tilesMen, List.countP_filter, List.count]
    refine List.countP_mono_left fun t mem both => ?_
    simp only [Bool.and_eq_true, beq_iff_eq, decide_eq_true_eq] at both ⊢
    obtain ⟨value, men⟩ := both
    have own := of_suit_iff.1 (hand.of_tilesMen i t
      (Multiset.mem_coe.2 (List.mem_filter.2 ⟨mem, decide_eq_true men⟩)))
    rw [valueOf_eq ⟨own.1, by omega⟩] at value
    omega
  rw [count_counts2Tiles] at least
  have mapped : ((tilesMen counts (i.val + 1)).map valueOf).count d =
      (tilesMen counts (i.val + 1)).countP fun t => valueOf t == d := by
    rw [List.count, List.countP_map]
    rfl
  rw [mapped]
  split at least <;> omega

theorem Hand.map_valueOf (i : Fin 3) :
    (tilesMen counts (i.val + 1)).map valueOf = (tilesMen counts (i.val + 1)).map (· % 10) := by
  refine List.map_congr_left fun t mem => valueOf_eq ?_
  exact (hand.of_tilesMen i t (Multiset.mem_coe.2 mem)).1

theorem Hand.vector (i : Fin 3) (some : tilesMen counts (i.val + 1) ≠ []) :
    CountVector (valueCounts (tilesMen counts (i.val + 1))) where
  values d h := by
    rw [valueCounts_apply, hand.map_valueOf i] at h
    obtain ⟨t, mem, rfl⟩ := List.mem_map.1 (List.count_pos_iff.1 (Nat.pos_of_ne_zero
      (Int.natCast_ne_zero.1 h)))
    have own := of_suit_iff.1 (hand.of_tilesMen i t (Multiset.mem_coe.2 mem))
    omega
  few d := by
    rw [valueCounts_apply]
    have := hand.count_value i d
    omega
  held := by
    obtain ⟨t, mem⟩ := List.exists_mem_of_ne_nil _ some
    refine ⟨valueOf t, ?_⟩
    rw [valueCounts_apply]
    exact Int.natCast_pos.2 (List.count_pos_iff.2 (List.mem_map_of_mem mem))

theorem Hand.ranks_eq (i : Fin 3) :
    ranks (valueCounts (tilesMen counts (i.val + 1))) =
      (hands.part i (ordinaryTiles counts)).map (· % 10) := by
  rw [← hand.tilesMen_eq i, Multiset.map_coe, ← hand.map_valueOf i]
  refine Multiset.coe_eq_coe.2 (List.perm_iff_count.2 fun d => ?_)
  rw [count_counts2Tiles, valueCounts_apply, Int.toNat_natCast]
  split
  · rfl
  · rename_i outside
    refine (List.count_eq_zero_of_not_mem fun mem => outside ?_).symm
    rw [hand.map_valueOf i] at mem
    obtain ⟨t, held, rfl⟩ := List.mem_map.1 mem
    have own := of_suit_iff.1 (hand.of_tilesMen i t (Multiset.mem_coe.2 held))
    omega

/-! ### The needs of a suit -/

omit hand in
/-- What a suit of the hand needs. -/
noncomputable def needs (counts : Counts) (i : Fin 3) : Needs :=
  let part := hands.part i (ordinaryTiles counts)
  ⟨(tilesMen counts (i.val + 1)).isEmpty, hands.melds i part, hands.paired i part⟩

theorem Hand.needs_valid (i : Fin 3) : (needs counts i).Valid where
  pair := paired_eq (part_of hand.ordinary)
  empty h := by
    have none : hands.part i (ordinaryTiles counts) = 0 := by
      rw [← hand.tilesMen_eq i, List.isEmpty_iff.1 h]
      rfl
    refine Nat.le_zero.1 (Nat.sInf_le ⟨0, rfl, ?_, ?_⟩)
    · exact fun _ h => absurd h (Multiset.notMem_zero _)
    · rw [none]
      exact .nil

variable (exact_ : Exact data)
include exact_

/-- The tables answer for a suit as its needs do. -/
theorem Hand.row_eq (i : Fin 3) (some : tilesMen counts (i.val + 1) ≠ []) :
    rowOf data (serialization (tilesMen counts (i.val + 1))) = (needs counts i).row := by
  have own := part_of (i := i) hand.ordinary
  have values := fun g => completes_value (g := g) own
  have index : ∀ g : Fin 5, g.val + 1 = tableIndex ((g.val + 1) % 5) ∧ (g.val + 1) % 5 ≤ 4 := by
    decide
  have mod := (melds_spec own).melds_mod
  have mod' := (paired_spec own).paired_mod
  rw [rowOf, Needs.row]
  congr 1 <;> funext g <;> obtain ⟨place, few⟩ := index g
  · have entry := exact_.jiang _ (hand.vector i some) _ few
    rw [← place] at entry
    rw [Bool.eq_iff_iff, decide_eq_true_eq, serialization, entry, hand.ranks_eq i, (values _).2,
      completes_paired_iff own]
    refine and_congr_right fun _ => ?_
    simp only [needs]
    omega
  · have entry := exact_.men _ (hand.vector i some) _ few
    rw [← place] at entry
    rw [Bool.eq_iff_iff, decide_eq_true_eq, serialization, entry, hand.ranks_eq i, (values _).1,
      completes_melds_iff own]
    refine and_congr_right fun _ => ?_
    simp only [needs]
    omega

theorem Hand.men_eq (i : Fin 3) : (menOf counts (i.val + 1)).row data = (needs counts i).men := by
  have own := part_of (i := i) hand.ordinary
  have mod := (melds_spec own).melds_mod
  have card : (hands.part i (ordinaryTiles counts)).card =
      (tilesMen counts (i.val + 1)).length := by
    rw [← hand.tilesMen_eq i, Multiset.coe_card]
  have num : (tilesMen counts (i.val + 1)).length % 3 = 2 * (needs counts i).melds % 3 := by
    simp only [needs]
    omega
  rw [menOf, Men.row, Needs.men, num]
  congr 1
  cases held : tilesMen counts (i.val + 1) with
  | nil => simp [needs, held]
  | cons t rest =>
      have some : tilesMen counts (i.val + 1) ≠ [] := by simp [held]
      have row := hand.row_eq exact_ i some
      rw [held] at row
      simp [needs, held, row]

/-! ### The whole hand -/

omit hand exact_ in
theorem sum_rest (f : Fin 3 → Nat) :
    ∑ i ∈ Finset.univ.erase 0, f i = f 1 + f 2 ∧ ∑ i ∈ Finset.univ.erase 1, f i = f 0 + f 2 ∧
      ∑ i ∈ Finset.univ.erase 2, f i = f 0 + f 1 := by
  have zero : (Finset.univ : Finset (Fin 3)).erase 0 = {1, 2} := by decide
  have one : (Finset.univ : Finset (Fin 3)).erase 1 = {0, 2} := by decide
  have two : (Finset.univ : Finset (Fin 3)).erase 2 = {0, 1} := by decide
  rw [zero, one, two]
  exact ⟨Finset.sum_pair (by decide), Finset.sum_pair (by decide), Finset.sum_pair (by decide)⟩

omit exact_ in
theorem Hand.winning_iff :
    Winning counts ↔ leastSuffice (needs counts 0) (needs counts 1) (needs counts 2)
      (wildcards counts) = true := by
  obtain ⟨zero, one, two⟩ := sum_rest fun i => (needs counts i).melds
  rw [Winning, wins_iff_least hand.ordinary hand.residue, leastSuffice]
  simp only [Bool.or_eq_true, decide_eq_true_eq]
  constructor
  · rintro ⟨j, least⟩
    change (needs counts j).paired + ∑ i ∈ Finset.univ.erase j, (needs counts i).melds ≤ _ at least
    obtain rfl | rfl | rfl : j = 0 ∨ j = 1 ∨ j = 2 := by omega
    · omega
    · omega
    · omega
  · rintro ((h | h) | h)
    · refine ⟨0, ?_⟩
      change (needs counts 0).paired + ∑ i ∈ Finset.univ.erase 0, (needs counts i).melds ≤ _
      omega
    · refine ⟨1, ?_⟩
      change (needs counts 1).paired + ∑ i ∈ Finset.univ.erase 1, (needs counts i).melds ≤ _
      omega
    · refine ⟨2, ?_⟩
      change (needs counts 2).paired + ∑ i ∈ Finset.univ.erase 2, (needs counts i).melds ≤ _
      omega

omit exact_ in
theorem Hand.needs_residue :
    (wildcards counts + 2 * ((needs counts 0).melds + (needs counts 1).melds +
      (needs counts 2).melds)) % 3 = 2 := by
  have mod := fun i : Fin 3 =>
    (melds_spec (part_of (i := i) hand.ordinary) : hands.Completes _ _ _ _).melds_mod
  have total := congrArg Multiset.card (sum_part hands (ordinaryTiles counts))
  rw [Multiset.card_sum, Fin.sum_univ_three] at total
  have residue := hand.residue
  have := mod 0
  have := mod 1
  have := mod 2
  simp only [needs]
  omega

theorem Hand.isHu_eq :
    isHu data counts = (leastSuffice (needs counts 0) (needs counts 1) (needs counts 2)
        (wildcards counts) &&
      !(wildcards counts == 4 &&
        overlooked (needs counts 0) (needs counts 1) (needs counts 2))) := by
  rw [← isHuMen_needs hand.few_wildcards (hand.needs_valid 0) (hand.needs_valid 1)
    (hand.needs_valid 2) hand.needs_residue, ← hand.men_eq exact_, ← hand.men_eq exact_,
    ← hand.men_eq exact_, isHu, hand.length_wildcards, ← isHuMen_row]
  rfl

omit hand exact_

/-- Four wildcards that are needed three for one suit and one for another, or two for each
of two suits, where the last suit has the pair already. -/
def Overlooked (counts : Counts) : Prop :=
  wildcards counts = 4 ∧ ∃ x y z : Fin 3, (x ≠ y ∧ y ≠ z ∧ x ≠ z) ∧
    (((needs counts x).melds = 3 ∧ (needs counts x).paired = 5 ∧ (needs counts y).paired = 0 ∧
        (needs counts z).melds = 1) ∨
      ((needs counts x).melds = 2 ∧ (needs counts x).paired = 4 ∧ (needs counts y).melds = 2 ∧
        (needs counts y).paired = 4 ∧ (needs counts z).paired = 0))

theorem exists_distinct {p : Fin 3 → Fin 3 → Fin 3 → Prop} :
    (∃ x y z, (x ≠ y ∧ y ≠ z ∧ x ≠ z) ∧ p x y z) ↔
      p 0 1 2 ∨ p 0 2 1 ∨ p 1 0 2 ∨ p 1 2 0 ∨ p 2 0 1 ∨ p 2 1 0 := by
  simp [Fin.exists_fin_succ, or_assoc]

theorem twoAndTwo_comm (a b c : Needs) : twoAndTwo a b c = twoAndTwo b a c := by
  rw [twoAndTwo, twoAndTwo, Bool.and_comm a.two]

theorem overlooked_iff :
    Overlooked counts ↔ wildcards counts = 4 ∧
      overlooked (needs counts 0) (needs counts 1) (needs counts 2) = true := by
  have each : ∀ x y z : Fin 3,
      (((needs counts x).melds = 3 ∧ (needs counts x).paired = 5 ∧ (needs counts y).paired = 0 ∧
        (needs counts z).melds = 1) ∨
      ((needs counts x).melds = 2 ∧ (needs counts x).paired = 4 ∧ (needs counts y).melds = 2 ∧
        (needs counts y).paired = 4 ∧ (needs counts z).paired = 0)) ↔
      (threeAndOne (needs counts x) (needs counts y) (needs counts z) ||
        twoAndTwo (needs counts x) (needs counts y) (needs counts z)) = true := by
    intro x y z
    simp only [threeAndOne, twoAndTwo, Needs.three, Needs.two, Bool.or_eq_true, Bool.and_eq_true,
      beq_iff_eq, and_assoc]
  rw [Overlooked]
  simp only [each, exists_distinct, overlooked, twoAndTwo_comm (needs counts 1) (needs counts 0),
    twoAndTwo_comm (needs counts 2), Bool.or_eq_true]
  refine and_congr_right fun _ => ?_
  grind

/-- With exact tables `is_hu` decides whether a hand wins, unless it is overlooked. -/
theorem isHu_wins_iff (exact_ : Exact data) (hand : Hand counts) :
    (isHu data counts = true ↔ Winning counts) ↔ ¬ Overlooked counts := by
  rw [hand.isHu_eq exact_, hand.winning_iff, overlooked_iff]
  constructor
  · rintro agree ⟨four, missed⟩
    rw [four] at agree
    simp [leastSuffice_of_overlooked missed, missed] at agree
  · intro fine
    rw [Bool.and_eq_true, and_iff_left_iff_imp]
    intro _
    simpa [imp_iff_not_or] using fine

/-- Fourteen tiles with two wildcards, for 23 and a second 29. -/
def twoWild : List Nat := [11, 12, 13, 14, 14, 14, 21, 22, 25, 26, 27, 29, 37, 37]

theorem twoWild_hand : Hand fun t => (twoWild.count t : Int) where
  tiles t held := (show ∀ t ∈ twoWild, (1 ≤ t % 10 ∧ t < 30) ∨ t = tyValue by decide) t
    (List.count_pos_iff.1 (Nat.pos_of_ne_zero (Int.natCast_ne_zero.1 held)))
  few t := by
    refine ⟨Int.natCast_nonneg _, ?_⟩
    by_cases mem : t ∈ twoWild
    · exact Int.ofNat_le.2 ((show ∀ t ∈ twoWild, twoWild.count t ≤ 4 by decide) t mem)
    · rw [List.count_eq_zero.2 mem]
      decide
  total := by decide +kernel

theorem two_wildcards_win : isHu exactData (fun t => twoWild.count t) = true := by
  have won : Winning fun t => (twoWild.count t : Int) := by
    have tiles : ordinaryTiles (fun t => (twoWild.count t : Int)) =
        {11, 12, 13, 14, 14, 14, 21, 22, 25, 26, 27, 29} :=
      congrArg Multiset.ofList (by decide +kernel)
    have melds : hands.Melds ({11, 12, 13} + ({14, 14, 14} + ({21, 22, 23} + ({25, 26, 27} + 0)))) :=
      .block (.inr ⟨11, by decide, rfl⟩) (.block (.inl ⟨14, rfl⟩) (.block (.inr ⟨21, by decide, rfl⟩)
        (.block (.inr ⟨25, by decide, rfl⟩) .nil)))
    refine ⟨{23, 29}, rfl, ?_, {29, 29}, _, ⟨29, rfl⟩, melds, ?_⟩
    · exact show ∀ x ∈ ({23, 29} : Multiset Nat), 1 ≤ x % 10 ∧ x < 30 by decide
    · rw [tiles]
      decide
  exact ((isHu_wins_iff exactData_exact twoWild_hand).2 fun missed =>
    absurd missed.1 (by decide)).2 won

/-- Two gaps in one suit. -/
def gaps (i : Fin 3) : Multiset Nat :=
  {10 * i.val + 1, 10 * i.val + 2, 10 * i.val + 5, 10 * i.val + 6}

theorem gaps_of (i : Fin 3) : hands.Of i (gaps i) := by
  intro x hx
  rw [of_suit_iff]
  simp only [gaps, Multiset.insert_eq_cons, Multiset.mem_cons, Multiset.mem_singleton] at hx
  omega

theorem gaps_melds (i : Fin 3) : hands.melds i (gaps i) = 2 := by
  have filled : hands.Completes hands.Melds i 2 (gaps i) := by
    refine ⟨{10 * i.val + 3, 10 * i.val + 7}, rfl, fun x hx => ?_, ?_⟩
    · rw [of_suit_iff]
      simp only [Multiset.insert_eq_cons, Multiset.mem_cons, Multiset.mem_singleton] at hx
      omega
    · have runs : gaps i + {10 * i.val + 3, 10 * i.val + 7} =
          {10 * i.val + 1, 10 * i.val + 1 + 1, 10 * i.val + 1 + 2} +
            ({10 * i.val + 5, 10 * i.val + 5 + 1, 10 * i.val + 5 + 2} + 0) := by
        revert i
        decide
      have last := i.isLt
      rw [runs]
      exact .block (.inr ⟨_, by omega, rfl⟩) (.block (.inr ⟨_, by omega, rfl⟩) .nil)
  have least : hands.melds i (gaps i) ≤ 2 := Nat.sInf_le filled
  have residue : (4 + hands.melds i (gaps i)) % 3 = 0 := (melds_spec (gaps_of i)).melds_mod
  omega

theorem gaps_paired (i : Fin 3) : hands.paired i (gaps i) = 4 := by
  rcases paired_eq (gaps_of i) with one | more
  · rw [gaps_melds] at one
    have spec := paired_spec (gaps_of i)
    rw [Nat.succ.inj one] at spec
    obtain ⟨w, single, _, b, r, ⟨a, rfl⟩, melds, split⟩ := spec
    have size := congrArg Multiset.card split
    have four : (gaps i).card = 4 := rfl
    rw [Multiset.card_add, Multiset.card_add, four, single, Multiset.card_replicate] at size
    have block := melds.block_of_card (by omega)
    have mem : ∀ x ∈ gaps i, x = a ∨ x ∈ r := fun x hx => by
      have both : x ∈ Multiset.replicate 2 a + r := split ▸ Multiset.mem_add.2 (.inl hx)
      exact (Multiset.mem_add.1 both).imp_left Multiset.eq_of_mem_replicate
    have h₁ := mem (10 * i.val + 1) (by simp [gaps])
    have h₂ := mem (10 * i.val + 2) (by simp [gaps])
    have h₅ := mem (10 * i.val + 5) (by simp [gaps])
    have h₆ := mem (10 * i.val + 6) (by simp [gaps])
    -- four different tiles are too many for a pair and a triplet, and too far apart for a run
    rcases block with ⟨t, rfl⟩ | ⟨t, _, rfl⟩
    · simp only [Multiset.mem_replicate] at h₁ h₂ h₅ h₆
      omega
    · simp only [Multiset.insert_eq_cons, Multiset.mem_cons, Multiset.mem_singleton] at h₁ h₂ h₅ h₆
      omega
  · rw [more, gaps_melds]

/-- Two suits with two gaps each, a pair in the third, and four wildcards. -/
def gapHand : Counts := fun t => ([1, 2, 5, 6, 11, 12, 15, 16, 21, 21, 37, 37, 37, 37].count t : Nat)

theorem gapHand_hand : Hand gapHand where
  tiles t h := by
    have mem : t ∈ [1, 2, 5, 6, 11, 12, 15, 16, 21, 21, 37, 37, 37, 37] :=
      List.count_pos_iff.1 (Nat.pos_of_ne_zero (Int.natCast_ne_zero.1 h))
    have kinds : ∀ t ∈ [1, 2, 5, 6, 11, 12, 15, 16, 21, 21, 37, 37, 37, 37],
        (1 ≤ t % 10 ∧ t < 30) ∨ t = 37 := by decide
    exact kinds t mem
  few t := by
    have counted : ∀ t ∈ [1, 2, 5, 6, 11, 12, 15, 16, 21, 21, 37, 37, 37, 37],
        [1, 2, 5, 6, 11, 12, 15, 16, 21, 21, 37, 37, 37, 37].count t ≤ 4 := by decide
    unfold gapHand
    by_cases mem : t ∈ [1, 2, 5, 6, 11, 12, 15, 16, 21, 21, 37, 37, 37, 37]
    · have := counted t mem
      omega
    · rw [List.count_eq_zero_of_not_mem mem]
      decide
  total := by decide

theorem gapHand_overlooked : Overlooked gapHand := by
  have tiles : ordinaryTiles gapHand = gaps 0 + (gaps 1 + {21, 21}) := by decide
  have part : ∀ i : Fin 3, hands.part i (ordinaryTiles gapHand) =
      if i = 2 then {21, 21} else gaps i := by
    rw [tiles]
    decide
  refine ⟨by decide, 0, 1, 2, by decide, .inr ?_⟩
  simp only [needs, part]
  refine ⟨gaps_melds 0, gaps_paired 0, gaps_melds 1, gaps_paired 1, Nat.le_zero.1 (Nat.sInf_le ?_)⟩
  refine ⟨0, rfl, fun x hx => absurd hx (Multiset.notMem_zero x), {21, 21}, 0, ⟨21, rfl⟩, .nil, rfl⟩

theorem two_and_two_missed :
    Exact exactData ∧ Hand gapHand ∧ Winning gapHand ∧ isHu exactData gapHand = false := by
  obtain ⟨four, missed⟩ := overlooked_iff.1 gapHand_overlooked
  refine ⟨exactData_exact, gapHand_hand, ?_, ?_⟩
  · rw [gapHand_hand.winning_iff, four]
    exact leastSuffice_of_overlooked missed
  · rw [gapHand_hand.isHu_eq exactData_exact, four, missed]
    simp

end FkServer.MaajanZigong
