import FkServer.MaajanZigong.WildcardHands

/-!
`is_hu` with the tables as they stand. `maajan_data` holds what wildcards complete without a fifth
tile of a kind, but for the nine suits of five of one tile and nothing else. A hand of 14 tiles
with at most three wildcards wins exactly if its suits can be completed so.
-/
namespace FkServer.MaajanZigong

open WildcardCover WildcardCover.Deck

variable {data : MaajanData String} {counts : Counts} {κ : Type} {n g : Nat} {i : Fin 3}
  {s : Multiset Nat}

/-- A suit that the tables know: at most four of each tile, or five of one and nothing else. -/
def Known (s : Multiset Nat) : Prop := (∀ t, s.count t ≤ 4) ∨ ∃ t, s = Multiset.replicate 5 t

/-- `g` wildcards make the suit melds in a way that the tables know, -/
def KnownMelds (i : Fin 3) (g : Nat) (s : Multiset Nat) : Prop :=
  hands.Completes (fun s => hands.Melds s ∧ Known s) i g s

/-- or melds and one pair. -/
def KnownPaired (i : Fin 3) (g : Nat) (s : Multiset Nat) : Prop :=
  hands.Completes (fun s => hands.Paired s ∧ Known s) i g s

/-- The tables of `maajan_data`, which go up to 14 tiles; no key has a digit above four. -/
structure Tables (data : MaajanData String) : Prop where
  jiang : ∀ tbl, CountVector tbl → ∀ g ≤ 4, (ranks tbl).card + g ≤ 14 →
    (data 1 (tableIndex g) (concat tbl) = true ↔ KnownPaired 0 g (ranks tbl))
  men : ∀ tbl, CountVector tbl → ∀ g ≤ 4, (ranks tbl).card + g ≤ 14 →
    (data 2 (tableIndex g) (concat tbl) = true ↔ KnownMelds 0 g (ranks tbl))
  four : ∀ k g key, data k g key = true → ∀ c ∈ key.toList, c ≤ '4'

/-! ### What fits in 14 tiles -/

theorem Known.of_melds (melds : hands.Melds s) (known : Known s) (t : Nat) : s.count t ≤ 4 := by
  rcases known with four | ⟨u, rfl⟩
  · exact four t
  · have rest := melds.card_mod
    rw [Multiset.card_replicate] at rest
    omega

/-- Different tiles are no more than all. -/
theorem sum_count_le (s : Finset Nat) (b : Multiset Nat) : ∑ t ∈ s, b.count t ≤ b.card := by
  have whole : ∑ t ∈ s ∪ b.toFinset, b.count t = b.card :=
    Multiset.sum_count_eq_card fun t mem => Finset.mem_union.2 (.inr (Multiset.mem_toFinset.2 mem))
  rw [← whole]
  exact Finset.sum_le_sum_of_subset Finset.subset_union_left

/-- Some tile of the suit is there at most once. -/
theorem exists_spare (i : Fin 3) (small : s.card ≤ 17) :
    ∃ t, (hands.ordinary t ∧ hands.suit t = i) ∧ s.count t ≤ 1 := by
  by_contra none
  have each : ∀ t ∈ Finset.Icc (10 * i.val + 1) (10 * i.val + 9), 2 ≤ s.count t := by
    intro t inside
    have range := Finset.mem_Icc.1 inside
    by_contra few
    exact none ⟨t, of_suit_iff.2 (by omega), by omega⟩
  have sum := Finset.card_nsmul_le_sum _ _ 2 each
  have le := sum_count_le (Finset.Icc (10 * i.val + 1) (10 * i.val + 9)) s
  rw [Nat.card_Icc, nsmul_eq_mul] at sum
  simp only [Nat.cast_id] at sum
  omega

/-- Whole melds have room for a triplet, -/
theorem KnownMelds.triplet (h : KnownMelds i g s) (small : s.card + g ≤ 14) :
    KnownMelds i (g + 3) s := by
  obtain ⟨w, rfl, own, melds, known⟩ := h
  obtain ⟨t, inside, few⟩ := exists_spare (s := s + w) i (by rw [Multiset.card_add]; omega)
  refine ⟨w + Multiset.replicate 3 t, by simp, own.add (of_replicate inside 3), ?_, .inl fun u => ?_⟩
  · rw [← add_assoc]
    exact melds.add (.block (hands.triplet t) .nil)
  · have four := known.of_melds melds u
    rw [← add_assoc, Multiset.count_add, Multiset.count_replicate]
    split
    · rename_i same
      subst same
      omega
    · omega

/-- and for a pair. -/
theorem KnownMelds.pair (h : KnownMelds i g s) (small : s.card + g ≤ 14) :
    KnownPaired i (g + 2) s := by
  obtain ⟨w, rfl, own, melds, known⟩ := h
  obtain ⟨t, inside, few⟩ := exists_spare (s := s + w) i (by rw [Multiset.card_add]; omega)
  refine ⟨w + Multiset.replicate 2 t, by simp, own.add (of_replicate inside 2), ?_, .inl fun u => ?_⟩
  · exact ⟨Multiset.replicate 2 t, s + w, ⟨t, rfl⟩, melds, by rw [← add_assoc, add_comm]⟩
  · have four := known.of_melds melds u
    rw [← add_assoc, Multiset.count_add, Multiset.count_replicate]
    split
    · rename_i same
      subst same
      omega
    · omega

/-- Four of a tile, and two that make a run with it. -/
theorem exists_run {t : Nat} (inside : hands.ordinary t ∧ hands.suit t = i) :
    ∃ b, Multiset.card b = 2 ∧ hands.Of i b ∧ hands.Melds (Multiset.replicate 4 t + b) ∧
      ∀ u, (Multiset.replicate 4 t + b).count u ≤ 4 := by
  have place := of_suit_iff.1 inside
  have last := i.isLt
  -- the run starts with the tile, or ends with it
  obtain ⟨u, start, run⟩ : ∃ u, (1 ≤ u % 10 ∧ u % 10 ≤ 7 ∧ u < 30 ∧ u / 10 = i.val) ∧
      (t = u ∨ t = u + 2) := by
    by_cases low : t % 10 ≤ 7
    · exact ⟨t, by omega, .inl rfl⟩
    · exact ⟨t - 2, by omega, by omega⟩
  have triplet : hands.Melds (Multiset.replicate 3 t + ({u, u + 1, u + 2} + 0)) :=
    .block (hands.triplet t) (.block (.inr ⟨u, ⟨start.1, start.2.1, start.2.2.1⟩, rfl⟩) .nil)
  have parts : ∃ x y, x ≠ t ∧ y ≠ t ∧ x ≠ y ∧ (1 ≤ x % 10 ∧ x / 10 = i.val) ∧
      (1 ≤ y % 10 ∧ y / 10 = i.val) ∧ ({u, u + 1, u + 2} : Multiset Nat) = {t, x, y} := by
    rcases run with rfl | rfl
    · exact ⟨t + 1, t + 2, by omega, by omega, by omega, by omega, by omega, rfl⟩
    · refine ⟨u, u + 1, by omega, by omega, by omega, by omega, by omega, ?_⟩
      ext z
      simp only [Multiset.insert_eq_cons, Multiset.count_cons, Multiset.count_singleton]
      omega
  obtain ⟨x, y, tx, ty, xy, own, own', same⟩ := parts
  refine ⟨{x, y}, rfl, fun z mem => ?_, ?_, fun z => ?_⟩
  · rw [of_suit_iff]
    simp only [Multiset.insert_eq_cons, Multiset.mem_cons, Multiset.mem_singleton] at mem
    rcases mem with rfl | rfl
    · exact own
    · exact own'
  · rw [same, add_zero] at triplet
    have whole : Multiset.replicate 4 t + {x, y} = Multiset.replicate 3 t + {t, x, y} := by
      have four : Multiset.replicate 4 t = Multiset.replicate 3 t + {t} := by
        rw [← Multiset.replicate_one, ← Multiset.replicate_add]
      rw [four, add_assoc]
      rfl
    rwa [whole]
  · rw [Multiset.count_add, Multiset.count_replicate]
    simp only [Multiset.insert_eq_cons, Multiset.count_cons, Multiset.count_singleton]
    split <;> split <;> split <;> omega

/-- The wildcards that make the pair make it a triplet with one more, unless the suit is large. -/
theorem KnownPaired.triplet (own : hands.Of i s) (four : ∀ t, s.count t ≤ 4)
    (h : KnownPaired i g s) (small : s.card + g < 8) : KnownMelds i (g + 1) s := by
  obtain ⟨w, rfl, inside, ⟨_, rest, ⟨t, rfl⟩, melds, split⟩, known⟩ := h
  have card : s.card + w.card = 2 + rest.card := by
    rw [← Multiset.card_add, split, Multiset.card_add, Multiset.card_replicate]
  have held : t ∈ s + w := by
    rw [split]
    exact Multiset.mem_add.2 (.inl (Multiset.mem_replicate.2 ⟨by decide, rfl⟩))
  have kind : hands.ordinary t ∧ hands.suit t = i := own.add inside t held
  by_cases full : 3 < (s + w).count t
  · -- runs would make the suit large, so it is five of the tile
    have three : rest = Multiset.replicate 3 t := by
      have twice : 2 ≤ rest.count t := by
        rw [split, Multiset.count_add, Multiset.count_replicate_self] at full
        omega
      have whole := melds.card_mod
      have least := rest.count_le_card t
      rcases melds.block_of_card (by omega) with ⟨u, rfl⟩ | ⟨u, -, rfl⟩
      · rw [Multiset.count_replicate] at twice
        split at twice
        · rename_i same
          rw [same]
        · omega
      · have once : ({u, u + 1, u + 2} : Multiset Nat).count t ≤ 1 :=
          Multiset.nodup_iff_count_le_one.1 (by simp) t
        omega
    have five : s + w = Multiset.replicate 5 t := by rw [split, three, ← Multiset.replicate_add]
    have only : s = Multiset.replicate s.card t := by
      refine Multiset.eq_replicate_card.2 fun x mem => ?_
      refine @Multiset.eq_of_mem_replicate _ _ _ 5 ?_
      rw [← five]
      exact Multiset.mem_add.2 (.inl mem)
    have most := four t
    rw [only, Multiset.count_replicate_self] at most
    have all : s.card + w.card = 5 := by rw [← Multiset.card_add, five, Multiset.card_replicate]
    obtain ⟨b, two, of, run, few⟩ := exists_run kind
    have whole : s + (Multiset.replicate (w.card - 1) t + b) = Multiset.replicate 4 t + b := by
      rw [← add_assoc, only, ← Multiset.replicate_add]
      congr 2
      omega
    refine ⟨Multiset.replicate (w.card - 1) t + b, ?_, (of_replicate kind _).add of, ?_, .inl ?_⟩
    · rw [Multiset.card_add, Multiset.card_replicate, two]
      omega
    · rwa [whole]
    · rwa [whole]
  · have most : ∀ u, (s + w).count u ≤ 4 := by
      rcases known with most | ⟨v, five⟩
      · exact most
      · rw [five] at held full
        rw [Multiset.eq_of_mem_replicate held, Multiset.count_replicate_self] at full
        omega
    refine ⟨w + {t}, by simp, inside.add fun x mem => ?_, ?_, .inl fun u => ?_⟩
    · rw [Multiset.mem_singleton.1 mem]
      exact kind
    · have triplet : Multiset.replicate 3 t = Multiset.replicate 2 t + {t} := by
        rw [← Multiset.replicate_one, ← Multiset.replicate_add]
      rw [← add_assoc, split, add_right_comm, ← triplet]
      exact .block (hands.triplet t) melds
    · have four := most u
      rw [← add_assoc, Multiset.count_add, Multiset.count_singleton]
      split
      · rename_i same
        subst same
        omega
      · omega

/-! ### The suits of a hand -/

theorem KnownMelds.rest (h : KnownMelds i g s) : (s.card + g) % 3 = 0 := by
  obtain ⟨w, rfl, -, melds, -⟩ := h
  simpa using melds.card_mod

theorem KnownPaired.rest (h : KnownPaired i g s) : (s.card + g) % 3 = 2 := by
  obtain ⟨w, rfl, -, paired, -⟩ := h
  simpa using paired.card_mod

open Classical in
/-- What the tables say about a suit of the hand. -/
noncomputable def suit (counts : Counts) (i : Fin 3) : Suit :=
  let part := hands.part i (ordinaryTiles counts)
  let rest := part.card % 3
  ⟨(tilesMen counts (i.val + 1)).isEmpty, rest, decide (KnownMelds i ((3 - rest) % 3) part),
    decide (if rest = 0 then KnownMelds i 3 part else KnownPaired i (2 - rest) part),
    decide (if rest = 1 then False else KnownPaired i (if rest = 0 then 2 else 3) part)⟩

theorem suit_melds (few : g ≤ 3) : (suit counts i).melds g = true ↔
    KnownMelds i g (hands.part i (ordinaryTiles counts)) := by
  have mod := fun h : KnownMelds i g (hands.part i (ordinaryTiles counts)) => h.rest
  obtain rest | rest | rest : (hands.part i (ordinaryTiles counts)).card % 3 = 0 ∨
      (hands.part i (ordinaryTiles counts)).card % 3 = 1 ∨
      (hands.part i (ordinaryTiles counts)).card % 3 = 2 := by omega
  all_goals
    interval_cases g <;> simp only [Suit.melds, suit, rest, decide_eq_true_eq, if_true] <;>
      first
      | rfl
      | exact iff_of_false (by decide) fun h => by have := mod h; omega

theorem suit_paired (few : g ≤ 3) : (suit counts i).paired g = true ↔
    KnownPaired i g (hands.part i (ordinaryTiles counts)) := by
  have mod := fun h : KnownPaired i g (hands.part i (ordinaryTiles counts)) => h.rest
  obtain rest | rest | rest : (hands.part i (ordinaryTiles counts)).card % 3 = 0 ∨
      (hands.part i (ordinaryTiles counts)).card % 3 = 1 ∨
      (hands.part i (ordinaryTiles counts)).card % 3 = 2 := by omega
  all_goals
    interval_cases g <;> simp only [Suit.paired, suit, rest, decide_eq_true_eq, if_true] <;>
      first
      | rfl
      | exact iff_of_false (by decide) fun h => by have := mod h; omega

theorem Known.map {f : Nat → Nat} (inj : Set.InjOn f {x | x ∈ s}) (h : Known s) :
    Known (s.map f) := by
  rcases h with four | ⟨t, rfl⟩
  · refine .inl fun y => ?_
    by_cases mem : y ∈ s.map f
    · obtain ⟨x, held, rfl⟩ := Multiset.mem_map.1 mem
      rw [Multiset.count_map_eq_count f s inj x held]
      exact four x
    · rw [Multiset.count_eq_zero_of_notMem mem]
      exact Nat.zero_le 4
  · exact .inr ⟨f t, Multiset.map_replicate f 5 t⟩

/-- The tables do not tell the suits apart. -/
theorem known_value (own : hands.Of i s) :
    (KnownMelds 0 g (s.map (· % 10)) ↔ KnownMelds i g s) ∧
      (KnownPaired 0 g (s.map (· % 10)) ↔ KnownPaired i g s) := by
  have keep := fun b hb => map_value_block (i := i) (b := b) hb
  have back := fun b hb => map_shift_block (i := i) (b := b) hb
  have value : ∀ t, hands.Of i t → Set.InjOn (· % 10) {x | x ∈ t} := by
    intro t ht x hx y hy same
    have suit := (of_suit_iff.1 (ht x hx)).2
    have suit' := (of_suit_iff.1 (ht y hy)).2
    dsimp only at same
    omega
  have shift : ∀ t : Multiset Nat, Set.InjOn (10 * i.val + ·) {x | x ∈ t} := fun t x _ y _ same =>
    Nat.add_left_cancel same
  refine ⟨⟨fun h => ?_, fun h => ?_⟩, ⟨fun h => ?_, fun h => ?_⟩⟩
  · rw [← map_shift_value own]
    exact h.map shift_move (fun t ht both => ⟨both.1.map back ht, both.2.map (shift t)⟩) (of_value own)
  · exact h.map value_move (fun t ht both => ⟨both.1.map keep ht, both.2.map (value t ht)⟩) own
  · rw [← map_shift_value own]
    exact h.map shift_move (fun t ht both => ⟨both.1.map back ht, both.2.map (shift t)⟩) (of_value own)
  · exact h.map value_move (fun t ht both => ⟨both.1.map keep ht, both.2.map (value t ht)⟩) own

section Hand
variable (hand : Hand counts) (size : (counts2Tiles counts).length ≤ 14)
include hand

theorem Hand.count_part (i : Fin 3) (t : Nat) :
    (hands.part i (ordinaryTiles counts)).count t ≤ 4 := by
  refine (Multiset.count_le_of_le t (Multiset.filter_le _ _)).trans ?_
  have few := hand.few t
  rw [count_ordinaryTiles]
  split <;> omega

omit hand in
theorem card_parts (counts : Counts) : (hands.part 0 (ordinaryTiles counts)).card +
    (hands.part 1 (ordinaryTiles counts)).card + (hands.part 2 (ordinaryTiles counts)).card +
      wildcards counts = (counts2Tiles counts).length := by
  have total := congrArg Multiset.card (sum_part hands (ordinaryTiles counts))
  rw [Multiset.card_sum, Fin.sum_univ_three] at total
  rw [length_eq_card_add, total]

include size

omit hand in
theorem card_part_le (i : Fin 3) :
    (hands.part i (ordinaryTiles counts)).card + wildcards counts ≤ 14 := by
  have all := card_parts counts
  obtain rfl | rfl | rfl : i = 0 ∨ i = 1 ∨ i = 2 := by omega
  all_goals omega

theorem Hand.suit_mem (i : Fin 3) : suit counts i ∈ Suit.all := by
  have small := card_part_le size i
  refine Suit.mem_all ?_ (fun one => ?_) (fun zero melds => ?_) fun empty => ?_
  · exact Nat.le_of_lt_succ (Nat.mod_lt _ (by decide))
  · have one : (hands.part i (ordinaryTiles counts)).card % 3 = 1 := one
    simp [suit, one]
  · have zero : (hands.part i (ordinaryTiles counts)).card % 3 = 0 := zero
    have melds : KnownMelds i 0 (hands.part i (ordinaryTiles counts)) := by
      simpa [suit, zero] using melds
    refine ⟨?_, ?_⟩
    · simpa [suit, zero] using melds.triplet (by omega)
    · simpa [suit, zero] using melds.pair (by omega)
  · have none : hands.part i (ordinaryTiles counts) = 0 := by
      rw [← hand.tilesMen_eq i, List.isEmpty_iff.1 empty]
      rfl
    have melds : KnownMelds i 0 0 :=
      ⟨0, rfl, fun _ mem => absurd mem (Multiset.notMem_zero _), .nil, .inl (by simp)⟩
    simp [suit, none, melds]

omit size in
/-- A suit where the pair does not become a triplet is large. -/
theorem Hand.large_of_narrow (i : Fin 3) (narrow : (suit counts i).narrow = true) :
    7 ≤ (hands.part i (ordinaryTiles counts)).card := by
  have own := part_of (i := i) hand.ordinary
  have four := hand.count_part i
  by_contra small
  obtain rest | rest | rest : (hands.part i (ordinaryTiles counts)).card % 3 = 0 ∨
      (hands.part i (ordinaryTiles counts)).card % 3 = 1 ∨
      (hands.part i (ordinaryTiles counts)).card % 3 = 2 := by omega
  · simp [Suit.narrow, suit, rest] at narrow
  · simp [Suit.narrow, suit, rest] at narrow
    exact narrow.2 (narrow.1.triplet own four (by omega))
  · simp [Suit.narrow, suit, rest] at narrow
    exact narrow.2 (narrow.1.triplet own four (by omega))

theorem Hand.not_both_narrow (some : wildcards counts ≠ 0) {j k : Fin 3} (ne : j ≠ k) :
    ((suit counts j).narrow && (suit counts k).narrow) = false := by
  apply Bool.eq_false_iff.2
  intro both
  obtain ⟨first, second⟩ := Bool.and_eq_true_iff.1 both
  have large := hand.large_of_narrow j first
  have large' := hand.large_of_narrow k second
  have all := card_parts counts
  obtain rfl | rfl | rfl : j = 0 ∨ j = 1 ∨ j = 2 := by omega
  all_goals
    obtain rfl | rfl | rfl : k = 0 ∨ k = 1 ∨ k = 2 := by omega
    all_goals
      first
      | exact absurd rfl ne
      | omega

variable (tables : Tables data)
include tables

/-- The tables answer for a suit with the wildcards there are. -/
theorem Hand.upTo_eq (few : wildcards counts ≤ 3) (i : Fin 3)
    (some : tilesMen counts (i.val + 1) ≠ []) :
    upTo (wildcards counts) data (serialization (tilesMen counts (i.val + 1))) =
      upTo (wildcards counts) rows (suit counts i).row := by
  have own := part_of (i := i) hand.ordinary
  have small := card_part_le size i
  have place : ∀ g : Fin 5, g.val + 1 = tableIndex ((g.val + 1) % 5) := by decide
  have card : (ranks (valueCounts (tilesMen counts (i.val + 1)))).card =
      (hands.part i (ordinaryTiles counts)).card := by rw [hand.ranks_eq i, Multiset.card_map]
  have read : ∀ g : Fin 5, Fin.ofNat 5 (g.val + 1 - 1) = g := by decide
  rw [upTo, upTo]
  congr 1 <;> funext g <;> by_cases within : (g.val + 1) % 5 ≤ wildcards counts
  · have entry := tables.jiang _ (hand.vector i some) ((g.val + 1) % 5) (by omega) (by omega)
    rw [← place, hand.ranks_eq i, (known_value own).2, ← suit_paired (within.trans few)] at entry
    rw [decide_eq_true within, Bool.true_and, Bool.true_and, Bool.eq_iff_iff, serialization, entry, rows,
      if_pos rfl, read]
    rfl
  · rw [decide_eq_false within, Bool.false_and, Bool.false_and]
  · have entry := tables.men _ (hand.vector i some) ((g.val + 1) % 5) (by omega) (by omega)
    rw [← place, hand.ranks_eq i, (known_value own).1, ← suit_melds (within.trans few)] at entry
    rw [decide_eq_true within, Bool.true_and, Bool.true_and, Bool.eq_iff_iff, serialization, entry, rows,
      if_neg (by decide), read]
    rfl
  · rw [decide_eq_false within, Bool.false_and, Bool.false_and]

theorem Hand.men_upTo (few : wildcards counts ≤ 3) (i : Fin 3) :
    (menOf counts (i.val + 1)).upTo (wildcards counts) data =
      (suit counts i).men.upTo (wildcards counts) rows := by
  have card : (hands.part i (ordinaryTiles counts)).card =
      (tilesMen counts (i.val + 1)).length := by
    rw [← hand.tilesMen_eq i, Multiset.coe_card]
  have num : (tilesMen counts (i.val + 1)).length % 3 = (suit counts i).rest := by rw [← card]; rfl
  have empty : (suit counts i).empty = (tilesMen counts (i.val + 1)).isEmpty := rfl
  rw [menOf, Men.upTo, Men.upTo, Suit.men, num, empty]
  congr 1
  cases held : tilesMen counts (i.val + 1) with
  | nil => simp
  | cons t rest =>
      have some : tilesMen counts (i.val + 1) ≠ [] := by simp [held]
      have row := hand.upTo_eq size tables few i some
      rw [held] at row
      simp [row]

/-! ### The whole hand -/

omit hand size tables in
/-- The suits say how the wildcards can be distributed. -/
theorem distributes_iff (few : n ≤ 3) :
    (suit counts 0).distributes (suit counts 1) (suit counts 2) n = true ↔
      hands.WinsFitting Known n (ordinaryTiles counts) := by
  rw [winsFitting_iff_distribution, Suit.distributes]
  simp only [List.any_eq_true, Bool.and_eq_true, Bool.or_eq_true, List.mem_range]
  constructor
  · rintro ⟨j, hj, -, k, hk, -, taken⟩
    refine ⟨![j, k, n - j - k], ?_, ?_⟩
    · rw [Fin.sum_univ_three]
      change j + k + (n - j - k) = n
      omega
    · rcases taken with (⟨⟨first, second⟩, third⟩ | ⟨⟨first, second⟩, third⟩) |
        ⟨⟨first, second⟩, third⟩
      · rw [suit_paired (by omega)] at first
        rw [suit_melds (by omega)] at second third
        refine ⟨0, first, fun i other => ?_⟩
        obtain rfl | rfl : i = 1 ∨ i = 2 := by omega
        · exact second
        · exact third
      · rw [suit_paired (by omega)] at second
        rw [suit_melds (by omega)] at first third
        refine ⟨1, second, fun i other => ?_⟩
        obtain rfl | rfl : i = 0 ∨ i = 2 := by omega
        · exact first
        · exact third
      · rw [suit_paired (by omega)] at third
        rw [suit_melds (by omega)] at first second
        refine ⟨2, third, fun i other => ?_⟩
        obtain rfl | rfl : i = 0 ∨ i = 1 := by omega
        · exact first
        · exact second
  · rintro ⟨g, total, j, paired, melds⟩
    rw [Fin.sum_univ_three] at total
    have last : n - g 0 - g 1 = g 2 := by omega
    have small : ∀ i, g i ≤ 3 := by
      intro i
      obtain rfl | rfl | rfl : i = 0 ∨ i = 1 ∨ i = 2 := by omega
      all_goals omega
    have here := (suit_paired (small j)).2 paired
    have others : ∀ i, i ≠ j → (suit counts i).melds (g i) = true :=
      fun i other => (suit_melds (small i)).2 (melds i other)
    have each : ∀ i, (suit counts i).melds (g i) = true ∨ (suit counts i).paired (g i) = true := by
      intro i
      by_cases same : i = j
      · rw [same]
        exact .inr here
      · exact .inl (others i same)
    refine ⟨g 0, by omega, each 0, g 1, by omega, each 1, ?_⟩
    rw [last]
    obtain rfl | rfl | rfl : j = 0 ∨ j = 1 ∨ j = 2 := by omega
    · exact .inl (.inl ⟨⟨here, others 1 (by decide)⟩, others 2 (by decide)⟩)
    · exact .inl (.inr ⟨⟨others 0 (by decide), here⟩, others 2 (by decide)⟩)
    · exact .inr ⟨⟨others 0 (by decide), others 1 (by decide)⟩, here⟩

/-- With tables that hold no fifth tile `is_hu` decides whether a hand of up to 14 tiles with up
to three wildcards can be completed so. -/
theorem Hand.isHu_known_iff (few : wildcards counts ≤ 3) :
    isHu data counts = true ↔
      hands.WinsFitting Known (wildcards counts) (ordinaryTiles counts) := by
  have residue : (wildcards counts + (suit counts 0).rest + (suit counts 1).rest +
      (suit counts 2).rest) % 3 = 2 := by
    have all := card_parts counts
    have total := hand.total
    have rest : ∀ i, (suit counts i).rest = (hands.part i (ordinaryTiles counts)).card % 3 :=
      fun _ => rfl
    simp only [rest]
    omega
  have apart : wildcards counts = 0 ∨
      !((suit counts 0).narrow && (suit counts 1).narrow) &&
        !((suit counts 0).narrow && (suit counts 2).narrow) &&
        !((suit counts 1).narrow && (suit counts 2).narrow) := by
    refine or_iff_not_imp_left.2 fun some => ?_
    rw [hand.not_both_narrow size some (show (0 : Fin 3) ≠ 1 by decide),
      hand.not_both_narrow size some (show (0 : Fin 3) ≠ 2 by decide),
      hand.not_both_narrow size some (show (1 : Fin 3) ≠ 2 by decide)]
    rfl
  have agrees := Suit.agrees_all _ (List.mem_range.2 (Nat.lt_succ_of_le few)) _ (hand.suit_mem size 0) _
    (hand.suit_mem size 1) _ (hand.suit_mem size 2) residue apart
  have split : isHu data counts =
      isHuMen rows [(suit counts 0).men, (suit counts 1).men, (suit counts 2).men]
        (wildcards counts) := by
    rw [← (isHuMen_upTo _ few : _ = isHuMen rows _ _), isHu, hand.length_wildcards,
      ← (isHuMen_upTo _ few : _ = isHuMen data _ _)]
    have men := hand.men_upTo size tables few
    simp only [List.map_cons, List.map_nil, ← men]
    rfl
  rw [split, agrees, distributes_iff few]

end Hand

/-! ### The tables as they stand -/

open Classical in
noncomputable def knownData : MaajanData String := fun k g key =>
  decide (∃ (i : Fin 3) (tbl : Counts), i.val = 0 ∧ CountVector tbl ∧ concat tbl = key ∧
    (ranks tbl).card + (if g = 5 then 0 else g) ≤ 14 ∧
    if k = 1 then KnownPaired i (if g = 5 then 0 else g) (ranks tbl)
    else KnownMelds i (if g = 5 then 0 else g) (ranks tbl))

theorem knownData_tables : Tables knownData := by
  have index : ∀ g ≤ 4, (if tableIndex g = 5 then 0 else tableIndex g) = g := by decide
  have entry : ∀ k tbl, CountVector tbl → ∀ g ≤ 4, (ranks tbl).card + g ≤ 14 →
      (knownData k (tableIndex g) (concat tbl) = true ↔
        if k = 1 then KnownPaired 0 g (ranks tbl) else KnownMelds 0 g (ranks tbl)) := by
    intro k tbl vector g few small
    simp only [knownData, decide_eq_true_eq, index g few]
    constructor
    · rintro ⟨i, tbl', first, vector', same, -, completes⟩
      obtain rfl : i = 0 := Fin.ext first
      rwa [← concat_injective vector' vector same]
    · exact fun completes => ⟨0, tbl, rfl, vector, rfl, small, completes⟩
  refine ⟨entry 1, entry 2, ?_⟩
  rintro k g key listed c mem
  simp only [knownData, decide_eq_true_eq] at listed
  obtain ⟨_, tbl, -, vector, rfl, _⟩ := listed
  rw [concat, String.toList_join, List.flatMap_map, List.mem_flatMap] at mem
  obtain ⟨d, _, digit⟩ := mem
  have few := vector.few d
  rw [toString_digit few, List.mem_singleton] at digit
  have small : ∀ n ≤ 4, Nat.digitChar n ≤ '4' := by decide
  exact digit ▸ small _ (by omega)

end FkServer.MaajanZigong
