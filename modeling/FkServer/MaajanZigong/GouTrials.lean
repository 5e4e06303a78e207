import FkServer.MaajanZigong.GouCount

/-!
When a trial of `gou_count_tiyong` wins: the tiles it puts in can be part of what the
wildcards stand for. A trial that makes five of a tile never wins, since no key of the
tables has a digit above four.
-/
namespace FkServer.MaajanZigong

open WildcardCover WildcardCover.Deck

variable {data : MaajanData String} {counts : Counts} {κ : Type}

/-! ### Five of a tile -/

theorem foldlM_dead {σ : Type} {take : σ → κ → Option σ} {keys : List κ} {key : κ}
    (mem : key ∈ keys) (dead : ∀ used, take used key = none) (used : σ) :
    keys.foldlM take used = none := by
  induction keys generalizing used with
  | nil => cases mem
  | cons first rest ih =>
      rw [List.foldlM_cons]
      rcases List.mem_cons.1 mem with rfl | later
      · rw [dead]
        rfl
      · exact Option.bind_eq_none_iff.2 fun used' _ => ih later used'

theorem pass_dead {mens : List (Men κ)} {men : Men κ} {key : κ} {take : Nat → κ → Option Used}
    (mem : men ∈ mens) (ser : men.ser = some key) (dead : ∀ v, take v key = none) :
    pass mens take = none := by
  refine foldlM_dead mem (fun used => ?_) _
  simp [ser, dead]

theorem isHuMen_dead {data : MaajanData κ} {mens : List (Men κ)} {men : Men κ} {key : κ}
    (mem : men ∈ mens) (ser : men.ser = some key) (dead : ∀ k g, data k g key = false) (n : Nat) :
    isHuMen data mens n = false := by
  have stops : ∀ take : Nat → κ → Option Used, (∀ v, take v key = none) → pass mens take = none :=
    fun take none => pass_dead mem ser none
  have rejects : ∀ n, allUsed n none = false ∧ enough n none = false := fun _ => ⟨rfl, rfl⟩
  unfold isHuMen
  split
  all_goals
    simp (disch := simp [dead]) [isHuNone, isHuOne, isHuTwo, isHuThree, isHuFour, stops, rejects]

theorem mem_tilesMen {men t : Nat} :
    t ∈ tilesMen counts men ↔ (1 ≤ t ∧ t ≤ 50) ∧ 0 < counts t ∧ curTileMen t = men := by
  rw [tilesMen, List.mem_filter, mem_counts2Tiles, decide_eq_true_eq, and_assoc]

theorem isHu_of_five {t : Nat} (tables : Tables data) (tiles : ∀ z, counts z ≠ 0 → Ordinary z ∨ z = tyValue)
    (ordinary : Ordinary t) (five : counts t = 5) : isHu data counts = false := by
  have kind := ordinary
  unfold Ordinary at kind
  have other : t ≠ tyValue := by
    unfold tyValue
    omega
  have men : curTileMen t = t / 10 + 1 := if_neg other
  have held : t ∈ tilesMen counts (t / 10 + 1) := mem_tilesMen.2 ⟨by omega, by omega, men⟩
  -- the digit of the tile in the key of its suit
  have digit : valueCounts (tilesMen counts (t / 10 + 1)) (t % 10) = 5 := by
    have only : ((tilesMen counts (t / 10 + 1)).map valueOf).count (t % 10) =
        (counts2Tiles counts).count t := by
      rw [List.count, List.countP_map, tilesMen, List.countP_filter, List.count]
      apply List.countP_congr
      intro z mem
      simp only [Function.comp_apply, Bool.and_eq_true, beq_iff_eq, decide_eq_true_eq]
      constructor
      · rintro ⟨value, suit⟩
        rcases tiles z (ne_of_gt (mem_counts2Tiles.1 mem).2) with own | rfl
        · rw [valueOf_eq own] at value
          have wild : z ≠ tyValue := by
            rintro rfl
            exact absurd own.2 (by decide)
          rw [curTileMen, if_neg wild] at suit
          omega
        · rw [curTileMen, if_pos rfl] at suit
          omega
      · rintro rfl
        exact ⟨valueOf_eq ordinary, men⟩
    rw [valueCounts_apply, only, count_counts2Tiles, if_pos (by omega), five]
    rfl
  have key : '5' ∈ (serialization (tilesMen counts (t / 10 + 1))).toList := by
    rw [serialization, concat, String.toList_join, List.flatMap_map, List.mem_flatMap]
    refine ⟨t % 10, List.mem_range'_1.2 (by omega), ?_⟩
    rw [digit]
    decide
  have dead : ∀ k g, data k g (serialization (tilesMen counts (t / 10 + 1))) = false := by
    intro k g
    apply Bool.eq_false_iff.2
    intro found
    exact absurd (tables.four k g _ found '5' key) (by decide)
  have suit : menOf counts (t / 10 + 1) ∈ (List.range' 1 3).map (menOf counts) :=
    List.mem_map.2 ⟨t / 10 + 1, List.mem_range'_1.2 (by omega), rfl⟩
  have ser : (menOf counts (t / 10 + 1)).ser =
      some (serialization (tilesMen counts (t / 10 + 1))) := by
    rw [menOf]
    exact if_pos (List.length_pos_of_mem held)
  exact isHuMen_dead suit ser dead _

/-! ### A trial that can win -/

namespace Rule
variable {cache : Counts} {wild : Nat} {trial : Trial}

theorem ordinary_ne {t : Nat} (ordinary : Ordinary t) : t ≠ tyValue := by
  rintro rfl
  exact absurd ordinary.2 (by decide)

/-- The hand of a trial. -/
theorem tried_apply {t : Nat} (ordinary : ∀ t ∈ bag trial, Ordinary t) :
    filled (incr (curcounts cache) tyValue wild) (bag trial) t =
      if t = tyValue then (wild : Int) else cache t + (bag trial).count t := by
  rw [filled, incr_apply, curcounts]
  split
  · rename_i same
    have none : (bag trial).count t = 0 :=
      Multiset.count_eq_zero_of_notMem fun mem => ordinary_ne (ordinary t mem) same
    rw [none]
    omega
  · omega

theorem ordinaryTiles_tried (hand : Hand cache) (ordinary : ∀ t ∈ bag trial, Ordinary t) :
    ordinaryTiles (filled (incr (curcounts cache) tyValue wild) (bag trial)) =
      ordinaryTiles cache + bag trial := by
  ext t
  rw [Multiset.count_add, count_ordinaryTiles, count_ordinaryTiles, tried_apply ordinary]
  have low := (hand.few t).1
  split
  · rename_i inside
    rw [if_neg inside.2.2]
    omega
  · rename_i outside
    rw [Multiset.count_eq_zero_of_notMem]
    intro mem
    have kind := ordinary t mem
    unfold Ordinary at kind
    exact outside ⟨by omega, by omega, ordinary_ne (ordinary t mem)⟩

theorem wins_iff (tables : Tables data) (hand : Hand cache)
    (most : (counts2Tiles cache).length ≤ 14) (few : wildcards cache ≤ 3)
    (size : wild + (bag trial).card = wildcards cache) (ordinary : ∀ t ∈ bag trial, Ordinary t)
    (four : ∀ t, cache t + (bag trial).count t ≤ 4 ∨ t = tyValue) :
    wins data (curcounts cache) wild trial = true ↔ ∃ a, Assigned cache a ∧ bag trial ≤ a := by
  have tiles := @ordinaryTiles_tried cache wild trial hand ordinary
  have left : wildcards (filled (incr (curcounts cache) tyValue wild) (bag trial)) = wild := by
    rw [wildcards, tried_apply ordinary, if_pos rfl, Int.toNat_natCast]
  have whole : Hand (filled (incr (curcounts cache) tyValue wild) (bag trial)) := by
    refine ⟨fun t held => ?_, fun t => ?_, ?_⟩
    · rw [tried_apply ordinary] at held
      split at held
      · rename_i same
        exact .inr same
      · by_cases mem : t ∈ bag trial
        · exact .inl (ordinary t mem)
        · rw [Multiset.count_eq_zero_of_notMem mem] at held
          exact hand.tiles t (by simpa using held)
    · have low := (hand.few t).1
      have most := four t
      rw [tried_apply ordinary]
      split
      · omega
      · omega
    · have total := hand.total
      rw [length_eq_card_add, tiles, left, Multiset.card_add]
      rw [length_eq_card_add] at total
      omega
  have length : (counts2Tiles (filled (incr (curcounts cache) tyValue wild) (bag trial))).length ≤ 14 := by
    rw [length_eq_card_add] at most ⊢
    rw [tiles, left, Multiset.card_add]
    omega
  rw [wins, whole.isHu_known_iff length tables (by omega), left, tiles]
  constructor
  · rintro ⟨rest, card, own, paired, known⟩
    refine ⟨bag trial + rest, ⟨?_, ?_, by rwa [← add_assoc], by rwa [← add_assoc]⟩,
      Multiset.le_add_right _ _⟩
    · rw [Multiset.card_add]
      omega
    · intro t mem
      rcases Multiset.mem_add.1 mem with here | there
      · exact ordinary t here
      · exact own t there
  · rintro ⟨a, assigned, inside⟩
    obtain ⟨rest, rfl⟩ := Multiset.le_iff_exists_add.1 inside
    have card := assigned.card
    rw [Multiset.card_add] at card
    refine ⟨rest, by omega, fun t mem => assigned.ordinary t (Multiset.mem_add.2 (.inr mem)), ?_⟩
    rw [add_assoc]
    exact ⟨assigned.wins, assigned.known⟩

theorem not_wins_of_five (tables : Tables data) (hand : Hand cache)
    (ordinary : ∀ t ∈ bag trial, Ordinary t) {t : Nat} (own : Ordinary t)
    (five : cache t + (bag trial).count t = 5) : wins data (curcounts cache) wild trial = false := by
  apply isHu_of_five tables ?_ own
  · rw [tried_apply ordinary, if_neg (ordinary_ne own), five]
  · intro z held
    rw [tried_apply ordinary] at held
    split at held
    · rename_i same
      exact .inr same
    · by_cases mem : z ∈ bag trial
      · exact .inl (ordinary z mem)
      · rw [Multiset.count_eq_zero_of_notMem mem] at held
        exact hand.tiles z (by simpa using held)

end Rule
end FkServer.MaajanZigong
