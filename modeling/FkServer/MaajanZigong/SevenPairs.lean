import FkServer.MaajanZigong.Hands

/-!
Seven pairs with wildcards: what `is_qi_dui` accepts and what `ting_qi_dui` waits for. Both
count the odd tiles, which a wildcard each completes. Which tiles are held four times already
is looked at by neither `ting_qi_dui` nor the other searches for ready tiles.
-/
namespace FkServer.MaajanZigong

namespace Rule

/-- `count_tiles[c]` -/
def tilesHeld (counts : Counts) (c : Int) : List Nat :=
  (List.range' 1 37).filter fun tile => tile ≠ tyValue ∧ counts tile = c

/-- The tiles `for i = 11, 29` without 20. -/
def listedTiles : List Nat := (List.range' 11 19).filter (· ≠ 20)

def tingQiDui (counts : Counts) (laiZi : Bool) : List Nat :=
  if totalCount counts ≠ 13 then
    []
  else
    let wildcard := if laiZi then [tyValue] else []
    let tyNum := counts tyValue
    let ones := tilesHeld counts 1 ++ tilesHeld counts 3
    let twoCount := countTiles counts 2 + countTiles counts 3 + 2 * countTiles counts 4
    let forNum := min tyNum ones.length
    let oneCount := ones.length - forNum
    let needCount : Int := 7 - twoCount - forNum
    (if tyNum - forNum = 0 ∧ needCount = oneCount ∧ needCount = 1 then ones ++ wildcard else []) ++
      if oneCount = 0 ∧ tyNum - forNum + 1 = needCount * 2 then listedTiles ++ wildcard else []

end Rule

open Rule

/-! ### Hands and sums over them -/

/-- The tiles of the two suits, or of all three. -/
def SuitTile (threeSuits : Bool) (t : Nat) : Prop :=
  t ∈ listedTiles ∨ threeSuits = true ∧ 1 ≤ t ∧ t ≤ 9

/-- The tiles of a game: wildcards if it has them. -/
def GameTile (threeSuits laiZi : Bool) (t : Nat) : Prop :=
  SuitTile threeSuits t ∨ laiZi = true ∧ t = tyValue

/-- A concealed hand; the decks of three suits have no wildcards. -/
structure QiDuiHand where
  counts : Counts
  threeSuits : Bool
  laiZi : Bool
  tiles : ∀ t, counts t ≠ 0 → GameTile threeSuits laiZi t
  low : ∀ t, 0 ≤ counts t
  few : ∀ t, t ≠ tyValue → counts t ≤ 4
  noWildcards : threeSuits = true → counts tyValue = 0

/-- A sum over the suit tiles. -/
def overSuits (counts : Counts) (f : Int → Int) : Int :=
  ((List.range' 1 36).map fun t => f (counts t)).sum

/-- The tiles held an odd number of times. -/
def oddCount (counts : Counts) : Int := overSuits counts (· % 2)

/-- A hand with at most four of each suit tile and nothing besides them and wildcards. -/
structure FourEach (counts : Counts) : Prop where
  inside : ∀ t, 37 < t → counts t = 0
  low : ∀ t, 0 ≤ counts t
  few : ∀ t, t ≠ tyValue → counts t ≤ 4

variable {counts : Counts} {t : Nat} {hand : QiDuiHand}

theorem mem_listedTiles : t ∈ listedTiles ↔ 11 ≤ t ∧ t ≤ 29 ∧ t ≠ 20 := by
  rw [listedTiles, List.mem_filter, List.mem_range'_1, decide_eq_true_eq]
  omega

theorem GameTile.range {threeSuits laiZi : Bool} (tile : GameTile threeSuits laiZi t) :
    1 ≤ t ∧ (t ≤ 29 ∨ t = tyValue) := by
  rcases tile with (listed | ⟨_, low, high⟩) | ⟨_, rfl⟩
  · have bounds := mem_listedTiles.1 listed
    omega
  · omega
  · exact ⟨by decide, .inr rfl⟩

theorem QiDuiHand.fourEach (hand : QiDuiHand) : FourEach hand.counts where
  inside t far := by
    by_contra held
    have range := (hand.tiles t held).range
    simp only [tyValue] at range
    omega
  low := hand.low
  few := hand.few

theorem countTiles_eq (counts : Counts) (c : Int) :
    (countTiles counts c : Int) = overSuits counts fun n => if n = c then 1 else 0 := by
  have suits : List.range' 1 37 = List.range' 1 36 ++ [tyValue] := by decide
  have none : ([tyValue].countP fun t => t ≠ tyValue ∧ counts t = c) = 0 := by simp
  have other : ∀ t ∈ List.range' 1 36, t ≠ tyValue := by decide
  rw [countTiles, suits, List.countP_append, none, Nat.add_zero, overSuits]
  generalize List.range' 1 36 = tiles at other ⊢
  induction tiles with
  | nil => rfl
  | cons first rest ih =>
      obtain ⟨here, later⟩ := List.forall_mem_cons.1 other
      rw [List.countP_cons, List.map_cons, List.sum_cons, Nat.cast_add, ih later]
      by_cases same : counts first = c
      · simp [here, same, add_comm]
      · simp [same]

theorem overSuits_add (f g : Int → Int) :
    overSuits counts f + overSuits counts g = overSuits counts fun n => f n + g n := by
  rw [overSuits, overSuits, overSuits, List.sum_map_add]

theorem FourEach.overSuits_congr (held : FourEach counts) {f g : Int → Int}
    (same : ∀ n, 0 ≤ n → n ≤ 4 → f n = g n) : overSuits counts f = overSuits counts g := by
  refine congrArg List.sum (List.map_congr_left fun t range => same _ (held.low t) (held.few t ?_))
  rintro rfl
  exact absurd range (by decide)

theorem FourEach.oneCount (held : FourEach counts) :
    (countTiles counts 1 : Int) + countTiles counts 3 = oddCount counts := by
  rw [countTiles_eq, countTiles_eq, overSuits_add]
  refine held.overSuits_congr fun n low high => ?_
  interval_cases n <;> rfl

theorem FourEach.twoCount (held : FourEach counts) :
    (countTiles counts 2 : Int) + countTiles counts 3 + 2 * countTiles counts 4 =
      overSuits counts (· / 2) := by
  rw [two_mul, ← add_assoc, countTiles_eq, countTiles_eq, countTiles_eq, overSuits_add, overSuits_add,
    overSuits_add]
  refine held.overSuits_congr fun n low high => ?_
  interval_cases n <;> rfl

/-- Pairs, odd tiles and wildcards are the whole hand. -/
theorem FourEach.total (held : FourEach counts) :
    totalCount counts = 2 * overSuits counts (· / 2) + oddCount counts + counts tyValue := by
  have parts : List.range' 1 50 = List.range' 1 36 ++ tyValue :: List.range' 38 13 := by decide
  have rest : ((List.range' 38 13).map counts).sum = 0 := by
    refine List.sum_eq_zero fun n member => ?_
    obtain ⟨t, range, rfl⟩ := List.mem_map.1 member
    exact held.inside t (by rw [List.mem_range'_1] at range; omega)
  have suits : ((List.range' 1 36).map counts).sum = overSuits counts (fun n => n / 2 + n / 2 + n % 2) :=
    congrArg List.sum (List.map_congr_left fun t _ => by dsimp only; omega)
  rw [totalCount, parts, List.map_append, List.sum_append, List.map_cons, List.sum_cons, rest, suits,
    ← overSuits_add, ← overSuits_add, oddCount]
  omega

/-- The wildcards complete the odd tiles, and the rest of them are pairs. -/
theorem FourEach.isQiDui_iff (held : FourEach counts) :
    isQiDui counts = true ↔ totalCount counts = 14 ∧ oddCount counts ≤ counts tyValue := by
  have total := held.total
  have one := held.oneCount
  have two := held.twoCount
  rw [isQiDui, isDui, Bool.and_eq_true, Bool.or_eq_true, decide_eq_true_eq, decide_eq_true_eq,
    decide_eq_true_eq]
  push_cast
  have low := held.low tyValue
  omega

theorem oddCount_nonneg (counts : Counts) : 0 ≤ oddCount counts := by
  refine List.sum_nonneg fun n member => ?_
  obtain ⟨t, _, rfl⟩ := List.mem_map.1 member
  exact Int.emod_nonneg _ (by decide)

/-! ### Ready tiles -/

/-- One more suit tile makes an odd count even and an even one odd. -/
theorem oddCount_incr (suit : t ∈ List.range' 1 36) (odd : counts t % 2 = 1) :
    oddCount (incr counts t 1) = oddCount counts - 1 := by
  have sum := sum_map_incr (· % 2) counts (List.range' 1 36) List.nodup_range' t 1
  rw [if_pos suit] at sum
  rw [oddCount, overSuits, sum, oddCount, overSuits]
  omega

theorem oddCount_incr_even (suit : t ∈ List.range' 1 36) (even : counts t % 2 = 0) :
    oddCount (incr counts t 1) = oddCount counts + 1 := by
  have sum := sum_map_incr (· % 2) counts (List.range' 1 36) List.nodup_range' t 1
  rw [if_pos suit] at sum
  rw [oddCount, overSuits, sum, oddCount, overSuits]
  omega

theorem oddCount_incr_wildcard : oddCount (incr counts tyValue 1) = oddCount counts := by
  have sum := sum_map_incr (· % 2) counts (List.range' 1 36) List.nodup_range' tyValue 1
  rw [if_neg (by decide), add_zero] at sum
  exact sum

theorem QiDuiHand.mem_odd (hand : QiDuiHand) :
    t ∈ tilesHeld hand.counts 1 ++ tilesHeld hand.counts 3 ↔
      t ≠ tyValue ∧ hand.counts t % 2 = 1 := by
  have low := hand.low t
  have range : hand.counts t ≠ 0 → t ∈ List.range' 1 37 := fun some => by
    have inside := (hand.tiles t some).range
    rw [List.mem_range'_1]
    simp only [tyValue] at inside
    omega
  rw [List.mem_append, tilesHeld, tilesHeld, List.mem_filter, List.mem_filter, decide_eq_true_eq,
    decide_eq_true_eq]
  constructor
  · rintro (⟨_, suit, one⟩ | ⟨_, suit, three⟩)
    · exact ⟨suit, by omega⟩
    · exact ⟨suit, by omega⟩
  · rintro ⟨suit, odd⟩
    have few := hand.few t suit
    have member := range (by omega)
    by_cases one : hand.counts t = 1
    · exact .inl ⟨member, suit, one⟩
    · exact .inr ⟨member, suit, by omega⟩

theorem length_odd (held : FourEach counts) :
    ((tilesHeld counts 1 ++ tilesHeld counts 3).length : Int) = oddCount counts := by
  rw [List.length_append, Nat.cast_add, ← held.oneCount, countTiles, countTiles, tilesHeld, tilesHeld,
    List.countP_eq_length_filter, List.countP_eq_length_filter]

/-- With one wildcard too few the odd tiles are waited for, with one left over all tiles are. -/
theorem QiDuiHand.mem_tingQiDui (hand : QiDuiHand) (thirteen : totalCount hand.counts = 13) :
    t ∈ tingQiDui hand.counts hand.laiZi ↔
      oddCount hand.counts = hand.counts tyValue + 1 ∧ (t ≠ tyValue ∧ hand.counts t % 2 = 1 ∨
        hand.laiZi = true ∧ t = tyValue) ∨
      oddCount hand.counts < hand.counts tyValue ∧
        (t ∈ listedTiles ∨ hand.laiZi = true ∧ t = tyValue) := by
  have held := hand.fourEach
  have total := held.total
  have two := held.twoCount
  have ones := length_odd held
  have low := held.low tyValue
  have wildcard : t ∈ (if hand.laiZi then [tyValue] else []) ↔ hand.laiZi = true ∧ t = tyValue := by
    cases hand.laiZi <;> simp
  rw [tingQiDui, if_neg (not_not.2 thirteen)]
  dsimp only
  rw [ones, List.mem_append, List.mem_ite_nil_right, List.mem_ite_nil_right, List.mem_append,
    hand.mem_odd, @List.mem_append _ t listedTiles, wildcard]
  push_cast
  refine or_congr (and_congr_left fun _ => ?_) (and_congr_left fun _ => ?_)
  · omega
  · omega

/-- What a tile more makes of the hand. -/
theorem QiDuiHand.isQiDui_incr (hand : QiDuiHand) (thirteen : totalCount hand.counts = 13)
    (tile : GameTile hand.threeSuits hand.laiZi t) (room : t = tyValue ∨ hand.counts t ≠ 4) :
    isQiDui (incr hand.counts t 1) = true ↔
      oddCount (incr hand.counts t 1) ≤ incr hand.counts t 1 tyValue := by
  have range := tile.range
  have held : FourEach (incr hand.counts t 1) := by
    refine ⟨fun x far => ?_, fun x => ?_, fun x suit => ?_⟩
    · have empty := hand.fourEach.inside x far
      have other : x ≠ t := by
        rintro rfl
        simp only [tyValue] at range
        omega
      rw [incr_apply, if_neg other, empty, add_zero]
    · have low := hand.low x
      rw [incr_apply]
      split <;> omega
    · have few := hand.few x suit
      rw [incr_apply]
      by_cases same : x = t
      · rw [if_pos same]
        rw [same] at suit few ⊢
        have free := room.resolve_left suit
        omega
      · rw [if_neg same, add_zero]
        exact few
  have inside : t ∈ List.range' 1 50 := by
    rw [List.mem_range'_1]
    simp only [tyValue] at range
    omega
  rw [held.isQiDui_iff, totalCount_incr _ inside, thirteen]
  exact and_iff_right rfl

/-- Unless it is a suit tile held four times already, a tile of the game is listed just when it
makes the hand seven pairs; one held four times is listed with the others if a wildcard is left. -/
theorem QiDuiHand.listed_iff (hand : QiDuiHand) (thirteen : totalCount hand.counts = 13) :
    t ∈ tingQiDui hand.counts hand.laiZi ↔ GameTile hand.threeSuits hand.laiZi t ∧
      if t ≠ tyValue ∧ hand.counts t = 4 then oddCount hand.counts < hand.counts tyValue
      else isQiDui (incr hand.counts t 1) = true := by
  have total := hand.fourEach.total
  have low := hand.low tyValue
  rw [hand.mem_tingQiDui thirteen]
  by_cases tile : GameTile hand.threeSuits hand.laiZi t
  · rw [and_iff_right tile]
    have range := tile.range
    by_cases wildcard : t = tyValue
    · have laiZi : hand.laiZi = true := by
        rcases tile with (listed | ⟨_, _, high⟩) | ⟨laiZi, _⟩
        · rw [wildcard] at listed
          exact absurd listed (by decide)
        · rw [wildcard] at high
          exact absurd high (by decide)
        · exact laiZi
      rw [if_neg (fun h => h.1 wildcard), hand.isQiDui_incr thirteen tile (.inl wildcard), wildcard,
        oddCount_incr_wildcard, incr_apply, if_pos rfl]
      simp only [laiZi, and_self, or_true, and_true]
      omega
    · have suit : t ∈ List.range' 1 36 := by
        rw [List.mem_range'_1]
        omega
      have same : incr hand.counts t 1 tyValue = hand.counts tyValue := by
        rw [incr_apply, if_neg (Ne.symm wildcard), add_zero]
      -- with a wildcard left over there are only two suits
      have listed : oddCount hand.counts < hand.counts tyValue → t ∈ listedTiles := fun more => by
        rcases tile with (listed | ⟨three, _⟩) | ⟨_, ty⟩
        · exact listed
        · have none := hand.noWildcards three
          have nonneg := oddCount_nonneg hand.counts
          omega
        · exact absurd ty wildcard
      have waits : (oddCount hand.counts < hand.counts tyValue ∧
          (t ∈ listedTiles ∨ hand.laiZi = true ∧ t = tyValue)) ↔
            oddCount hand.counts < hand.counts tyValue :=
        and_iff_left_of_imp fun more => .inl (listed more)
      rw [waits]
      simp only [wildcard, ne_eq, not_false_eq_true, true_and, and_false, or_false]
      by_cases four : hand.counts t = 4
      · rw [if_pos four]
        omega
      · rw [if_neg four, hand.isQiDui_incr thirteen tile (.inr four), same]
        by_cases odd : hand.counts t % 2 = 1
        · rw [oddCount_incr suit odd]
          omega
        · rw [oddCount_incr_even suit (by omega)]
          omega
  · refine iff_of_false (fun found => tile ?_) fun found => tile found.1
    rcases found with ⟨_, ⟨_, odd⟩ | laiZi⟩ | ⟨_, listed | laiZi⟩
    · exact hand.tiles t (by omega)
    · exact .inr laiZi
    · exact .inl (.inl listed)
    · exact .inr laiZi

/-! ### Wildcards as tiles -/

/-- Seven pairs, of which two may be the same. -/
def SevenPairs (tiles : Multiset Nat) : Prop :=
  ∃ pairs : Multiset Nat, pairs.card = 7 ∧ tiles = pairs + pairs

/-- Suit tiles for the wildcards make the hand seven pairs. -/
def QiDuiHand.MakesSevenPairs (hand : QiDuiHand) : Prop :=
  ∃ instead : Multiset Nat, instead.card = wildcards hand.counts ∧
    (∀ t ∈ instead, SuitTile hand.threeSuits t) ∧ SevenPairs (ordinaryTiles hand.counts + instead)

/-- The suit tiles, each as often as `f` makes of its count. -/
def suitPart (counts : Counts) (f : Int → Int) : Counts :=
  fun t => if t = tyValue then 0 else f (counts t)

/-- The suit tiles held an odd number of times, each once. -/
def oddTiles (counts : Counts) : Multiset Nat := counts2Tiles (suitPart counts (· % 2))

/-- The suit tiles the hand has pairs of. -/
def halves (counts : Counts) : Multiset Nat := counts2Tiles (suitPart counts (· / 2))

theorem count_suitPart (f : Int → Int) (t : Nat) :
    (counts2Tiles (suitPart counts f)).count t =
      if 1 ≤ t ∧ t ≤ 50 ∧ t ≠ tyValue then (f (counts t)).toNat else 0 := by
  rw [count_counts2Tiles, suitPart]
  by_cases wildcard : t = tyValue
  · simp [wildcard]
  · simp [wildcard]

theorem length_counts2Tiles (low : ∀ t, 0 ≤ counts t) :
    ((counts2Tiles counts).length : Int) = totalCount counts := by
  rw [counts2Tiles, totalCount]
  induction List.range' 1 50 with
  | nil => rfl
  | cons t rest ih =>
      rw [List.flatMap_cons, List.length_append, List.length_replicate, List.map_cons, List.sum_cons,
        Nat.cast_add, ih, Int.toNat_of_nonneg (low t)]

theorem FourEach.card_suitPart (held : FourEach counts) {f : Int → Int} (zero : f 0 = 0)
    (low : ∀ n, 0 ≤ n → 0 ≤ f n) :
    ((counts2Tiles (suitPart counts f)).length : Int) = overSuits counts f := by
  have nonneg : ∀ t, 0 ≤ suitPart counts f t := fun t => by
    rw [suitPart]
    split
    · exact le_rfl
    · exact low _ (held.low t)
  have parts : List.range' 1 50 = List.range' 1 36 ++ tyValue :: List.range' 38 13 := by decide
  have rest : ((List.range' 38 13).map (suitPart counts f)).sum = 0 := by
    refine List.sum_eq_zero fun n member => ?_
    obtain ⟨t, range, rfl⟩ := List.mem_map.1 member
    rw [suitPart, held.inside t (by rw [List.mem_range'_1] at range; omega), zero, ite_self]
  have suits : ((List.range' 1 36).map (suitPart counts f)).sum = overSuits counts f := by
    refine congrArg List.sum (List.map_congr_left fun t range => if_neg ?_)
    rintro rfl
    exact absurd range (by decide)
  rw [length_counts2Tiles nonneg, totalCount, parts, List.map_append, List.sum_append, List.map_cons,
    List.sum_cons, rest, suits]
  simp [suitPart]

/-- The hand without its wildcards: pairs and odd tiles. -/
theorem FourEach.ordinaryTiles_eq (held : FourEach counts) :
    ordinaryTiles counts = halves counts + halves counts + oddTiles counts := by
  ext t
  have low := held.low t
  rw [Multiset.count_add, Multiset.count_add, count_ordinaryTiles, halves, oddTiles, Multiset.coe_count,
    Multiset.coe_count, count_suitPart, count_suitPart]
  split <;> omega

theorem QiDuiHand.suit_of_odd (hand : QiDuiHand) (odd : t ∈ oddTiles hand.counts) :
    SuitTile hand.threeSuits t := by
  obtain ⟨_, some⟩ := mem_counts2Tiles.1 (Multiset.mem_coe.1 odd)
  rw [suitPart] at some
  by_cases wildcard : t = tyValue
  · rw [if_pos wildcard] at some
    exact absurd some (by decide)
  · rw [if_neg wildcard] at some
    exact (hand.tiles t (by omega)).resolve_right fun h => wildcard h.2

/-- `is_qi_dui` accepts just the hands of 14 tiles that suit tiles for the wildcards make
seven pairs. -/
theorem QiDuiHand.isQiDui_iff (hand : QiDuiHand) (fourteen : totalCount hand.counts = 14) :
    isQiDui hand.counts = true ↔ hand.MakesSevenPairs := by
  have held := hand.fourEach
  have total := held.total
  have low := hand.low tyValue
  have pairs : ((halves hand.counts).card : Int) = overSuits hand.counts (· / 2) :=
    held.card_suitPart rfl fun n low => Int.ediv_nonneg low (by decide)
  have odd : ((oddTiles hand.counts).card : Int) = oddCount hand.counts :=
    held.card_suitPart rfl fun n _ => Int.emod_nonneg n (by decide)
  have size : (wildcards hand.counts : Int) = hand.counts tyValue := Int.toNat_of_nonneg low
  rw [held.isQiDui_iff, and_iff_right fourteen, MakesSevenPairs, held.ordinaryTiles_eq]
  constructor
  · intro enough
    -- each odd tile once more, and pairs of one tile for the wildcards that are left
    obtain ⟨k, left⟩ : ∃ k : Nat, hand.counts tyValue - oddCount hand.counts = 2 * k :=
      ⟨((hand.counts tyValue - oddCount hand.counts) / 2).toNat, by omega⟩
    refine ⟨oddTiles hand.counts + (Multiset.replicate k 11 + Multiset.replicate k 11), ?_, ?_,
      halves hand.counts + oddTiles hand.counts + Multiset.replicate k 11, ?_, by abel⟩
    · rw [Multiset.card_add, Multiset.card_add, Multiset.card_replicate]
      omega
    · intro t member
      cases Multiset.mem_add.1 member with
      | inl odd => exact hand.suit_of_odd odd
      | inr more =>
          have eleven : t = 11 := (Multiset.mem_add.1 more).elim Multiset.eq_of_mem_replicate
            Multiset.eq_of_mem_replicate
          exact .inl (eleven ▸ by decide)
    · rw [Multiset.card_add, Multiset.card_add, Multiset.card_replicate]
      omega
  · rintro ⟨instead, card, _, whole, _, double⟩
    have covered : oddTiles hand.counts ≤ instead := by
      refine Multiset.le_iff_count.2 fun t => ?_
      have same := congrArg (Multiset.count t) double
      rw [Multiset.count_add, Multiset.count_add, Multiset.count_add, Multiset.count_add] at same
      have one : (oddTiles hand.counts).count t ≤ 1 := by
        rw [oddTiles, Multiset.coe_count, count_suitPart]
        split <;> omega
      omega
    have enough := Multiset.card_le_card covered
    omega

/-- Which tiles a hand of 13 waits for, and which hands of 14 are accepted. -/
theorem seven_pairs_judged (hand : QiDuiHand) :
    (totalCount hand.counts = 13 → ∀ t, t ∈ tingQiDui hand.counts hand.laiZi ↔
      GameTile hand.threeSuits hand.laiZi t ∧
        if t ≠ tyValue ∧ hand.counts t = 4 then oddCount hand.counts < hand.counts tyValue
        else isQiDui (incr hand.counts t 1) = true) ∧
    (totalCount hand.counts = 14 → (isQiDui hand.counts = true ↔ hand.MakesSevenPairs)) :=
  ⟨fun thirteen _ => hand.listed_iff thirteen, hand.isQiDui_iff⟩

/-- Four tiles 11, four pairs and a wildcard. -/
def fourElevens : Counts :=
  fun t => ([11, 11, 11, 11, 12, 12, 13, 13, 14, 14, 15, 15, 37].count t : Nat)

def fourElevensHand : QiDuiHand where
  counts := fourElevens
  threeSuits := false
  laiZi := true
  tiles t h := by
    have member : t ∈ [11, 11, 11, 11, 12, 12, 13, 13, 14, 14, 15, 15, 37] :=
      List.count_pos_iff.1 (Nat.pos_of_ne_zero (Int.natCast_ne_zero.1 h))
    have kinds : ∀ t ∈ [11, 11, 11, 11, 12, 12, 13, 13, 14, 14, 15, 15, 37],
        t ∈ listedTiles ∨ t = 37 := by decide
    exact (kinds t member).imp .inl fun wildcard => ⟨rfl, wildcard⟩
  low t := Int.natCast_nonneg _
  few t _ := by
    have counted : ∀ t ∈ [11, 11, 11, 11, 12, 12, 13, 13, 14, 14, 15, 15, 37],
        [11, 11, 11, 11, 12, 12, 13, 13, 14, 14, 15, 15, 37].count t ≤ 4 := by decide
    rw [fourElevens]
    by_cases member : t ∈ [11, 11, 11, 11, 12, 12, 13, 13, 14, 14, 15, 15, 37]
    · have few := counted t member
      omega
    · rw [List.count_eq_zero_of_not_mem member]
      decide
  noWildcards := nofun

/-- A fifth tile 11 is waited for. -/
theorem fifth_tile_listed : ¬ ∀ hand : QiDuiHand, totalCount hand.counts = 13 → ∀ t,
    t ∈ tingQiDui hand.counts hand.laiZi ↔ GameTile hand.threeSuits hand.laiZi t ∧
      hand.counts t < 4 ∧ isQiDui (incr hand.counts t 1) = true := by
  intro exactly
  have listed : 11 ∈ tingQiDui fourElevens true := by decide
  have four := ((exactly fourElevensHand (by decide) 11).1 listed).2.1
  exact absurd four (by decide)

end FkServer.MaajanZigong
