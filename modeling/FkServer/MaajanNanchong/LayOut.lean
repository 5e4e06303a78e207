import FkServer.MaajanNanchong.Rule
import FkServer.MaajanXuezhan.Decompositions

/-!
`cards_can_bai` judges the cards laid out and the rest of the hand apart from each other.
When the cards are in the hand, what it names fits together: after each of the discards
each of the tiles waited for wins.
-/
namespace FkServer.MaajanNanchong.Rule

open BlockCover
open MaajanXuezhan (Pai SuitTile tileValue tileMen)
open MaajanXuezhan.Rule

variable {counts : Counts} {t d : Nat} {cards : List Nat} {pai : Pai}

/-! ### The two searches -/

/-- The pairs a search has taken between the two marks. -/
def pairsTaken (before after : Bool) : Nat := if before = after then 0 else 1

/-- What a search has taken out, and the tiles it was left with. -/
structure Leaves (counts rest : Counts) (before after : Bool) : Prop where
  kept : before = true → after = true
  taken : ∃ melds, tilesOf counts = melds + tilesOf rest ∧
    Complete (pairsTaken before after) melds ∧ melds.card % 3 = 2 * pairsTaken before after

theorem Leaves.block {counts' rest : Counts} {before after : Bool} {b : Multiset Nat}
    (leaves : Leaves counts' rest before after) (meld : Meld b)
    (split : tilesOf counts = b + tilesOf counts') : Leaves counts rest before after := by
  obtain ⟨melds, tiles, complete, size⟩ := leaves.taken
  refine ⟨leaves.kept, b + melds, ?_, .block meld complete, ?_⟩
  · rw [split, tiles, add_assoc]
  · have three := card_of_meld meld
    rw [Multiset.card_add]
    omega

theorem Leaves.pair {counts' rest : Counts} {after : Bool} {b : Multiset Nat}
    (leaves : Leaves counts' rest true after) (pair : Pair b)
    (split : tilesOf counts = b + tilesOf counts') : Leaves counts rest false after := by
  obtain ⟨melds, tiles, complete, size⟩ := leaves.taken
  obtain rfl : after = true := leaves.kept rfl
  refine ⟨nofun, b + melds, ?_, .special pair complete, ?_⟩
  · rw [split, tiles, add_assoc]
  · have two := card_of_pair pair
    simp only [pairsTaken] at size ⊢
    rw [Multiset.card_add]
    simp at size ⊢
    omega

theorem banBlocks_leaves {feed : List Nat → Bool → Option (List Nat)} {fuel : Nat} {jiang : Bool}
    (h : t ∈ banBlocks feed fuel counts jiang) :
    ∃ rest after found, Leaves counts rest jiang after ∧
      feed (counts2Tiles rest) after = some found ∧ t ∈ found := by
  induction fuel generalizing counts jiang with
  | zero => cases h
  | succ fuel ih =>
      unfold banBlocks at h
      dsimp only at h
      split at h
      · rename_i found fed
        refine ⟨counts, jiang, found, ⟨id, 0, ?_, .nil, ?_⟩, fed, h⟩
        · exact (zero_add _).symm
        · simp [pairsTaken]
      · simp only [List.mem_append, List.mem_flatMap] at h
        rcases h with (⟨z, hz, h⟩ | ⟨z, hz, h⟩) | ⟨z, hz, h⟩
        all_goals
          split at h
          swap
          · cases h
          rename_i held
        · have inside := (mem_tilesOf.1 (show z ∈ tilesOf counts from hz)).1
          obtain ⟨rest, after, found, leaves, fed⟩ := ih h
          exact ⟨rest, after, found, leaves.block (.inl ⟨z, rfl⟩) (tilesOf_decr 3 inside held), fed⟩
        · obtain ⟨rfl, held⟩ := held
          have inside := (mem_tilesOf.1 (show z ∈ tilesOf counts from hz)).1
          obtain ⟨rest, after, found, leaves, fed⟩ := ih h
          exact ⟨rest, after, found, leaves.pair ⟨z, rfl⟩ (tilesOf_decr 2 inside held), fed⟩
        · obtain ⟨held₀, value, _, men, held₁, held₂⟩ := held
          have inside : 1 ≤ z ∧ z + 2 ≤ 50 := by
            rw [List.mem_range'_1] at hz
            simp only [tileMen] at men
            omega
          obtain ⟨rest, after, found, leaves, fed⟩ := ih h
          exact ⟨rest, after, found, leaves.block (.inr ⟨z, ⟨value, men⟩, rfl⟩)
            (tilesOf_run inside ⟨held₀, held₁, held₂⟩), fed⟩

theorem banPairs_leaves {fuel : Nat} (h : t ∈ banPairs fuel counts) :
    ∃ pairs : Multiset Nat, tilesOf counts = pairs + pairs + {t} := by
  induction fuel generalizing counts with
  | zero => cases h
  | succ fuel ih =>
      unfold banPairs at h
      dsimp only at h
      split at h
      · rename_i one
        obtain ⟨z, list⟩ := List.length_eq_one_iff.1 one
        rw [list, List.mem_singleton] at h
        subst h
        exact ⟨0, by rw [tilesOf, list]; rfl⟩
      · obtain ⟨z, hz, h⟩ := List.mem_flatMap.1 h
        split at h
        · rename_i held
          have inside := (mem_tilesOf.1 (show z ∈ tilesOf counts from hz)).1
          obtain ⟨pairs, rest⟩ := ih h
          refine ⟨{z} + pairs, ?_⟩
          have split : tilesOf counts = ({z} + {z}) + tilesOf (decr counts z 2) :=
            tilesOf_decr 2 inside held
          rw [split, rest]
          ac_rfl
        · cases h

/-! ### What they name together -/

theorem laidCounts_apply (cards : List Nat) (v : Nat) : laidCounts cards v = cards.count v := by
  have from_table : ∀ (cards : List Nat) (counts : Counts),
      cards.foldl (fun counts tile => incr counts tile 1) counts v = counts v + cards.count v := by
    intro cards
    induction cards with
    | nil => simp
    | cons card cards ih =>
        intro counts
        rw [List.foldl_cons, ih, incr_apply, List.count_cons]
        by_cases here : v = card
        · subst here
          simp
          omega
        · simp [here, Ne.symm here]
  rw [laidCounts, from_table]
  omega

theorem restCounts_apply (pai : Pai) (cards : List Nat) (v : Nat) :
    restCounts pai cards v = pai.shouPai v - cards.count v := by
  have from_table : ∀ (cards : List Nat) (counts : Counts),
      cards.foldl (fun counts tile => decr counts tile 1) counts v = counts v - cards.count v := by
    intro cards
    induction cards with
    | nil => simp
    | cons card cards ih =>
        intro counts
        rw [List.foldl_cons, ih, decr_apply, List.count_cons]
        by_cases here : v = card
        · subst here
          simp
          omega
        · simp [here, Ne.symm here]
  exact from_table cards pai.shouPai

/-- Cards of the hand, with the tiles of the hand besides them. -/
structure LaidFrom (pai : Pai) (cards : List Nat) : Prop extends Discarding pai where
  held : ∀ v, (cards.count v : Int) ≤ pai.shouPai v

theorem tilesOf_laidCounts (inside : ∀ v ∈ cards, 1 ≤ v ∧ v ≤ 50) :
    tilesOf (laidCounts cards) = cards := by
  ext v
  rw [count_tilesOf, laidCounts_apply, Multiset.coe_count]
  split
  · omega
  · rename_i outside
    exact (List.count_eq_zero_of_not_mem fun listed => outside (inside v listed)).symm

theorem LaidFrom.tiles (laid : LaidFrom pai cards) :
    tilesOf (laidCounts cards) = cards ∧
      tilesOf pai.shouPai = tilesOf (laidCounts cards) + tilesOf (restCounts pai cards) := by
  have inside : ∀ v, v ∈ cards → 1 ≤ v ∧ v ≤ 50 := by
    intro v listed
    have copies := List.count_pos_iff.2 listed
    have held := laid.held v
    have suit := laid.hand.suited v (by omega)
    have := suit.range
    omega
  have cards_tiles := tilesOf_laidCounts inside
  refine ⟨cards_tiles, ?_⟩
  rw [cards_tiles]
  apply tilesOf_eq_add
  · exact inside
  · intro v _
    have held := laid.held v
    rw [restCounts_apply, Multiset.coe_count]
    omega

/-- The hand without a discard falls apart together with a tile waited for. -/
structure Fits (pai : Pai) (cards : List Nat) (d t : Nat) : Prop where
  spare : d ∈ tilesOf (restCounts pai cards)
  suit : SuitTile t
  wins : ∃ left, tilesOf pai.shouPai = {d} + left ∧
    (Complete 1 (t ::ₘ left) ∨
      (totalCount pai.shouPai = 14 ∧ ∃ pairs : Multiset Nat, t ::ₘ left = pairs + pairs))

/-- In a hand near seven pairs there are 14 tiles. -/
theorem quanTingQiDui_total (laid : LaidFrom pai cards) (near : quanTingQiDui pai.shouPai = true) :
    totalCount pai.shouPai = 14 := by
  have total := laid.hand.total
  have size := laid.size
  unfold quanTingQiDui at near
  simp only [Bool.decide_or, Bool.or_eq_true, decide_eq_true_eq] at near
  omega

theorem fits_of_pairs (laid : LaidFrom pai cards) (near : quanTingQiDui pai.shouPai = true)
    {fuel fuel' : Nat} (discards : d ∈ banPairs fuel (restCounts pai cards))
    (waits : t ∈ banPairs fuel' (laidCounts cards)) : Fits pai cards d t := by
  obtain ⟨cards_tiles, tiles⟩ := laid.tiles
  obtain ⟨rest, rest_tiles⟩ := banPairs_leaves discards
  obtain ⟨pairs, laid_tiles⟩ := banPairs_leaves waits
  have spare : d ∈ tilesOf (restCounts pai cards) := by simp [rest_tiles]
  have listed : t ∈ tilesOf pai.shouPai := by simp [tiles, laid_tiles]
  refine ⟨spare, laid.hand.suitTiles t listed, rest + rest + (pairs + pairs + {t}), ?_, .inr ?_⟩
  · rw [tiles, laid_tiles, rest_tiles]
    ac_rfl
  · refine ⟨quanTingQiDui_total laid near, rest + pairs + {t}, ?_⟩
    rw [← Multiset.singleton_add]
    ac_rfl

/-- The sizes leave exactly one pair for the two parts together. -/
theorem fits_of_blocks (laid : LaidFrom pai cards) {fuel fuel' : Nat}
    (discards : d ∈ banBlocks banHuFeed fuel (restCounts pai cards) false)
    (waits : t ∈ banBlocks banTingFeed fuel' (laidCounts cards) false) : Fits pai cards d t := by
  obtain ⟨cards_tiles, tiles⟩ := laid.tiles
  have card := card_tilesOf laid.hand
  have two := laid.two
  obtain ⟨one, after, found, ⟨_, melds, rest_tiles, complete, size⟩, fed, listed⟩ :=
    banBlocks_leaves discards
  obtain ⟨few, after', found', ⟨_, melds', laid_tiles, complete', size'⟩, fed', listed'⟩ :=
    banBlocks_leaves waits
  -- the rest of the hand ends in the discard
  have one_tile : tilesOf one = {d} := by
    unfold banHuFeed at fed
    split at fed
    · rename_i length
      obtain ⟨z, list⟩ := List.length_eq_one_iff.1 length
      cases fed
      rw [list, List.mem_singleton] at listed
      rw [listed, tilesOf, list]
      rfl
    · cases fed
  have spare : d ∈ tilesOf (restCounts pai cards) := by simp [rest_tiles, one_tile]
  have sum : tilesOf pai.shouPai = {d} + (melds' + tilesOf few + melds) := by
    rw [tiles, laid_tiles, rest_tiles, one_tile]
    ac_rfl
  have suits : ∀ z ∈ tilesOf few, SuitTile z := by
    intro z mem
    apply laid.hand.suitTiles z
    rw [sum]
    simp [mem]
  rw [sum] at card
  simp only [Multiset.card_add, Multiset.card_singleton] at card
  unfold banTingFeed at fed'
  split at fed'
  · rename_i base
    obtain ⟨length, rfl⟩ := base
    obtain ⟨z, list⟩ := List.length_eq_one_iff.1 length
    have few_tiles : tilesOf few = {z} := by
      rw [tilesOf, list]
      rfl
    cases fed'
    rw [list, feedHuTile, List.mem_singleton] at listed'
    subst listed'
    rw [few_tiles] at card suits sum
    simp only [pairsTaken, if_true] at complete' size'
    cases after with
    | true =>
        simp [pairsTaken] at size card
        omega
    | false =>
        simp only [pairsTaken, if_true] at complete
        have pair : t ::ₘ (melds' + {t} + melds) = Multiset.replicate 2 t + (melds' + melds) := by
          rw [← Multiset.singleton_add, show Multiset.replicate 2 t = {t} + {t} from rfl]
          ac_rfl
        refine ⟨spare, suits t (Multiset.mem_singleton_self t), _, sum, .inl ?_⟩
        rw [pair]
        exact .special ⟨t, rfl⟩ (complete'.add complete)
  · split at fed'
    · rename_i length
      obtain ⟨x, y, list⟩ := List.length_eq_two.1 length
      have few_tiles : tilesOf few = {x, y} := by
        rw [tilesOf, list]
        rfl
      cases fed'
      rw [few_tiles] at card suits sum
      rw [list, mem_feedHuTile_pair (suits x (by simp)) (suits y (by simp))] at listed'
      obtain ⟨suit, meld⟩ := listed'
      have whole : t ::ₘ (melds' + {x, y} + melds) = {t, x, y} + (melds' + melds) := by
        rw [← Multiset.singleton_add, show ({t, x, y} : Multiset Nat) = {t} + {x, y} from rfl]
        ac_rfl
      have one_pair : pairsTaken false after' + pairsTaken false after = 1 := by
        rw [Multiset.card_pair] at card
        cases after <;> cases after' <;> simp [pairsTaken] at size size' ⊢ <;> omega
      refine ⟨spare, suit, _, sum, .inl ?_⟩
      rw [whole, ← one_pair]
      exact .block meld (complete'.add complete)
    · cases fed'

theorem cardsCanBai_fits (laid : LaidFrom pai cards) (discards : d ∈ (cardsCanBai pai cards).1)
    (waits : t ∈ (cardsCanBai pai cards).2) : Fits pai cards d t := by
  unfold cardsCanBai banHu banTing at discards waits
  dsimp only at discards waits
  rw [List.mem_dedup] at discards waits
  cases near : quanTingQiDui pai.shouPai with
  | true =>
      rw [near] at discards waits
      exact fits_of_pairs laid near discards waits
  | false =>
      rw [near] at discards waits
      exact fits_of_blocks laid discards waits

/-- The hand after the discard `d` and the draw `t`. -/
theorem tilesOf_drawn {left : Multiset Nat} (discarding : Discarding pai) (suit : SuitTile t)
    (split : tilesOf pai.shouPai = {d} + left) :
    tilesOf (incr (without pai d).shouPai t 1) = t ::ₘ left := by
  have listed : d ∈ tilesOf pai.shouPai := by simp [split]
  obtain ⟨inside, held⟩ := mem_tilesOf.1 listed
  have waiting := discarding.without held
  have taken : tilesOf pai.shouPai = {d} + tilesOf (decr pai.shouPai d 1) :=
    tilesOf_decr 1 inside (by omega)
  rw [taken] at split
  have rest : tilesOf (without pai d).shouPai = left := Multiset.add_right_inj.1 split
  rw [tilesOf_incr suit (waiting.hand.copies t).1, rest]

/-- A hand that is pairs after a discard and a draw passes the pairs test. -/
theorem dui_drawn {n : Nat} {pairs : Multiset Nat} (discarding : Discarding pai)
    (listed : d ∈ tilesOf pai.shouPai) (suit : SuitTile t) (size : totalCount pai.shouPai = 2 * n)
    (double : tilesOf (incr (without pai d).shouPai t 1) = pairs + pairs) :
    duiZiCount (incr (without pai d).shouPai t 1) = n ∧
      totalCount (incr (without pai d).shouPai t 1) = 2 * n := by
  have waiting := discarding.without (mem_tilesOf.1 listed).2
  have copies : ∀ z, 0 ≤ incr (without pai d).shouPai t 1 z ∧
      incr (without pai d).shouPai t 1 z ≤ 4 := by
    intro z
    have old := waiting.hand.copies z
    have even := congrArg (Multiset.count z) double
    rw [count_tilesOf, Multiset.count_add] at even
    rw [incr_apply] at even ⊢
    have range := suit.range
    split
    · rename_i same
      subst same
      rw [if_pos (by omega), if_pos rfl] at even
      omega
    · omega
  have suited : ∀ z, incr (without pai d).shouPai t 1 z ≠ 0 → SuitTile z := by
    intro z some_held
    rw [incr_apply] at some_held
    split at some_held
    · rename_i same
      exact same ▸ suit
    · exact waiting.hand.suited z (by simpa using some_held)
  have whole : Hand (incr (without pai d).shouPai t 1) := ⟨suited, copies⟩
  have total : totalCount (incr (without pai d).shouPai t 1) = 2 * n := by
    rw [totalCount_incr _ suit.mem_range]
    show totalCount (decr pai.shouPai d 1) + 1 = 2 * n
    rw [totalCount_decr _ (discarding.hand.suitTiles d listed).mem_range, size]
    omega
  have many : pairs.card = n := by
    have card := card_tilesOf whole
    rw [double, Multiset.card_add, total] at card
    omega
  exact (dui_iff whole n).2 ⟨pairs, many, double⟩

/-- After the discard the tile waited for wins, and `ting_tiles` names it. -/
theorem Fits.wins_without (fits : Fits pai cards d t) (laid : LaidFrom pai cards) (siDui : Bool) :
    isHu (without pai d) (some t) siDui = true ∧ t ∈ tingTiles (without pai d) siDui := by
  obtain ⟨cards_tiles, tiles⟩ := laid.tiles
  have listed : d ∈ tilesOf pai.shouPai := by
    rw [tiles]
    exact Multiset.mem_add.2 (.inr fits.spare)
  obtain ⟨inside, held⟩ := mem_tilesOf.1 listed
  have waiting := laid.toDiscarding.without held
  obtain ⟨left, split, falls⟩ := fits.wins
  have drawn := tilesOf_drawn laid.toDiscarding fits.suit split
  rw [← drawn] at falls
  cases falls with
  | inl complete =>
      have search : isHuState ((counts2Tiles (incr (without pai d).shouPai t 1)).length + 1)
          (incr (without pai d).shouPai t 1) false = true :=
        (isHuState_iff (Nat.lt_succ_self _)).2 complete
      have named := (mem_tingState_iff waiting.hand t waiting.one).2 ⟨fits.suit, search⟩
      refine ⟨?_, ?_⟩
      · simp only [isHu, cache, search, Bool.true_or]
      · simp only [tingTiles, cache, List.mem_append]
        exact .inl (.inl named)
  | inr seven =>
      obtain ⟨fourteen, pairs, double⟩ := seven
      have dui := @dui_drawn t d pai 7 pairs laid.toDiscarding listed fits.suit fourteen double
      have size := laid.size
      have qi : isQiDui (without pai d) (incr (without pai d).shouPai t 1) = true := by
        simp only [isQiDui, isDui, decide_eq_true_eq]
        exact ⟨dui.1, dui.2, show pai.mingPai.length = 0 by omega⟩
      have named := (tingQiDui_iff waiting.hand t waiting.size).2 ⟨fits.suit, qi⟩
      refine ⟨?_, ?_⟩
      · simp only [isHu, cache, qi, Bool.or_true, Bool.true_or]
      · simp only [tingTiles, cache, List.mem_append, Option.mem_toList]
        exact .inl (.inr named)

/-- The discard is none of the cards laid out. -/
theorem Fits.held_without (fits : Fits pai cards d t) (laid : LaidFrom pai cards) (v : Nat) :
    (cards.count v : Int) ≤ (without pai d).shouPai v := by
  have held := laid.held v
  have spare := (mem_tilesOf.1 fits.spare).2
  rw [restCounts_apply] at spare
  simp only [without, decr_apply]
  split
  · rename_i same
    subst same
    omega
  · omega

end FkServer.MaajanNanchong.Rule
