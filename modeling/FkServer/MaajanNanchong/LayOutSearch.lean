import FkServer.MaajanNanchong.LayOut

/-!
The two searches of `cards_can_bai`, each exact for its own part of the hand: `ban_hu`
names the discards that leave whole blocks, `ban_ting` the tiles that make whole blocks,
where the blocks are melds and one pair, or pairs alone.
-/
namespace FkServer.MaajanNanchong.Rule

open BlockCover
open MaajanXuezhan (SuitTile)
open MaajanXuezhan.Rule

variable {counts rest : Counts} {t d fuel : Nat} {near : Bool} {b : Multiset Nat}

/-! ### Each search is exact -/

/-- The tiles of a table tell what the searches read of it. -/
theorem counts2Tiles_congr {counts' : Counts} (same : tilesOf counts = tilesOf counts') :
    counts2Tiles counts = counts2Tiles counts' := by
  have copies : ∀ v ∈ List.range' 1 50,
      List.replicate (counts v).toNat v = List.replicate (counts' v).toNat v := by
    intro v inside
    have count := congrArg (Multiset.count v) same
    rw [List.mem_range'_1] at inside
    rw [count_tilesOf, count_tilesOf, if_pos (by omega), if_pos (by omega)] at count
    rw [count]
  rw [counts2Tiles, counts2Tiles, List.flatMap_def, List.flatMap_def, List.map_congr_left copies]

theorem exists_tilesOf (inside : ∀ z ∈ b, SuitTile z) : ∃ counts, tilesOf counts = b := by
  refine ⟨fun z => b.count z, ?_⟩
  ext z
  rw [count_tilesOf, Int.toNat_natCast]
  split
  · rfl
  · rename_i outside
    symm
    apply Multiset.count_eq_zero_of_notMem
    intro mem
    have := (inside z mem).range
    omega

/-- Melds are three tiles each, so the size tells whether there is a pair. -/
theorem complete_exact {s : Multiset Nat} {k : Nat} (complete : Complete k s) (one : k ≤ 1) :
    ∃ after, pairsTaken false after ≤ k ∧ Complete (pairsTaken false after) s ∧
      s.card % 3 = 2 * pairsTaken false after := by
  induction complete with
  | nil => exact ⟨false, Nat.zero_le _, .nil, rfl⟩
  | @block k b s meld _ ih =>
      obtain ⟨after, most, whole, size⟩ := ih one
      have three := card_of_meld meld
      refine ⟨after, most, .block meld whole, ?_⟩
      rw [Multiset.card_add]
      omega
  | @special k b s pair _ ih =>
      obtain rfl : k = 0 := by omega
      obtain ⟨after, most, whole, size⟩ := ih (Nat.zero_le 1)
      obtain none : pairsTaken false after = 0 := Nat.le_zero.1 most
      rw [none] at whole size
      have two := card_of_pair pair
      refine ⟨true, Nat.le_refl 1, .special pair whole, ?_⟩
      rw [Multiset.card_add]
      simp only [pairsTaken]
      simp
      omega

/-- A search ends only where nothing can be taken on the way to where it has to end. -/
def Patient (feed : List Nat → Bool → Option (List Nat)) : Prop :=
  ∀ {counts rest : Counts} {before after : Bool} {found : List Nat},
    Leaves counts rest before after → feed (counts2Tiles rest) after = some found →
      (tilesOf rest).card < (tilesOf counts).card → feed (counts2Tiles counts) before = none

/-- What can be left is met: every order of blocks is tried. -/
theorem leaves_banBlocks {feed : List Nat → Bool → Option (List Nat)} (patient : Patient feed)
    {jiang after : Bool} {found : List Nat} (suited : ∀ z ∈ tilesOf counts, SuitTile z)
    (enough : (tilesOf counts).card < fuel) (leaves : Leaves counts rest jiang after)
    (fed : feed (counts2Tiles rest) after = some found) (listed : t ∈ found) :
    t ∈ banBlocks feed fuel counts jiang := by
  induction fuel generalizing counts jiang with
  | zero => omega
  | succ fuel ih =>
      have waits := patient leaves fed
      have within : ∀ {b : Multiset Nat} {counts' : Counts}, tilesOf counts = b + tilesOf counts' →
          ∀ z ∈ tilesOf counts', SuitTile z := by
        intro b counts' split z mem
        apply suited
        rw [split]
        exact Multiset.mem_add.2 (.inr mem)
      obtain ⟨kept, melds, split, complete, size⟩ := leaves
      generalize count : pairsTaken jiang after = pairs at complete size
      unfold banBlocks
      dsimp only
      cases complete with
      | nil =>
          -- nothing is taken any more
          have same : jiang = after := by
            by_contra other
            rw [pairsTaken, if_neg other] at count
            subst count
            simp at size
          rw [zero_add] at split
          rw [counts2Tiles_congr split, same, fed]
          exact listed
      | @block _ b s meld complete =>
          have three := card_of_meld meld
          have card := congrArg Multiset.card split
          rw [Multiset.card_add, Multiset.card_add, three] at card
          rw [Multiset.card_add, three] at size
          rw [add_assoc] at split
          rw [waits (by omega)]
          have go : ∀ {counts' : Counts}, tilesOf counts = b + tilesOf counts' →
              t ∈ banBlocks feed fuel counts' jiang := by
            intro counts' taken
            have same : tilesOf counts' = s + tilesOf rest :=
              Multiset.add_right_inj.1 (taken.symm.trans split)
            apply ih (within taken)
            · rw [same, Multiset.card_add]
              omega
            · exact ⟨kept, s, same, count ▸ complete, by omega⟩
          simp only [List.mem_append, List.mem_flatMap]
          rcases meld with ⟨z, rfl⟩ | ⟨z, ⟨value, men⟩, rfl⟩
          · obtain ⟨inside, held, _⟩ := take_same (by omega) split
            refine .inl (.inl ⟨z, mem_tilesOf.2 ⟨inside, by omega⟩, ?_⟩)
            rw [if_pos (show 3 ≤ counts z from held)]
            exact go (tilesOf_decr 3 inside held)
          · obtain ⟨inside, held, _⟩ := take_run split
            have suit := suited z (mem_tilesOf.2 ⟨by omega, held.1⟩)
            refine .inr ⟨z, List.mem_range'_1.2 (by omega), ?_⟩
            rw [if_pos ⟨held.1, value, suit.1, men, held.2⟩]
            exact go (tilesOf_run inside held)
      | @special k b s pair complete =>
          have two := card_of_pair pair
          have card := congrArg Multiset.card split
          rw [Multiset.card_add, Multiset.card_add, two] at card
          rw [Multiset.card_add, two] at size
          rw [add_assoc] at split
          rw [waits (by omega)]
          obtain ⟨rfl, rfl⟩ : jiang = false ∧ after = true := by
            cases jiang with
            | false =>
                cases after with
                | false => cases count
                | true => exact ⟨rfl, rfl⟩
            | true =>
                rw [kept rfl] at count
                cases count
          obtain rfl : k = 0 := (Nat.succ.inj count).symm
          simp only [List.mem_append, List.mem_flatMap]
          obtain ⟨z, rfl⟩ := pair
          obtain ⟨inside, held, _⟩ := take_same (by omega) split
          have taken : tilesOf counts = Multiset.replicate 2 z + tilesOf (decr counts z 2) :=
            tilesOf_decr 2 inside held
          have same : tilesOf (decr counts z 2) = s + tilesOf rest :=
            Multiset.add_right_inj.1 (taken.symm.trans split)
          refine .inl (.inr ⟨z, mem_tilesOf.2 ⟨inside, by omega⟩, ?_⟩)
          rw [if_pos (show True ∧ 2 ≤ counts z from ⟨trivial, held⟩)]
          apply ih (within taken)
          · rw [same, Multiset.card_add]
            omega
          · refine ⟨id, s, same, complete, ?_⟩
            rw [pairsTaken, if_pos rfl]
            omega

theorem banPairs_iff (enough : (tilesOf counts).card < fuel) :
    t ∈ banPairs fuel counts ↔ ∃ pairs : Multiset Nat, tilesOf counts = pairs + pairs + {t} := by
  refine ⟨banPairs_leaves, ?_⟩
  rintro ⟨pairs, split⟩
  induction fuel generalizing counts pairs with
  | zero => omega
  | succ fuel ih =>
      have card := congrArg Multiset.card split
      rw [Multiset.card_add, Multiset.card_add, Multiset.card_singleton] at card
      have length : (counts2Tiles counts).length = (tilesOf counts).card := rfl
      unfold banPairs
      dsimp only
      rcases Multiset.empty_or_exists_mem pairs with rfl | ⟨z, mem⟩
      · rw [zero_add, zero_add] at split
        rw [if_pos (by simpa [split] using length)]
        exact show t ∈ tilesOf counts from split ▸ Multiset.mem_singleton_self t
      · obtain ⟨others, rfl⟩ := Multiset.exists_cons_of_mem mem
        rw [Multiset.card_cons] at card
        have first : tilesOf counts = Multiset.replicate 2 z + (others + others + {t}) := by
          rw [split, ← Multiset.singleton_add, show Multiset.replicate 2 z = {z} + {z} from rfl]
          ac_rfl
        obtain ⟨inside, held, same⟩ := take_same (by omega) first
        rw [if_neg (by omega)]
        refine List.mem_flatMap.2 ⟨z, mem_tilesOf.2 ⟨inside, by omega⟩, ?_⟩
        rw [if_pos (show 2 ≤ counts z from held)]
        apply ih
        · have fewer := card_tilesOf_decr 2 (by omega) inside held
          exact Nat.lt_of_lt_of_le fewer (Nat.le_of_lt_succ enough)
        · exact same.symm

theorem banHuFeed_patient : Patient banHuFeed := by
  intro counts rest before after found leaves fed more
  have length (counts : Counts) : (counts2Tiles counts).length = (tilesOf counts).card := rfl
  unfold banHuFeed at fed ⊢
  split at fed
  · rename_i one
    rw [length] at one
    rw [if_neg]
    rw [length]
    omega
  · cases fed

theorem banTingFeed_patient : Patient banTingFeed := by
  intro counts rest before after found leaves fed more
  have length (counts : Counts) : (counts2Tiles counts).length = (tilesOf counts).card := rfl
  obtain ⟨kept, melds, split, complete, size⟩ := leaves
  have card := congrArg Multiset.card split
  rw [Multiset.card_add] at card
  -- melds are taken three tiles at a time, and one pair on the way
  have room : ¬ (tilesOf counts).card = 1 ∧ ¬ (tilesOf counts).card = 2 := by
    unfold banTingFeed at fed
    split at fed
    · rename_i one
      obtain ⟨one, rfl⟩ := one
      rw [length] at one
      cases before with
      | true => cases kept rfl
      | false =>
          rw [pairsTaken, if_pos rfl] at size
          omega
    · split at fed
      · rename_i two
        rw [length] at two
        omega
      · cases fed
  unfold banTingFeed
  rw [length, if_neg fun h => room.1 h.1, if_neg room.2]

/-! ### What each part wants -/

/-- The discard `d` leaves whole blocks of the tiles that are not laid out. -/
def Spares (near : Bool) (tiles : Multiset Nat) (d : Nat) : Prop :=
  ∃ kept, tiles = {d} + kept ∧
    if near then ∃ pairs, kept = pairs + pairs else Complete 1 kept

/-- The tile `t` makes whole blocks of the tiles laid out. -/
def Waits (near : Bool) (tiles : Multiset Nat) (t : Nat) : Prop :=
  SuitTile t ∧ if near then ∃ pairs, t ::ₘ tiles = pairs + pairs else Complete 1 (t ::ₘ tiles)

theorem complete_mono {k : Nat} {s : Multiset Nat} (complete : Complete k s) (one : k ≤ 1) :
    Complete 1 s := by
  have more : Complete (1 - k) (0 : Multiset Nat) := .nil
  have whole := more.add complete
  rwa [zero_add, Nat.sub_add_cancel one] at whole

theorem pairsTaken_le (before after : Bool) : pairsTaken before after ≤ 1 := by
  unfold pairsTaken
  split <;> omega

theorem mem_banHu (suited : ∀ z ∈ tilesOf counts, SuitTile z) :
    d ∈ banHu counts near ↔ Spares near (tilesOf counts) d := by
  have enough : (tilesOf counts).card < (counts2Tiles counts).length + 1 := Nat.lt_succ_self _
  cases near with
  | true =>
      rw [banHu, if_pos rfl, banPairs_iff enough]
      constructor
      · rintro ⟨pairs, split⟩
        exact ⟨_, split.trans (add_comm _ _), pairs, rfl⟩
      · rintro ⟨_, split, pairs, rfl⟩
        exact ⟨pairs, split.trans (add_comm _ _)⟩
  | false =>
      rw [banHu, if_neg (by simp)]
      constructor
      · intro listed
        obtain ⟨one, after, found, ⟨_, melds, split, complete, _⟩, fed, listed⟩ :=
          banBlocks_leaves listed
        unfold banHuFeed at fed
        split at fed
        · rename_i length
          obtain ⟨z, list⟩ := List.length_eq_one_iff.1 length
          cases fed
          rw [list, List.mem_singleton] at listed
          subst listed
          refine ⟨melds, ?_, complete_mono complete (pairsTaken_le _ _)⟩
          rw [split, tilesOf, list, add_comm]
          rfl
        · cases fed
      · rintro ⟨kept, split, complete⟩
        have suit : SuitTile d := suited d (by simp [split])
        obtain ⟨after, _, exact, size⟩ := complete_exact complete (Nat.le_refl 1)
        obtain ⟨one, tile⟩ := exists_tilesOf (b := {d}) fun z mem =>
          Multiset.mem_singleton.1 mem ▸ suit
        have list : counts2Tiles one = [d] := Multiset.coe_eq_singleton.1 tile
        have leaves : Leaves counts one false after :=
          ⟨(by simp), kept, by rw [split, tile, add_comm], exact, size⟩
        have fed : banHuFeed (counts2Tiles one) after = some [d] := by
          rw [list]
          rfl
        exact leaves_banBlocks banHuFeed_patient suited enough leaves fed (List.mem_singleton_self d)

theorem waits_of_blocks (suited : ∀ z ∈ tilesOf counts, SuitTile z)
    (listed : t ∈ banBlocks banTingFeed fuel counts false) : Waits false (tilesOf counts) t := by
  obtain ⟨few, after, found, ⟨_, melds, split, complete, _⟩, fed, listed⟩ :=
    banBlocks_leaves listed
  unfold banTingFeed at fed
  split at fed
  · rename_i base
    obtain ⟨length, rfl⟩ := base
    obtain ⟨z, list⟩ := List.length_eq_one_iff.1 length
    cases fed
    rw [list, feedHuTile, List.mem_singleton] at listed
    subst listed
    have tile : tilesOf few = {t} := by
      rw [tilesOf, list]
      rfl
    refine ⟨suited t (by simp [split, tile]), ?_⟩
    have pair : t ::ₘ tilesOf counts = Multiset.replicate 2 t + melds := by
      rw [split, tile, ← Multiset.singleton_add, show Multiset.replicate 2 t = {t} + {t} from rfl]
      ac_rfl
    rw [pair]
    exact .special ⟨t, rfl⟩ complete
  · split at fed
    · rename_i length
      obtain ⟨x, y, list⟩ := List.length_eq_two.1 length
      cases fed
      have tiles : tilesOf few = {x, y} := by
        rw [tilesOf, list]
        rfl
      have suits : SuitTile x ∧ SuitTile y :=
        ⟨suited x (by simp [split, tiles]), suited y (by simp [split, tiles])⟩
      rw [list, mem_feedHuTile_pair suits.1 suits.2] at listed
      obtain ⟨suit, meld⟩ := listed
      refine ⟨suit, ?_⟩
      have whole : t ::ₘ tilesOf counts = {t, x, y} + melds := by
        rw [split, tiles, ← Multiset.singleton_add,
          show ({t, x, y} : Multiset Nat) = {t} + {x, y} from rfl]
        ac_rfl
      rw [whole]
      exact .block meld (complete_mono complete (pairsTaken_le _ _))
    · cases fed

theorem blocks_of_waits (suited : ∀ z ∈ tilesOf counts, SuitTile z)
    (enough : (tilesOf counts).card < fuel) (waits : Waits false (tilesOf counts) t) :
    t ∈ banBlocks banTingFeed fuel counts false := by
  obtain ⟨suit, complete⟩ := waits
  -- the block that lacks the tile is left for the end
  rcases complete.split (Multiset.mem_cons_self t _) with
    ⟨b, r, meld, mem, split, complete⟩ | ⟨b, r, k, pair, mem, split, one, complete⟩
  · obtain ⟨others, rfl⟩ := Multiset.exists_cons_of_mem mem
    have three := card_of_meld meld
    rw [Multiset.card_cons] at three
    rw [Multiset.cons_add, Multiset.cons_inj_right] at split
    obtain ⟨few, tiles⟩ := exists_tilesOf (b := others) fun z mem =>
      suited z (split ▸ Multiset.mem_add.2 (.inl mem))
    have length : (counts2Tiles few).length = 2 := by
      have card : (tilesOf few).card = 2 := by
        rw [tiles]
        omega
      exact card
    obtain ⟨x, y, list⟩ := List.length_eq_two.1 length
    obtain rfl : others = {x, y} := by
      rw [← tiles, tilesOf, list]
      rfl
    have suits : SuitTile x ∧ SuitTile y :=
      ⟨suited x (by simp [split]), suited y (by simp [split])⟩
    obtain ⟨after, _, exact, size⟩ := complete_exact complete (Nat.le_refl 1)
    have leaves : Leaves counts few false after :=
      ⟨(by simp), r, by rw [split, tiles, add_comm], exact, size⟩
    have fed : banTingFeed (counts2Tiles few) after = some (feedHuTile [x, y]) := by
      rw [list]
      rfl
    apply leaves_banBlocks banTingFeed_patient suited enough leaves fed
    exact (mem_feedHuTile_pair suits.1 suits.2).2 ⟨suit, meld⟩
  · obtain rfl : k = 0 := by omega
    obtain ⟨z, rfl⟩ := pair
    obtain rfl : t = z := Multiset.eq_of_mem_replicate mem
    rw [show Multiset.replicate 2 t = t ::ₘ {t} from rfl, Multiset.cons_add,
      Multiset.cons_inj_right] at split
    obtain ⟨few, tile⟩ := exists_tilesOf (b := {t}) fun z mem =>
      Multiset.mem_singleton.1 mem ▸ suit
    have list : counts2Tiles few = [t] := Multiset.coe_eq_singleton.1 tile
    obtain ⟨after, none, exact, size⟩ := complete_exact complete (Nat.zero_le 1)
    have leaves : Leaves counts few false false := by
      refine ⟨(by simp), r, by rw [split, tile, add_comm], complete, ?_⟩
      rw [Nat.le_zero.1 none] at size
      exact size
    have fed : banTingFeed (counts2Tiles few) false = some (feedHuTile [t]) := by
      rw [list]
      rfl
    exact leaves_banBlocks banTingFeed_patient suited enough leaves fed (List.mem_singleton_self t)

theorem mem_banTing (suited : ∀ z ∈ tilesOf counts, SuitTile z) :
    t ∈ banTing counts near ↔ Waits near (tilesOf counts) t := by
  have enough : (tilesOf counts).card < (counts2Tiles counts).length + 1 := Nat.lt_succ_self _
  cases near with
  | true =>
      rw [banTing, if_pos rfl, banPairs_iff enough]
      constructor
      · rintro ⟨pairs, split⟩
        refine ⟨suited t (by simp [split]), t ::ₘ pairs, ?_⟩
        rw [split, ← Multiset.singleton_add, ← Multiset.singleton_add]
        ac_rfl
      · rintro ⟨_, pairs, split⟩
        have mem : t ∈ pairs := by
          have mem : t ∈ pairs + pairs := split ▸ Multiset.mem_cons_self t _
          simpa using mem
        obtain ⟨others, rfl⟩ := Multiset.exists_cons_of_mem mem
        rw [Multiset.cons_add, Multiset.cons_inj_right] at split
        refine ⟨others, ?_⟩
        rw [split, ← Multiset.singleton_add]
        ac_rfl
  | false =>
      rw [banTing, if_neg (by simp)]
      exact ⟨waits_of_blocks suited, blocks_of_waits suited enough⟩

end FkServer.MaajanNanchong.Rule
