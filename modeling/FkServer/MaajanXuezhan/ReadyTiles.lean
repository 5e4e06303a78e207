import FkServer.MaajanXuezhan.HandCover

/-!
The ready tiles of `rule.ting_tiles` against the winning test `rule.is_hu`: the
search for waiting tiles, the two shortcuts for hands of pairs, and the table of
discards built from them.
-/
namespace FkServer.MaajanXuezhan.Rule
open BlockCover

variable {counts : Counts} {t x y : Nat}

/-- Three tiles are a run from `s` on when they are distinct and close enough. -/
private theorem eq_run_iff {s : Nat} :
    ({t, x, y} : Multiset Nat) = {s, s + 1, s + 2} ↔
      (t ≠ x ∧ t ≠ y ∧ x ≠ y) ∧
        (s ≤ t ∧ t ≤ s + 2) ∧ (s ≤ x ∧ x ≤ s + 2) ∧ (s ≤ y ∧ y ≤ s + 2) := by
  have nodup : ∀ a b c : Nat,
      ({a, b, c} : Multiset Nat).Nodup ↔ a ≠ b ∧ a ≠ c ∧ b ≠ c := by
    intro a b c
    simp only [Multiset.insert_eq_cons, Multiset.nodup_cons, Multiset.mem_cons,
      Multiset.mem_singleton, Multiset.nodup_singleton, not_or, and_true, ne_eq, and_assoc]
  have mem : ∀ a b c z : Nat, z ∈ ({a, b, c} : Multiset Nat) ↔ z = a ∨ z = b ∨ z = c := by
    intro a b c z
    simp only [Multiset.insert_eq_cons, Multiset.mem_cons, Multiset.mem_singleton]
  constructor
  · intro h
    have distinct := (nodup t x y).1 (h ▸ (nodup s (s + 1) (s + 2)).2 (by omega))
    have inside : ∀ z, z = t ∨ z = x ∨ z = y → s ≤ z ∧ z ≤ s + 2 := by
      intro z hz
      have := (mem s (s + 1) (s + 2) z).1 (h ▸ (mem t x y z).2 hz)
      omega
    exact ⟨distinct, inside t (by simp), inside x (by simp), inside y (by simp)⟩
  · rintro ⟨distinct, ht, hx, hy⟩
    refine (((nodup t x y).2 distinct).ext ((nodup s (s + 1) (s + 2)).2 (by omega))).2 fun z => ?_
    rw [mem, mem]
    omega

private theorem eq_triplet_iff {s : Nat} :
    ({t, x, y} : Multiset Nat) = Multiset.replicate 3 s ↔ t = s ∧ x = s ∧ y = s := by
  constructor
  · intro h
    have all : ∀ z ∈ ({t, x, y} : Multiset Nat), z = s := fun z hz =>
      Multiset.eq_of_mem_replicate (h ▸ hz)
    exact ⟨all t (by simp), all x (by simp), all y (by simp)⟩
  · rintro ⟨rfl, rfl, rfl⟩
    rfl

private theorem meld_three_iff :
    Meld {t, x, y} ↔ (t = x ∧ t = y) ∨
      ∃ s, (tileValue s ≤ 7 ∧ tileMen s < 3) ∧ (t ≠ x ∧ t ≠ y ∧ x ≠ y) ∧
        (s ≤ t ∧ t ≤ s + 2) ∧ (s ≤ x ∧ x ≤ s + 2) ∧ (s ≤ y ∧ y ≤ s + 2) := by
  simp only [Meld, Triplet, Run, eq_run_iff, eq_triplet_iff]
  refine or_congr_left ⟨?_, ?_⟩
  · rintro ⟨s, rfl, rfl, rfl⟩
    exact ⟨rfl, rfl⟩
  · rintro ⟨rfl, rfl⟩
    exact ⟨t, rfl, rfl, rfl⟩

/-- Two tiles of one suit, at distance one or two, and the tiles that make them a run. -/
private theorem feed_run_iff {lo hi : Nat} (less : lo < hi) (men : lo / 10 = hi / 10)
    (low : 0 < lo % 10 ∧ lo / 10 < 3) :
    (hi - lo = 1 ∧ (1 < lo % 10 ∧ t = lo - 1 ∨ hi % 10 < 9 ∧ t = hi + 1)) ∨
        (hi - lo = 2 ∧ t = lo + 1) ↔
      (0 < t % 10 ∧ t / 10 < 3) ∧ ∃ s, (s % 10 ≤ 7 ∧ s / 10 < 3) ∧ (t ≠ lo ∧ t ≠ hi) ∧
        (s ≤ t ∧ t ≤ s + 2) ∧ s ≤ lo ∧ hi ≤ s + 2 := by
  constructor
  · rintro (⟨one, ⟨room, rfl⟩ | ⟨room, rfl⟩⟩ | ⟨two, rfl⟩)
    · exact ⟨by omega, lo - 1, by omega⟩
    · exact ⟨by omega, lo, by omega⟩
    · exact ⟨by omega, lo, by omega⟩
  · rintro ⟨suit, s, kind, ⟨ne_lo, ne_hi⟩, ht, above, below⟩
    rcases Nat.lt_or_gt_of_ne ne_lo with before | after
    · exact .inl ⟨by omega, .inl ⟨by omega, by omega⟩⟩
    · rcases Nat.lt_or_gt_of_ne ne_hi with between | beyond
      · exact .inr ⟨by omega, by omega⟩
      · exact .inl ⟨by omega, .inr ⟨by omega, by omega⟩⟩

/-- `feed_hu_tile` names the tiles that make a triplet or a run of two tiles. -/
theorem mem_feedHuTile_pair (hx : SuitTile x) (hy : SuitTile y) :
    t ∈ feedHuTile [x, y] ↔ SuitTile t ∧ Meld {t, x, y} := by
  rw [meld_three_iff, feedHuTile]
  by_cases same : x = y
  · subst same
    rw [if_pos rfl, List.mem_singleton]
    constructor
    · rintro rfl
      exact ⟨hx, .inl ⟨rfl, rfl⟩⟩
    · rintro ⟨_, h | ⟨s, _, h, _⟩⟩
      · exact h.1
      · exact absurd rfl h.2.2
  · rw [if_neg same]
    by_cases men : tileMen x = tileMen y
    · rw [if_neg (not_not.2 men)]
      obtain ⟨lo, hi, low, high, less, which⟩ : ∃ lo hi, min x y = lo ∧ max x y = hi ∧ lo < hi ∧
          ((x = lo ∧ y = hi) ∨ (x = hi ∧ y = lo)) := ⟨min x y, max x y, rfl, rfl, by omega, by omega⟩
      rw [low, high]
      have feed : (t ∈ if hi - lo = 1 then
            (if 1 < tileValue lo then [lo - 1] else []) ++ (if tileValue hi < 9 then [hi + 1] else [])
          else if hi - lo = 2 then [lo + 1] else []) ↔
          (hi - lo = 1 ∧ (1 < tileValue lo ∧ t = lo - 1 ∨ tileValue hi < 9 ∧ t = hi + 1)) ∨
            (hi - lo = 2 ∧ t = lo + 1) := by
        split
        · rename_i one
          simp [one]
        · rename_i one
          simp [one]
      have suits : SuitTile lo ∧ lo / 10 = hi / 10 := by
        rcases which with ⟨rfl, rfl⟩ | ⟨rfl, rfl⟩
        · exact ⟨hx, men⟩
        · exact ⟨hy, men.symm⟩
      refine feed.trans ((feed_run_iff less suits.2 suits.1).trans (and_congr_right fun _ => ?_))
      constructor
      · rintro ⟨s, kind, ⟨ne_lo, ne_hi⟩, ht, above, below⟩
        rcases which with ⟨rfl, rfl⟩ | ⟨rfl, rfl⟩
        · exact .inr ⟨s, kind, ⟨ne_lo, ne_hi, same⟩, ht, ⟨above, by omega⟩, by omega, below⟩
        · exact .inr ⟨s, kind, ⟨ne_hi, ne_lo, same⟩, ht, ⟨by omega, below⟩, above, by omega⟩
      · rintro (h | ⟨s, kind, ⟨ne_x, ne_y, _⟩, ht, hx, hy⟩)
        · exact absurd (h.1.symm.trans h.2) same
        · rcases which with ⟨rfl, rfl⟩ | ⟨rfl, rfl⟩
          · exact ⟨s, kind, ⟨ne_x, ne_y⟩, ht, hx.1, hy.2⟩
          · exact ⟨s, kind, ⟨ne_y, ne_x⟩, ht, hy.1, hx.2⟩
    · rw [if_pos men]
      simp only [List.not_mem_nil, false_iff, not_and]
      rintro _ (h | ⟨s, ⟨value, _⟩, _, _, hx, hy⟩)
      · exact same (h.1.symm.trans h.2)
      · -- a run cannot cross from one suit into the next
        have suit : ∀ z, s ≤ z ∧ z ≤ s + 2 → tileMen z = tileMen s := by
          intro z hz
          simp only [tileMen, tileValue] at value ⊢
          omega
        exact men ((suit x hx).trans (suit y hy).symm)

section Ting
variable {jiang : Bool} {fuel : Nat}

/-- The number of pairs a search may still use. -/
abbrev pairsLeft (jiang : Bool) : Nat := if jiang then 0 else 1

private theorem tilesOf_one (one : (counts2Tiles counts).length = 1) :
    ∃ z, counts2Tiles counts = [z] ∧ tilesOf counts = {z} := by
  obtain ⟨z, hz⟩ := List.length_eq_one_iff.1 one
  exact ⟨z, hz, by rw [tilesOf, hz]; rfl⟩

private theorem tilesOf_two (two : (counts2Tiles counts).length = 2) :
    ∃ z w, counts2Tiles counts = [z, w] ∧ tilesOf counts = {z, w} := by
  obtain ⟨z, w, hz⟩ := List.length_eq_two.1 two
  exact ⟨z, w, hz, by rw [tilesOf, hz]; rfl⟩

/-- Taking a meld or the pair from a hand of suit tiles leaves one. -/
private theorem suited_of_add {b r : Multiset Nat} (split : tilesOf counts = b + r)
    (suited : ∀ z ∈ tilesOf counts, SuitTile z) : ∀ z ∈ r, SuitTile z :=
  fun z hz => suited z (split ▸ Multiset.mem_add.2 (.inr hz))

theorem tingState_sound (suited : ∀ z ∈ tilesOf counts, SuitTile z)
    (h : t ∈ tingState fuel counts jiang) :
    SuitTile t ∧ Complete (pairsLeft jiang) (t ::ₘ tilesOf counts) := by
  induction fuel generalizing counts jiang with
  | zero => simp [tingState] at h
  | succ fuel ih =>
      simp only [tingState] at h
      split at h
      · rename_i base
        obtain ⟨one, rfl⟩ := base
        obtain ⟨z, list, tiles⟩ := tilesOf_one one
        rw [list, feedHuTile, List.mem_singleton] at h
        subst h
        rw [tiles] at suited ⊢
        refine ⟨suited t (Multiset.mem_singleton_self t), ?_⟩
        exact show Complete 1 (Multiset.replicate 2 t + 0) from .special ⟨t, rfl⟩ .nil
      · split at h
        · rename_i base
          obtain ⟨two, rfl⟩ := base
          obtain ⟨z, w, list, tiles⟩ := tilesOf_two two
          rw [tiles] at suited ⊢
          rw [list, mem_feedHuTile_pair (suited z (by simp)) (suited w (by simp))] at h
          refine ⟨h.1, ?_⟩
          have whole : Complete 0 (({t, z, w} : Multiset Nat) + 0) := .block h.2 .nil
          rwa [add_zero] at whole
        · simp only [List.mem_append, List.mem_flatMap] at h
          rcases h with (⟨z, hz, h⟩ | ⟨z, hz, h⟩) | ⟨z, hz, h⟩
          all_goals
            split at h
            swap
            · simp at h
            rename_i held
          · have inside := (mem_tilesOf.1 (show z ∈ tilesOf counts from hz)).1
            have split := tilesOf_decr 3 inside held
            obtain ⟨suit, rest⟩ := ih (suited_of_add split suited) h
            refine ⟨suit, ?_⟩
            rw [split, ← Multiset.add_cons]
            exact .block (.inl ⟨z, rfl⟩) rest
          · obtain ⟨rfl, held⟩ := held
            have inside := (mem_tilesOf.1 (show z ∈ tilesOf counts from hz)).1
            have split := tilesOf_decr 2 inside held
            obtain ⟨suit, rest⟩ := ih (suited_of_add split suited) h
            refine ⟨suit, ?_⟩
            rw [split, ← Multiset.add_cons]
            exact .special ⟨z, rfl⟩ rest
          · obtain ⟨held₀, value, _, men, held₁, held₂⟩ := held
            have inside : 1 ≤ z ∧ z + 2 ≤ 50 := by
              rw [List.mem_range'_1] at hz
              simp only [tileMen] at men
              omega
            have split := tilesOf_run inside ⟨held₀, held₁, held₂⟩
            obtain ⟨suit, rest⟩ := ih (suited_of_add split suited) h
            refine ⟨suit, ?_⟩
            rw [split, ← Multiset.add_cons]
            exact .block (.inr ⟨z, ⟨value, men⟩, rfl⟩) rest

/-- Every cover is found whatever block of it is met first; the tile counts decide
when only the block that lacks `t` is left. -/
theorem tingState_complete (suited : ∀ z ∈ t ::ₘ tilesOf counts, SuitTile z)
    (parity : (tilesOf counts).card % 3 = if jiang then 2 else 1)
    (enough : (tilesOf counts).card < fuel)
    (h : Complete (pairsLeft jiang) (t ::ₘ tilesOf counts)) :
    t ∈ tingState fuel counts jiang := by
  induction fuel generalizing counts jiang with
  | zero => omega
  | succ fuel ih =>
      have suit : ∀ z ∈ tilesOf counts, SuitTile z := fun z hz =>
        suited z (Multiset.mem_cons_of_mem hz)
      have length : (counts2Tiles counts).length = (tilesOf counts).card := rfl
      have rest : ∀ {b r : Multiset Nat}, tilesOf counts = b + r →
          ∀ z ∈ t ::ₘ r, SuitTile z := by
        intro b r split z hz
        rcases Multiset.mem_cons.1 hz with rfl | hz
        · exact suited z (Multiset.mem_cons_self z _)
        · exact suited_of_add split suit z hz
      simp only [tingState]
      rcases h.lacking with meld | ⟨pair, pairs⟩ | ⟨b, r, meld, split, cover⟩ |
        ⟨b, r, j, pair, split, pairs, cover⟩
      · -- the last meld lacks `t`
        have size := card_of_meld meld
        rw [Multiset.card_cons] at size
        have taken : jiang = true := by
          cases jiang with
          | true => rfl
          | false => simp at parity; omega
        have two : (counts2Tiles counts).length = 2 := by omega
        rw [if_neg (by simp [taken]), if_pos ⟨two, taken⟩]
        obtain ⟨z, w, list, tiles⟩ := tilesOf_two two
        rw [tiles] at suited suit meld
        rw [list, mem_feedHuTile_pair (suit z (by simp)) (suit w (by simp))]
        exact ⟨suited t (Multiset.mem_cons_self t _), meld⟩
      · -- the pair lacks `t`
        have size := card_of_pair pair
        rw [Multiset.card_cons] at size
        have open_ : jiang = false := by
          cases jiang with
          | true => simp [pairsLeft] at pairs
          | false => rfl
        have one : (counts2Tiles counts).length = 1 := by omega
        rw [if_pos ⟨one, open_⟩]
        obtain ⟨z, list, tiles⟩ := tilesOf_one one
        obtain ⟨w, two⟩ := pair
        rw [tiles] at two
        have all : ∀ v ∈ t ::ₘ ({z} : Multiset Nat), v = w := fun v hv =>
          Multiset.eq_of_mem_replicate (two ▸ hv)
        rw [list, feedHuTile, List.mem_singleton, all t (by simp), all z (by simp)]
      · -- a whole meld can be taken
        have size := card_of_meld meld
        have card : (tilesOf counts).card = 3 + r.card := by
          rw [split, Multiset.card_add, size]
        have parity' : r.card % 3 = if jiang then 2 else 1 := by omega
        have enough' : r.card < fuel := by omega
        rw [if_neg (by omega), if_neg (by omega), List.mem_append, List.mem_append]
        rcases meld with ⟨z, rfl⟩ | ⟨z, ⟨value, men⟩, rfl⟩
        · obtain ⟨inside, held, rfl⟩ := take_same (by omega) split
          refine .inl (.inl (List.mem_flatMap.2 ⟨z, ?_, ?_⟩))
          · exact show z ∈ tilesOf counts from mem_tilesOf.2 ⟨inside, by omega⟩
          · rw [if_pos (show 3 ≤ counts z from held)]
            exact ih (rest split) parity' enough' cover
        · obtain ⟨inside, held, rfl⟩ := take_run split
          refine .inr (List.mem_flatMap.2 ⟨z, List.mem_range'_1.2 (by omega), ?_⟩)
          have z_suit := suit z (mem_tilesOf.2 ⟨by omega, held.1⟩)
          rw [if_pos ⟨held.1, value, z_suit.1, men, held.2⟩]
          exact ih (rest split) parity' enough' cover
      · -- the pair can be taken
        have size := card_of_pair pair
        have card : (tilesOf counts).card = 2 + r.card := by
          rw [split, Multiset.card_add, size]
        have open_ : jiang = false := by
          cases jiang with
          | true => simp [pairsLeft] at pairs
          | false => rfl
        rw [open_] at parity pairs ⊢
        obtain rfl : j = 0 := (Nat.succ.inj pairs).symm
        have one : (tilesOf counts).card % 3 = 1 := parity
        have parity' : r.card % 3 = 2 := by omega
        have enough' : r.card < fuel := by omega
        rw [if_neg (by omega), if_neg (by omega), List.mem_append, List.mem_append]
        obtain ⟨z, rfl⟩ := pair
        obtain ⟨inside, held, rfl⟩ := take_same (by omega) split
        refine .inl (.inr (List.mem_flatMap.2 ⟨z, ?_, ?_⟩))
        · exact show z ∈ tilesOf counts from mem_tilesOf.2 ⟨inside, by omega⟩
        · rw [if_pos ⟨rfl, held⟩]
          exact ih (rest split) parity' enough' cover

end Ting

section Dui
variable {pairs : Nat} {pai : Pai} {siDui : Bool}

private theorem sum_by_count (counts : Counts) (l : List Nat)
    (copies : ∀ z ∈ l, 0 ≤ counts z ∧ counts z ≤ 4) :
    (l.map counts).sum =
      (l.filter fun z => counts z = 1).length +
        2 * ((l.filter fun z => counts z = 2).length +
          (l.filter fun z => counts z = 4).length * 2 : Nat) +
        3 * (l.filter fun z => counts z = 3).length := by
  induction l with
  | nil => simp
  | cons z l ih =>
      have rest := ih fun w hw => copies w (List.mem_cons_of_mem z hw)
      obtain ⟨low, high⟩ := copies z (List.mem_cons_self)
      rw [List.map_cons, List.sum_cons, rest]
      obtain h | h | h | h | h : counts z = 0 ∨ counts z = 1 ∨ counts z = 2 ∨ counts z = 3 ∨
          counts z = 4 := by omega
      all_goals
        simp [h]
        try omega

private theorem dui_by_count (counts : Counts) (l : List Nat) :
    (l.map fun z => if counts z = 4 then (2 : Int) else if counts z = 2 then 1 else 0).sum =
      ((l.filter fun z => counts z = 2).length +
        (l.filter fun z => counts z = 4).length * 2 : Nat) := by
  induction l with
  | nil => simp
  | cons z l ih =>
      rw [List.map_cons, List.sum_cons, ih]
      by_cases four : counts z = 4
      · simp [four]
        omega
      · by_cases two : counts z = 2
        · simp [two]
          omega
        · simp [four, two]

/-- The counts of a hand: suit tiles, none of them more than four times. -/
structure Hand (counts : Counts) : Prop where
  suited : ∀ t, counts t ≠ 0 → SuitTile t
  copies : ∀ t, 0 ≤ counts t ∧ counts t ≤ 4

theorem Hand.ofList {tiles : List Nat} (few : ∀ t ∈ tiles, SuitTile t ∧ tiles.count t ≤ 4) :
    Hand fun t => (tiles.count t : Int) where
  suited t held :=
    (few t (List.count_pos_iff.1 (Nat.pos_of_ne_zero (Int.natCast_ne_zero.1 held)))).1
  copies t := by
    refine ⟨Int.natCast_nonneg _, ?_⟩
    by_cases mem : t ∈ tiles
    · exact Int.ofNat_le.2 (few t mem).2
    · rw [List.count_eq_zero.2 mem]
      decide

theorem Hand.total (hand : Hand counts) :
    totalCount counts = (countTiles counts 1).length + 2 * (evenCount counts : Int) +
      3 * (countTiles counts 3).length := by
  simpa [totalCount, countTiles, evenCount] using
    sum_by_count counts (List.range' 1 50) fun z _ => hand.copies z

theorem duiZiCount_eq (counts : Counts) : duiZiCount counts = evenCount counts := by
  simpa [duiZiCount, countTiles, evenCount] using dui_by_count counts (List.range' 1 50)

/-- What one more tile `t` does to the number of pairs in the hand. -/
private theorem duiZiCount_incr (counts : Counts) (suit : SuitTile t) :
    duiZiCount (incr counts t 1) = duiZiCount counts +
      ((if counts t + 1 = 4 then 2 else if counts t + 1 = 2 then 1 else 0) -
        (if counts t = 4 then 2 else if counts t = 2 then 1 else 0)) := by
  have inside := suit.mem_range
  have sum := sum_map_incr (fun c => if c = 4 then 2 else if c = 2 then 1 else 0) counts
    (List.range' 1 50) List.nodup_range' t 1
  rw [if_pos inside] at sum
  exact sum

private theorem tingDui_eq_some (h : tingDui pairs counts = some t) :
    ((countTiles counts 1).length = 1 ∧ evenCount counts + 1 = pairs ∧ counts t = 1) ∨
      ((countTiles counts 3).length = 1 ∧ evenCount counts + 2 = pairs ∧ counts t = 3) := by
  have member : ∀ {c : Int}, (countTiles counts c).head? = some t → counts t = c := by
    intro c hc
    have := List.mem_of_head? hc
    simpa [countTiles] using (List.mem_filter.1 this).2
  unfold tingDui at h
  split at h
  · rename_i one
    exact .inl ⟨one.1, one.2, member h⟩
  · split at h
    · rename_i three
      exact .inr ⟨three.1, three.2, member h⟩
    · cases h

private theorem head_countTiles {c : Int} (one : (countTiles counts c).length = 1)
    (suit : SuitTile t) (held : counts t = c) : (countTiles counts c).head? = some t := by
  obtain ⟨z, list⟩ := List.length_eq_one_iff.1 one
  have inside := suit.mem_range
  have mem : t ∈ countTiles counts c := List.mem_filter.2 ⟨inside, by simpa using held⟩
  rw [list, List.mem_singleton] at mem
  rw [list, mem]
  rfl

/-- In a hand one tile short of the pairs, the shortcut names exactly the missing one. -/
theorem tingDui_iff (hand : Hand counts) (short : totalCount counts + 1 = 2 * pairs) :
    tingDui pairs counts = some t ↔
      SuitTile t ∧ duiZiCount (incr counts t 1) = pairs := by
  have total := hand.total
  constructor
  · intro h
    have found := tingDui_eq_some h
    have suit : SuitTile t := hand.suited t (by omega)
    have more := duiZiCount_incr counts suit
    rw [duiZiCount_eq counts] at more
    refine ⟨suit, ?_⟩
    rcases found with ⟨one, even, held⟩ | ⟨three, even, held⟩
    · simp only [held] at more
      omega
    · simp only [held] at more
      omega
  · rintro ⟨suit, dui⟩
    have more := duiZiCount_incr counts suit
    rw [duiZiCount_eq counts, dui] at more
    have copies := hand.copies t
    have three : counts t = 3 → 1 ≤ (countTiles counts 3).length := fun h =>
      List.length_pos_of_mem (List.mem_filter.2 ⟨suit.mem_range, by simpa using h⟩)
    obtain held | held | held | held | held : counts t = 0 ∨ counts t = 1 ∨ counts t = 2 ∨
        counts t = 3 ∨ counts t = 4 := by omega
    all_goals
      simp only [held] at more
    · omega
    · have one : (countTiles counts 1).length = 1 ∧ evenCount counts + 1 = pairs := by omega
      rw [tingDui, if_pos one]
      exact head_countTiles one.1 suit held
    · omega
    · have one : (countTiles counts 3).length = 1 ∧ evenCount counts + 2 = pairs := by
        have := three held
        omega
      rw [tingDui, if_neg (by omega), if_pos one]
      exact head_countTiles one.1 suit held
    · omega

/-- The shortcut names a tile only in hands of a matching size, but for triplets
held besides the pairs. -/
private theorem total_of_tingDui (hand : Hand counts) (h : tingDui pairs counts = some t) :
    2 * (pairs : Int) ≤ totalCount counts + 1 := by
  have total := hand.total
  rcases tingDui_eq_some h with ⟨one, even, _⟩ | ⟨three, even, _⟩ <;> omega

end Dui

section Agreement
variable {pai : Pai} {siDui : Bool}

theorem Hand.suitTiles (hand : Hand counts) : ∀ z ∈ tilesOf counts, SuitTile z := by
  intro z hz
  have held := (mem_tilesOf.1 hz).2
  exact hand.suited z (by omega)

theorem tilesOf_incr (suit : SuitTile t) (held : 0 ≤ counts t) :
    tilesOf (incr counts t 1) = t ::ₘ tilesOf counts := by
  rw [← Multiset.singleton_add]
  refine tilesOf_eq_add (fun z hz => ?_) fun z _ => ?_
  · rw [Multiset.mem_singleton] at hz
    subst hz
    have := suit.range
    omega
  · rw [incr_apply, Multiset.count_singleton]
    split
    · rename_i same
      subst same
      omega
    · omega

theorem card_tilesOf (hand : Hand counts) :
    ((tilesOf counts).card : Int) = totalCount counts := by
  have each : ∀ z, ((counts z).toNat : Int) = counts z := fun z => Int.toNat_of_nonneg (hand.copies z).1
  have sum : ∀ l : List Nat,
      ((l.flatMap fun z => List.replicate (counts z).toNat z).length : Int) = (l.map counts).sum := by
    intro l
    induction l with
    | nil => rfl
    | cons z l ih =>
        rw [List.flatMap_cons, List.length_append, List.length_replicate, List.map_cons,
          List.sum_cons, Int.natCast_add, each, ih]
  exact sum _

/-- The search for ready tiles finds what the winning search accepts. -/
theorem mem_tingState_iff (hand : Hand counts) (t : Nat) (size : totalCount counts % 3 = 1) :
    t ∈ tingState ((counts2Tiles counts).length + 1) counts false ↔
      SuitTile t ∧ isHuState ((counts2Tiles (incr counts t 1)).length + 1)
        (incr counts t 1) false = true := by
  have card := card_tilesOf hand
  have enough : (tilesOf counts).card < (counts2Tiles counts).length + 1 := Nat.lt_succ_self _
  have search : isHuState ((counts2Tiles (incr counts t 1)).length + 1) (incr counts t 1) false =
      true ↔ Complete 1 (tilesOf (incr counts t 1)) := isHuState_iff (Nat.lt_succ_self _)
  rw [search]
  constructor
  · intro h
    obtain ⟨suit, complete⟩ := tingState_sound hand.suitTiles h
    exact ⟨suit, tilesOf_incr suit (hand.copies t).1 ▸ complete⟩
  · rintro ⟨suit, complete⟩
    rw [tilesOf_incr suit (hand.copies t).1] at complete
    refine tingState_complete (fun z hz => ?_) ?_ enough complete
    · rcases Multiset.mem_cons.1 hz with rfl | hz
      · exact suit
      · exact hand.suitTiles z hz
    · simp only [Bool.false_eq_true, if_false]
      omega

theorem tingQiDui_iff (hand : Hand pai.shouPai) (t : Nat)
    (size : totalCount pai.shouPai + 3 * pai.mingPai.length ≤ 13) :
    tingQiDui pai.shouPai = some t ↔
      SuitTile t ∧ isQiDui pai (incr pai.shouPai t 1) = true := by
  simp only [isQiDui, isDui, decide_eq_true_eq, tingQiDui]
  constructor
  · intro h
    have least := total_of_tingDui hand h
    obtain ⟨suit, dui⟩ := (tingDui_iff hand (by omega)).1 h
    rw [totalCount_incr _ suit.mem_range]
    exact ⟨suit, dui, by omega, by omega⟩
  · rintro ⟨suit, dui, total, _⟩
    rw [totalCount_incr _ suit.mem_range] at total
    exact (tingDui_iff hand (by omega)).2 ⟨suit, dui⟩

/-- The four-pair shortcut names a tile although the hand has not seven tiles. -/
def SiDuiSlip (pai : Pai) (siDui : Bool) (t : Nat) : Prop :=
  siDui = true ∧ totalCount pai.shouPai ≠ 7 ∧ tingSiDui pai pai.shouPai = some t

theorem tingSiDui_iff (hand : Hand pai.shouPai) (slip : ¬ SiDuiSlip pai true t) :
    tingSiDui pai pai.shouPai = some t ↔
      SuitTile t ∧ isSiDui pai (incr pai.shouPai t 1) = true := by
  simp only [isSiDui, isDui, decide_eq_true_eq]
  constructor
  · intro h
    have seven : totalCount pai.shouPai = 7 := by
      by_contra other
      exact slip ⟨rfl, other, h⟩
    rw [tingSiDui] at h
    split at h
    · cases h
    · obtain ⟨suit, dui⟩ := (tingDui_iff hand (by omega)).1 h
      rw [totalCount_incr _ suit.mem_range]
      exact ⟨suit, dui, by omega, by omega⟩
  · rintro ⟨suit, dui, total, melds⟩
    rw [totalCount_incr _ suit.mem_range] at total
    rw [tingSiDui, if_neg (by omega)]
    exact (tingDui_iff hand (by omega)).2 ⟨suit, dui⟩

theorem mem_tingTiles_iff (hand : Hand pai.shouPai) (one : totalCount pai.shouPai % 3 = 1)
    (size : totalCount pai.shouPai + 3 * pai.mingPai.length ≤ 13)
    (slip : ¬ SiDuiSlip pai siDui t) :
    t ∈ tingTiles pai siDui ↔ SuitTile t ∧ isHu pai (some t) siDui = true := by
  have search := mem_tingState_iff hand t one
  have seven := tingQiDui_iff hand t size
  simp only [tingTiles, isHu, cache, List.mem_append, Option.mem_toList, Bool.or_eq_true,
    Bool.and_eq_true, search, seven]
  cases siDui with
  | false =>
      simp only [Bool.false_eq_true, if_false, List.not_mem_nil, false_and, or_false]
      exact and_or_left.symm
  | true =>
      simp only [if_true, Option.mem_toList, true_and, tingSiDui_iff hand slip]
      rw [and_or_left, and_or_left]

/-- A hand that lacks its last tile, with as many melds as leave room for it. -/
structure Waiting (pai : Pai) : Prop where
  hand : Hand pai.shouPai
  one : totalCount pai.shouPai % 3 = 1
  size : totalCount pai.shouPai + 3 * pai.mingPai.length ≤ 13

/-- A hand that has its last tile and discards. -/
structure Discarding (pai : Pai) : Prop where
  hand : Hand pai.shouPai
  two : totalCount pai.shouPai % 3 = 2
  size : totalCount pai.shouPai + 3 * pai.mingPai.length ≤ 14

/-- `table.decr(all_pai.shou_pai,tile)` in `ting_full`. -/
def without (pai : Pai) (discard : Nat) : Pai :=
  { pai with shouPai := decr pai.shouPai discard 1 }

theorem Discarding.without (full : Discarding pai) {discard : Nat}
    (held : 0 < pai.shouPai discard) : Waiting (without pai discard) := by
  have back : incr (decr pai.shouPai discard 1) discard 1 = pai.shouPai := by
    funext z
    rw [incr_apply, decr_apply]
    split <;> omega
  have total := totalCount_incr (decr pai.shouPai discard 1)
    (full.hand.suited discard (by omega)).mem_range 1
  rw [back] at total
  have two := full.two
  have size := full.size
  refine ⟨⟨fun z hz => ?_, fun z => ?_⟩, ?_, ?_⟩
  · refine full.hand.suited z fun zero => ?_
    simp only [Rule.without, decr_apply] at hz
    split at hz
    · rename_i same
      subst same
      omega
    · omega
  · have := full.hand.copies z
    simp only [Rule.without, decr_apply]
    split
    · rename_i same
      subst same
      omega
    · omega
  · show totalCount (decr pai.shouPai discard 1) % 3 = 1
    omega
  · show totalCount (decr pai.shouPai discard 1) + 3 * (pai.mingPai.length : Int) ≤ 13
    omega

theorem tingFull_eq (held : 0 < pai.shouPai t) :
    (tingFull pai siDui t).getD [] = tingTiles (without pai t) siDui := by
  rw [tingFull, if_neg (by omega), without]
  split
  · rename_i empty
    rw [empty]
    rfl
  · rfl

/-- Ready tiles are the suit tiles that win, also those held four times already,
but for a tile that the four-pair shortcut names in a hand of another size. -/
theorem ready_tiles_agree (pai : Pai) (siDui : Bool) :
    (Waiting pai → ∀ t, ¬ SiDuiSlip pai siDui t →
      (t ∈ tingTiles pai siDui ↔ SuitTile t ∧ isHu pai (some t) siDui = true)) ∧
    (Discarding pai → ∀ discard, tingFull pai siDui discard ≠ some [] ∧
      (pai.shouPai discard ≤ 0 → tingFull pai siDui discard = none) ∧
      (0 < pai.shouPai discard → ∀ t, ¬ SiDuiSlip (without pai discard) siDui t →
        (t ∈ (tingFull pai siDui discard).getD [] ↔
          SuitTile t ∧ isHu (without pai discard) (some t) siDui = true))) := by
  constructor
  · intro waiting t slip
    exact mem_tingTiles_iff waiting.hand waiting.one waiting.size slip
  · intro full discard
    refine ⟨?_, fun none_held => if_pos none_held, fun held t slip => ?_⟩
    · rw [tingFull]
      split
      · simp
      · split
        · simp
        · rename_i other
          intro empty
          exact other (Option.some.inj empty)
    · have waiting := full.without held
      rw [tingFull_eq held]
      exact mem_tingTiles_iff waiting.hand waiting.one waiting.size slip

/-- Three triplets that are shown. -/
def threePengs : List Section := [14, 25, 28].map fun t => ⟨.peng, t, some 2, none, none, 0⟩

/-- Three 1s and a 2 with three melds: the search lists 2 and 3, so these win. -/
theorem three_ones_and_a_two_wait :
    let pai : Pai := ⟨fun t => [1, 1, 1, 2].count t, threePengs, [], none⟩
    tingTiles pai false = [2, 2, 2, 3, 3, 3] ∧
      ∀ t, t ∈ tingTiles pai false ↔ SuitTile t ∧ isHu pai (some t) false = true := by
  intro pai
  have waiting : Waiting pai := ⟨.ofList (by decide), by decide, by decide⟩
  refine ⟨by decide +kernel, fun t => ?_⟩
  exact (ready_tiles_agree pai false).1 waiting t fun slip => Bool.false_ne_true slip.1

/-- A tile held four times is listed as ready. -/
theorem fifth_copy_listed :
    ¬ ∀ (pai : Pai) (siDui : Bool), Waiting pai →
      ∀ t, t ∈ tingTiles pai siDui ↔
        SuitTile t ∧ pai.shouPai t < 4 ∧ isHu pai (some t) siDui = true := by
  intro claim
  have waiting : Waiting ⟨fun t => [1, 1, 1, 1].count t, threePengs, [], none⟩ :=
    ⟨.ofList (by decide), by decide, by decide⟩
  have listed := (claim _ false waiting 1).1 (by decide +kernel)
  exact absurd listed.2.1 (by decide)

end Agreement

end FkServer.MaajanXuezhan.Rule
