import FkServer.MaajanNanchong.Handlers
import FkServer.MaajanNanchong.LayOutSearch

/-!
`can_bai_pai` against what laying out is for: some discard outside the list and some tile
make the hand a win of which the cards kept are whole blocks and the cards listed, with
that tile, are the others. Besides a list that names a card more often than it is held,
only a hand near pairs that falls apart in the other way is misjudged.
-/
namespace FkServer.MaajanNanchong.Rule

open BlockCover
open MaajanXuezhan.Rule
open MaajanXuezhan (SuitTile)

variable {pai : MaajanXuezhan.Pai} {cards : List Nat} {d t : Nat} {siDui : Bool}

/-- Discarding `d` and drawing `t` gives melds and one pair, the cards listed with `t` some
of them and the cards kept the others. -/
def BlocksOut (pai : MaajanXuezhan.Pai) (cards : List Nat) (d t : Nat) : Prop :=
  SuitTile t ∧ ∃ kept, tilesOf pai.shouPai = cards + ({d} + kept) ∧
    ∃ k j, k + j = 1 ∧ Complete k kept ∧ Complete j (t ::ₘ (cards : Multiset Nat))

/-- Discarding `d` and drawing `t` gives pairs, the cards listed with `t` some of them and
the cards kept the others. -/
def PairsOut (pai : MaajanXuezhan.Pai) (cards : List Nat) (d t : Nat) : Prop :=
  SuitTile t ∧ ∃ kept, tilesOf pai.shouPai = cards + ({d} + kept) ∧
    ∃ pairs pairs' : Multiset Nat, kept = pairs + pairs ∧
      t ::ₘ (cards : Multiset Nat) = pairs' + pairs'

/-- A hand that wins by pairs alone: seven of them, or four where the table plays so. -/
def PairsWin (siDui : Bool) (pai : MaajanXuezhan.Pai) : Prop :=
  pai.mingPai = [] ∧ (totalCount pai.shouPai = 14 ∨ siDui = true ∧ totalCount pai.shouPai = 8)

/-- What laying out `cards` promises: after the discard `d` the tile `t` wins, and the cards
listed become whole blocks of that win. -/
def LaysOut (siDui : Bool) (pai : MaajanXuezhan.Pai) (cards : List Nat) (d t : Nat) : Prop :=
  BlocksOut pai cards d t ∨ PairsWin siDui pai ∧ PairsOut pai cards d t

theorem LaidFrom.of_split (discarding : Discarding pai) {others : Multiset Nat}
    (split : tilesOf pai.shouPai = cards + others) :
    LaidFrom pai cards ∧ tilesOf (restCounts pai cards) = others := by
  have held : ∀ v, (cards.count v : Int) ≤ pai.shouPai v := by
    intro v
    have count := congrArg (Multiset.count v) split
    have copies := discarding.hand.copies v
    rw [count_tilesOf, Multiset.count_add, Multiset.coe_count] at count
    split at count <;> omega
  have laid : LaidFrom pai cards := ⟨discarding, held⟩
  obtain ⟨cards_tiles, tiles⟩ := laid.tiles
  rw [split, cards_tiles] at tiles
  exact ⟨laid, (Multiset.add_right_inj.1 tiles).symm⟩

/-- The sizes leave exactly one pair for the two parts together. -/
theorem blocksOut_iff (discarding : Discarding pai) :
    BlocksOut pai cards d t ↔ LaidFrom pai cards ∧
      Spares false (tilesOf (restCounts pai cards)) d ∧ Waits false cards t := by
  constructor
  · rintro ⟨suit, kept, split, k, j, one, complete, complete'⟩
    obtain ⟨laid, rest⟩ := LaidFrom.of_split discarding split
    have whole := complete_mono complete (by omega)
    have whole' := complete_mono complete' (by omega)
    exact ⟨laid, ⟨kept, rest, whole⟩, suit, whole'⟩
  · rintro ⟨laid, ⟨kept, rest, complete⟩, suit, complete'⟩
    obtain ⟨cards_tiles, tiles⟩ := laid.tiles
    rw [rest, cards_tiles] at tiles
    have card := card_tilesOf laid.hand
    have two := laid.two
    rw [tiles, Multiset.card_add, Multiset.card_add, Multiset.card_singleton] at card
    obtain ⟨after, most, exact, size⟩ := complete_exact complete (Nat.le_refl 1)
    obtain ⟨after', most', exact', size'⟩ := complete_exact complete' (Nat.le_refl 1)
    rw [Multiset.card_cons] at size'
    exact ⟨suit, kept, tiles, _, _, by omega, exact, exact'⟩

theorem pairsOut_iff (discarding : Discarding pai) :
    PairsOut pai cards d t ↔ LaidFrom pai cards ∧
      Spares true (tilesOf (restCounts pai cards)) d ∧ Waits true cards t := by
  constructor
  · rintro ⟨suit, kept, split, pairs, pairs', double, double'⟩
    obtain ⟨laid, rest⟩ := LaidFrom.of_split discarding split
    exact ⟨laid, ⟨kept, rest, pairs, double⟩, suit, pairs', double'⟩
  · rintro ⟨laid, ⟨kept, rest, pairs, double⟩, suit, pairs', double'⟩
    obtain ⟨cards_tiles, tiles⟩ := laid.tiles
    rw [rest, cards_tiles] at tiles
    exact ⟨suit, kept, tiles, pairs, pairs', double, double'⟩

/-- A card is listed more often than held, while each part passes on its own: the cards
listed as they are, and the rest with nothing left of what was listed too often. -/
structure ListsTooMany (pai : MaajanXuezhan.Pai) (cards : List Nat) : Prop where
  listed : ∀ v ∈ cards, 0 < pai.shouPai v
  beyond : ∃ v, pai.shouPai v < cards.count v
  spares : ∃ d, Spares (quanTingQiDui pai.shouPai) (tilesOf (restCounts pai cards)) d
  waits : ∃ t, Waits (quanTingQiDui pai.shouPai) cards t

/-- The list can be laid out, but only for the kind of win that is not searched for. -/
def OtherWin (siDui : Bool) (pai : MaajanXuezhan.Pai) (cards : List Nat) : Prop :=
  if quanTingQiDui pai.shouPai then
    (∃ d t, BlocksOut pai cards d t) ∧ ¬ ∃ d t, PairsOut pai cards d t
  else
    PairsWin siDui pai ∧ (∃ d t, PairsOut pai cards d t) ∧ ¬ ∃ d t, BlocksOut pai cards d t

/-- The kind of win the whole hand makes the searches look for. -/
def Searched (pai : MaajanXuezhan.Pai) (cards : List Nat) (d t : Nat) : Prop :=
  if quanTingQiDui pai.shouPai then PairsOut pai cards d t else BlocksOut pai cards d t

theorem searched_iff (discarding : Discarding pai) (d t : Nat) :
    Searched pai cards d t ↔ LaidFrom pai cards ∧
      Spares (quanTingQiDui pai.shouPai) (tilesOf (restCounts pai cards)) d ∧
        Waits (quanTingQiDui pai.shouPai) cards t := by
  unfold Searched
  cases quanTingQiDui pai.shouPai with
  | true => exact pairsOut_iff discarding
  | false => exact blocksOut_iff discarding

theorem pairsWin_of_near (laid : LaidFrom pai cards)
    (near : quanTingQiDui pai.shouPai = true) : PairsWin siDui pai := by
  have total := quanTingQiDui_total laid near
  have size := laid.size
  exact ⟨List.length_eq_zero_iff.1 (by omega), .inl total⟩

theorem Searched.laysOut (laid : LaidFrom pai cards)
    (searched : Searched pai cards d t) : LaysOut siDui pai cards d t := by
  unfold Searched at searched
  split at searched
  · rename_i near
    exact .inr ⟨pairsWin_of_near laid near, searched⟩
  · exact .inl searched

theorem LaysOut.laid (out : LaysOut siDui pai cards d t)
    (discarding : Discarding pai) : LaidFrom pai cards := by
  rcases out with blocks | ⟨_, pairs⟩
  · exact ((blocksOut_iff discarding).1 blocks).1
  · exact ((pairsOut_iff discarding).1 pairs).1

theorem cardsCanBai_searched (laid : LaidFrom pai cards)
    (discards : d ∈ (cardsCanBai pai cards).1) (waits : t ∈ (cardsCanBai pai cards).2) :
    Searched pai cards d t := by
  obtain ⟨cards_tiles, tiles⟩ := laid.tiles
  have suited : ∀ z ∈ tilesOf (laidCounts cards) + tilesOf (restCounts pai cards),
      MaajanXuezhan.SuitTile z := by
    rw [← tiles]
    exact laid.hand.suitTiles
  have rest_suited := fun z mem => suited z (Multiset.mem_add.2 (.inr mem))
  have listed_suited := fun z mem => suited z (Multiset.mem_add.2 (.inl mem))
  unfold cardsCanBai at discards waits
  dsimp only at discards waits
  rw [List.mem_dedup, mem_banHu rest_suited] at discards
  rw [List.mem_dedup, mem_banTing listed_suited, cards_tiles] at waits
  exact (searched_iff laid.toDiscarding d t).2 ⟨laid, discards, waits⟩

theorem otherWin_laid (discarding : Discarding pai)
    (other : OtherWin siDui pai cards) : LaidFrom pai cards := by
  unfold OtherWin at other
  split at other
  · obtain ⟨⟨d, t, blocks⟩, _⟩ := other
    exact ((blocksOut_iff discarding).1 blocks).1
  · obtain ⟨_, ⟨d, t, pairs⟩, _⟩ := other
    exact ((pairsOut_iff discarding).1 pairs).1

/-- What is laid out is part of a win. -/
theorem LaysOut.wins (out : LaysOut siDui pai cards d t) (discarding : Discarding pai) :
    isHu (without pai d) (some t) siDui = true := by
  have drawn : ∀ {kept : Multiset Nat}, SuitTile t → tilesOf pai.shouPai = cards + ({d} + kept) →
      d ∈ tilesOf pai.shouPai ∧
        tilesOf (incr (without pai d).shouPai t 1) = kept + (t ::ₘ (cards : Multiset Nat)) := by
    intro kept suit split
    have first : tilesOf pai.shouPai = {d} + (kept + cards) := by
      rw [split]
      ac_rfl
    refine ⟨by simp [first], ?_⟩
    rw [tilesOf_drawn discarding suit first, Multiset.add_cons]
  rcases out with ⟨suit, kept, split, k, j, one, complete, complete'⟩ |
    ⟨⟨shown, size⟩, suit, kept, split, pairs, pairs', rfl, double⟩
  · have whole := complete.add complete'
    rw [one, ← (drawn suit split).2] at whole
    have search : isHuState ((counts2Tiles (incr (without pai d).shouPai t 1)).length + 1)
        (incr (without pai d).shouPai t 1) false = true :=
      (isHuState_iff (Nat.lt_succ_self _)).2 whole
    simp only [isHu, cache, Bool.or_eq_true]
    exact .inl (.inl search)
  · obtain ⟨listed, tiles⟩ := drawn suit split
    have double : tilesOf (incr (without pai d).shouPai t 1) = (pairs + pairs') + (pairs + pairs') := by
      rw [tiles, double]
      ac_rfl
    have dui : ∀ n : Nat, totalCount pai.shouPai = 2 * n →
        isDui n (without pai d) (incr (without pai d).shouPai t 1) = true := by
      intro n size
      obtain ⟨many, total⟩ := dui_drawn discarding listed suit size double
      simp only [isDui, decide_eq_true_eq]
      exact ⟨many, total, List.length_eq_zero_iff.2 shown⟩
    simp only [isHu, cache, isQiDui, isSiDui, Bool.or_eq_true, Bool.and_eq_true]
    rcases size with fourteen | ⟨played, eight⟩
    · exact .inl (.inr (dui 7 fourteen))
    · exact .inr ⟨played, dui 4 eight⟩

end FkServer.MaajanNanchong.Rule

namespace FkServer.MaajanNanchong

open MaajanXuezhan.Rule
open Rule

variable {p : Player} {cards : List Nat} {siDui : Bool}

/-- What `can_bai_pai` asks of a list. -/
theorem canBaiPai_iff (hand : Hand p.pai.shouPai) :
    canBaiPai p (some cards) = true ↔ (∀ v ∈ cards, 0 < p.pai.shouPai v) ∧
      (∃ d, Spares (quanTingQiDui p.pai.shouPai) (tilesOf (restCounts p.pai.toPai cards)) d) ∧
      ∃ t, Waits (quanTingQiDui p.pai.shouPai) cards t := by
  have nonempty : ∀ l : List Nat, l.dedup.isEmpty = false ↔ ∃ x, x ∈ l := by
    intro l
    simp [List.eq_nil_iff_forall_not_mem]
  have rest_suited : ∀ z ∈ tilesOf (restCounts p.pai.toPai cards), MaajanXuezhan.SuitTile z := by
    intro z mem
    have held := (mem_tilesOf.1 mem).2
    rw [restCounts_apply] at held
    exact hand.suited z (by omega)
  simp only [canBaiPai, Option.any_some, Bool.and_eq_true, List.all_eq_true, decide_eq_true_eq,
    Bool.not_eq_true', cardsCanBai, nonempty, mem_banHu rest_suited, and_assoc]
  refine and_congr_right fun held => and_congr_right fun _ => ?_
  have suited : ∀ v ∈ cards, MaajanXuezhan.SuitTile v := fun v listed =>
    hand.suited v (Int.ne_of_gt (held v listed))
  have tiles : tilesOf (laidCounts cards) = cards := by
    apply tilesOf_laidCounts
    intro v listed
    have := (suited v listed).range
    omega
  have listed_suited : ∀ z ∈ tilesOf (laidCounts cards), MaajanXuezhan.SuitTile z := by
    rw [tiles]
    exact suited
  simp only [mem_banTing listed_suited, tiles]

/-- What laying a list out promises, and what `can_bai_pai` and `cards_can_bai` say. -/
structure LayOutJudged (siDui : Bool) (p : Player) (cards : List Nat) : Prop where
  accepts : canBaiPai p (some cards) = true ↔ ∃ d t, LaysOut siDui p.pai.toPai cards d t
  named : canBaiPai p (some cards) = true →
    ∀ d ∈ (cardsCanBai p.pai.toPai cards).1, ∀ t ∈ (cardsCanBai p.pai.toPai cards).2,
      LaysOut siDui p.pai.toPai cards d t ∧ isHu (without p.pai.toPai d) (some t) siDui = true

/-- Of cards that are held the searches accept what they look for. -/
theorem canBaiPai_laid (laid : LaidFrom p.pai.toPai cards) :
    canBaiPai p (some cards) = true ↔ ∃ d t, Searched p.pai.toPai cards d t := by
  have held : ∀ v ∈ cards, 0 < p.pai.shouPai v := by
    intro v listed
    have copies := List.count_pos_iff.2 listed
    have := laid.held v
    omega
  rw [canBaiPai_iff laid.hand]
  constructor
  · rintro ⟨_, ⟨d, spares⟩, t, waits⟩
    exact ⟨d, t, (searched_iff laid.toDiscarding d t).2 ⟨laid, spares, waits⟩⟩
  · rintro ⟨d, t, searched⟩
    obtain ⟨_, spares, waits⟩ := (searched_iff laid.toDiscarding d t).1 searched
    exact ⟨held, ⟨d, spares⟩, t, waits⟩

/-- Of cards that are held only the other kind of win is missed. -/
theorem judged_laid (laid : LaidFrom p.pai.toPai cards) :
    LayOutJudged siDui p cards ↔ ¬ OtherWin siDui p.pai.toPai cards := by
  have check := canBaiPai_laid laid
  have promised : ∀ d t, Searched p.pai.toPai cards d t → LaysOut siDui p.pai.toPai cards d t :=
    fun d t => Searched.laysOut laid
  have named : ∀ d ∈ (cardsCanBai p.pai.toPai cards).1, ∀ t ∈ (cardsCanBai p.pai.toPai cards).2,
      LaysOut siDui p.pai.toPai cards d t ∧ isHu (without p.pai.toPai d) (some t) siDui = true := by
    intro d discards t waits
    have out := promised d t (cardsCanBai_searched laid discards waits)
    exact ⟨out, out.wins laid.toDiscarding⟩
  have judged : LayOutJudged siDui p cards ↔
      ((∃ d t, LaysOut siDui p.pai.toPai cards d t) → ∃ d t, Searched p.pai.toPai cards d t) := by
    constructor
    · intro judged out
      exact check.1 (judged.accepts.2 out)
    · intro finds
      refine ⟨check.trans ⟨?_, finds⟩, fun _ => named⟩
      rintro ⟨d, t, searched⟩
      exact ⟨d, t, promised d t searched⟩
  rw [judged]
  unfold OtherWin Searched
  cases near : quanTingQiDui p.pai.shouPai with
  | true =>
      have win : PairsWin siDui p.pai.toPai := pairsWin_of_near laid near
      simp only [if_true]
      constructor
      · rintro finds ⟨⟨d, t, blocks⟩, none⟩
        exact none (finds ⟨d, t, .inl blocks⟩)
      · rintro found ⟨d, t, blocks | ⟨_, pairs⟩⟩
        · by_contra none
          exact found ⟨⟨d, t, blocks⟩, none⟩
        · exact ⟨d, t, pairs⟩
  | false =>
      simp only [Bool.false_eq_true, if_false]
      constructor
      · rintro finds ⟨win, ⟨d, t, pairs⟩, none⟩
        exact none (finds ⟨d, t, .inr ⟨win, pairs⟩⟩)
      · rintro found ⟨d, t, blocks | ⟨win, pairs⟩⟩
        · exact ⟨d, t, blocks⟩
        · by_contra none
          exact found ⟨win, ⟨d, t, pairs⟩, none⟩

/-- A list that is not held cannot be laid out, so accepting it is what goes wrong. -/
theorem judged_over (discarding : Discarding p.pai.toPai) (laid : ¬ LaidFrom p.pai.toPai cards) :
    LayOutJudged siDui p cards ↔ ¬ ListsTooMany p.pai.toPai cards := by
  have none : ¬ ∃ d t, LaysOut siDui p.pai.toPai cards d t := by
    rintro ⟨d, t, out⟩
    exact laid (out.laid discarding)
  have beyond : ∃ v, p.pai.shouPai v < cards.count v := by
    by_contra all
    refine laid ⟨discarding, fun v => ?_⟩
    by_contra more
    exact all ⟨v, Int.not_le.1 more⟩
  have check : canBaiPai p (some cards) = true ↔ ListsTooMany p.pai.toPai cards := by
    rw [canBaiPai_iff discarding.hand]
    constructor
    · rintro ⟨listed, spares, waits⟩
      exact ⟨listed, beyond, spares, waits⟩
    · rintro ⟨listed, _, spares, waits⟩
      exact ⟨listed, spares, waits⟩
  rw [← check]
  constructor
  · intro judged accepted
    exact none (judged.accepts.1 accepted)
  · intro rejected
    exact ⟨iff_of_false rejected none, fun accepted => absurd accepted rejected⟩

/-- `can_bai_pai` and `cards_can_bai` say what laying a list out promises, except where a
card is listed more often than held and each part passes on its own, and where the list
goes with the one kind of win only that the whole hand keeps from being searched for. -/
theorem can_bai_pai_iff (discarding : Discarding p.pai.toPai) :
    LayOutJudged siDui p cards ↔
      ¬ ListsTooMany p.pai.toPai cards ∧ ¬ OtherWin siDui p.pai.toPai cards := by
  by_cases laid : LaidFrom p.pai.toPai cards
  · rw [judged_laid laid]
    refine (and_iff_right ?_).symm
    rintro ⟨_, ⟨v, beyond⟩, _⟩
    have := laid.held v
    omega
  · rw [judged_over discarding laid]
    refine (and_iff_left ?_).symm
    exact fun other => laid (otherWin_laid discarding other)

/-! ### A card listed twice -/

theorem laidCounts_hand (suited : ∀ v ∈ cards, MaajanXuezhan.SuitTile v)
    (few : ∀ v ∈ cards, cards.count v ≤ 4) : Hand (laidCounts cards) := by
  refine ⟨fun v held => ?_, fun v => ?_⟩
  · rw [laidCounts_apply] at held
    apply suited
    apply List.count_pos_iff.1
    omega
  · rw [laidCounts_apply]
    by_cases listed : v ∈ cards
    · have := few v listed
      omega
    · rw [List.count_eq_zero_of_not_mem listed]
      omega

/-- Three threes to three sixes, a one and a two, with nothing shown. -/
def twiceListed : Player where
  pai := ⟨⟨laidCounts [1, 2, 3, 3, 3, 4, 4, 4, 5, 5, 5, 6, 6, 6], [], [], none⟩, [], []⟩
  lastAction := none
  moPai := none
  chuPai := none
  moPaiCount := 1
  chuPaiCount := 0
  baoting := none
  baotingInfo := none
  baipai := false
  canDiscards := none
  gzh := fun _ => none
  gsp := fun _ => false
  lastPenghu := none

theorem twiceListed_discarding : Discarding twiceListed.pai.toPai where
  hand := laidCounts_hand (by decide) (by decide)
  two := by decide
  size := by decide

theorem twiceListed_judged :
    LayOutJudged false twiceListed [1, 1] ↔
      ¬ ListsTooMany twiceListed.pai.toPai [1, 1] ∧ ¬ OtherWin false twiceListed.pai.toPai [1, 1] :=
  can_bai_pai_iff twiceListed_discarding

/-- The one one of the hand is listed twice: the two threaten a triplet, the rest are
triplets and a two to discard. -/
theorem twice_listed_accepted : ¬ LayOutJudged false twiceListed [1, 1] := by
  intro judged
  have near : quanTingQiDui twiceListed.pai.shouPai = false := by decide
  have rest : tilesOf (restCounts twiceListed.pai.toPai [1, 1]) =
      {2, 3, 3, 3, 4, 4, 4, 5, 5, 5, 6, 6, 6} := by decide
  have accepted : canBaiPai twiceListed (some [1, 1]) = true := by
    rw [canBaiPai_iff twiceListed_discarding.hand, near, rest]
    refine ⟨by decide, ⟨2, {3, 3, 3, 4, 4, 4, 5, 5, 5, 6, 6, 6}, rfl, ?_⟩, 1, by decide, ?_⟩
    · have triplet : ∀ v, Meld {v, v, v} := fun v => .inl ⟨v, rfl⟩
      exact .block (triplet 3) (.block (triplet 4) (.block (triplet 5) (.block (triplet 6) .nil)))
    · have triplet : Meld {1, 1, 1} := .inl ⟨1, rfl⟩
      exact .block triplet .nil
  obtain ⟨d, t, out⟩ := judged.accepts.1 accepted
  have held := (out.laid twiceListed_discarding).held 1
  revert held
  decide

end FkServer.MaajanNanchong
