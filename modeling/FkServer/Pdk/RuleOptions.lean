import FkServer.Pdk.Discard

/-!
What the rule options of `pdk` allow to be discarded: four cards with two or with three
others each under an option of their own, and a triple with too few others, alone or in a
plane, only as the last discard of the hand.
-/
namespace FkServer.Pdk

open Climbing

/-- What the options ask of an accepted discard. -/
structure OptionsHold (play : Play) (kind : CardType) (emptied : Prop) : Prop where
  four_with_two : kind = .fourWithDouble → play.siDaiEr = true
  four_with_three : kind = .fourWithThree → play.siDaiSan = true
  three_with_one : kind = .threeWithOne → play.sanDaiYi = true ∧ emptied
  plane_with_mix : kind = .planeWithMix → play.planeWithMix ≠ some false ∧ emptied

/-- A discard is accepted only as the options allow, and otherwise nothing changes. -/
def Enforces (c : DiscardConf) (s : Discards) (chair : Nat) (cards : List Int) :
    Reply Discards → Prop
  | .refused t | .failed t => t = s
  | .next t | .over t => ∀ play kind v, c.play = some play →
      getCardsType c cards = some (kind, v) →
      OptionsHold play kind ((t.handCards chair).card = 0)

/-- What `check_discard_cards_type` lets pass: everything the options ask, save for the
option on four cards with two others, and with the number of cards of the list in the place
of the cards that leave the hand. -/
theorem check_allows_iff (c : DiscardConf) (s : Discards) (play : Play) (kind : CardType)
    (cards : List Int) (rule : c.play = some play) :
    checkDiscardCardsType c s kind cards = false ↔
      (kind = .fourWithThree → play.siDaiSan = true) ∧
        (kind = .threeWithOne →
          play.sanDaiYi = true ∧ (s.handCards s.curDiscardChair).card = cards.length) ∧
        (kind = .planeWithMix → play.planeWithMix ≠ some false ∧
          (s.handCards s.curDiscardChair).card = cards.length ∧ s.lastDiscard = none) := by
  have unknown : ¬ (some kind = CardType.fourWithTwo ∨ some kind = CardType.fourWithOne) := by
    rintro (known | known)
    · cases known
    · cases known
  simp only [checkDiscardCardsType, rule, Option.any_some, decide_eq_false_iff_not, unknown,
    false_and, false_or, not_or, not_and, Bool.not_eq_false, not_not, ne_eq, Bool.not_eq_true,
    Option.isSome_eq_false_iff, Option.isNone_iff_eq_none]

/-- As many cards as the hand has empty it, if none of them is there twice. -/
theorem emptied_iff_nodup (hand : Finset Int) (cards : List Int)
    (held : ∀ card, card ∈ cards → card ∈ hand) (same : hand.card = cards.length) :
    (hand \ cards.toFinset).card = 0 ↔ cards.Nodup := by
  have inside : cards.toFinset ⊆ hand := by
    intro card mem
    exact held card (List.mem_toFinset.1 mem)
  rw [Finset.card_eq_zero, Finset.sdiff_eq_empty_iff_subset]
  constructor
  · intro covers
    have all : cards.toFinset.card = cards.length := by
      rw [Finset.Subset.antisymm inside covers, same]
    exact Multiset.coe_nodup.1 (Multiset.toFinset_card_eq_card_iff_nodup.1 all)
  · intro distinct
    have all : hand.card ≤ cards.toFinset.card := by
      rw [List.toFinset_card_of_nodup distinct, same]
    exact (Finset.eq_of_subset_of_card_le inside all).symm.subset

/-- The options are enforced unless the list is accepted as four cards with two others
while the option for them is off, or as a last discard while repeating a card. -/
theorem options_enforced_iff (c : DiscardConf) (s : Discards) (chair : Nat) (cards : List Int) :
    Enforces c s chair cards (doActionDiscard c s chair cards) ↔
      Refuses c s chair cards ∨
        ∀ play kind v, c.play = some play → getCardsType c cards = some (kind, v) →
          (kind = .fourWithDouble → play.siDaiEr = true) ∧
            (kind = .threeWithOne ∨ kind = .planeWithMix → cards.Nodup) := by
  rcases refuses_or_accepted c s chair cards with
    ⟨refuses, refused⟩ | ⟨passes, kind, v, t, accepted, answer⟩
  · rw [refused]
    exact iff_of_true rfl (.inl refuses)
  · have left : t.handCards chair = s.handCards chair \ cards.toFinset := by
      rw [accepted.hands, Function.update_self]
    have enforces : Enforces c s chair cards (doActionDiscard c s chair cards) ↔
        ∀ play, c.play = some play →
          OptionsHold play kind ((s.handCards chair \ cards.toFinset).card = 0) := by
      rw [← left]
      have only : ∀ play kind' v', c.play = some play → getCardsType c cards = some (kind', v') →
          kind' = kind := by
        intro play kind' v' _ typed
        cases accepted.typed.symm.trans typed
        rfl
      rcases answer with finished | goes_on
      · rw [finished]
        constructor
        · intro h play rule
          exact h play kind v rule accepted.typed
        · intro h play kind' v' rule typed
          rw [only play kind' v' rule typed]
          exact h play rule
      · rw [goes_on]
        constructor
        · intro h play rule
          exact h play kind v rule accepted.typed
        · intro h play kind' v' rule typed
          rw [only play kind' v' rule typed]
          exact h play rule
    rw [enforces, or_iff_right passes]
    constructor
    · intro h play kind' v' rule typed
      cases accepted.typed.symm.trans typed
      have options := h play rule
      obtain ⟨_, three, mix⟩ := (check_allows_iff c s play kind cards rule).1 accepted.allowed
      rw [← accepted.on_turn] at three mix
      refine ⟨options.four_with_two, ?_⟩
      rintro (is_three | is_mix)
      · exact (emptied_iff_nodup _ cards accepted.held (three is_three).2).1
          (options.three_with_one is_three).2
      · exact (emptied_iff_nodup _ cards accepted.held (mix is_mix).2.1).1
          (options.plane_with_mix is_mix).2
    · intro h play rule
      obtain ⟨four, once⟩ := h play kind v rule accepted.typed
      obtain ⟨with_three, three, mix⟩ :=
        (check_allows_iff c s play kind cards rule).1 accepted.allowed
      rw [← accepted.on_turn] at three mix
      exact {
        four_with_two := four
        four_with_three := with_three
        three_with_one := fun is_three => ⟨(three is_three).1,
          (emptied_iff_nodup _ cards accepted.held (three is_three).2).2 (once (.inl is_three))⟩
        plane_with_mix := fun is_mix => ⟨(mix is_mix).1,
          (emptied_iff_nodup _ cards accepted.held (mix is_mix).2.1).2 (once (.inr is_mix))⟩ }

/-- Two players, every option being off. -/
def noOptions : DiscardConf where
  startCount := 2
  play := some ⟨false, false, false, false, false, none, false⟩
  pairs := id
  pairs_perm := List.Perm.refl

/-- The four threes, a four and a five, and a six that stays. -/
def fourThrees : Discards where
  status := .play
  curDiscardChair := 1
  handCards := fun _ => {3, 23, 43, 63, 4, 5, 6}
  lastDiscard := none
  firstDiscard := false
  discardTimes := fun _ => 0
  statisticsWin := fun _ => 0
  win := fun _ => false
  bomb := fun _ => 0

/-- Four cards with two others are accepted although the option for them is off. -/
theorem four_with_two_unchecked :
    getCardsType noOptions [3, 23, 43, 63, 4, 5] = some (.fourWithDouble, 3) ∧
      ¬ Enforces noOptions fourThrees 1 [3, 23, 43, 63, 4, 5]
          (doActionDiscard noOptions fourThrees 1 [3, 23, 43, 63, 4, 5]) := by
  have typed : getCardsType noOptions [3, 23, 43, 63, 4, 5] = some (.fourWithDouble, 3) := by
    decide
  refine ⟨typed, ?_⟩
  intro enforced
  have answer : ∃ t, doActionDiscard noOptions fourThrees 1 [3, 23, 43, 63, 4, 5] = .next t :=
    ⟨_, rfl⟩
  obtain ⟨t, next⟩ := answer
  rw [next] at enforced
  have option := (enforced _ _ _ rfl typed).four_with_two rfl
  cases option

end FkServer.Pdk
