import FkServer.Land.Discard
import FkServer.Pdk.Discard
import FkServer.PdkSc.Discard

/-!
The discards of the three climbing games keep the cards unless a list with more copies of
a card than the player has passes the checks: they look at each card of the list alone.
-/
namespace FkServer.Climbing

/-- Discards in `land`, `pdk` and `pdk_sc` keep the cards exactly when the list repeats no
card that the player holds once, or a check refuses it. -/
theorem discards_conserve_iff (land : Land.DiscardConf) (landTable : Land.Discards)
    (pdk : Pdk.DiscardConf) (pdkTable : Pdk.Discards) (sc : PdkSc.DiscardConf)
    (scTable : PdkSc.Discards) (chair : Nat) (cards : List Int)
    (laiziReplace : Option (List Int)) :
    (Conserves Land.hands landTable chair cards
        (Land.doActionDiscard land landTable chair cards) ↔
      cards.Nodup ∨ Land.Refuses land landTable chair cards) ∧
    (Conserves Pdk.hands pdkTable chair cards
        (Pdk.doActionDiscard pdk pdkTable chair cards) ↔
      cards.Nodup ∨ Pdk.Refuses pdk pdkTable chair cards) ∧
    (Conserves PdkSc.hands scTable chair cards
        (PdkSc.doActionDiscard sc scTable chair cards laiziReplace) ↔
      (∀ card, cards.count card ≤ (scTable.handCards chair).count card) ∨
        PdkSc.Refuses sc scTable chair cards laiziReplace) :=
  ⟨Land.discard_conserves_iff land landTable chair cards,
    Pdk.discard_conserves_iff pdk pdkTable chair cards,
    PdkSc.discard_conserves_iff sc scTable chair cards laiziReplace⟩

/-- Two players in `land`, the first on turn with the three of spades and that of hearts. -/
def landThrees : Land.Discards where
  status := .play
  curDiscardChair := 1
  handCards := fun _ => {3, 23}
  lastDiscard := none
  multi := 0
  bomb := 0
  discardCount := fun _ => 0
  statisticsBomb := fun _ => 0
  statisticsWin := fun _ => 0
  win := fun _ => false
  playerBomb := fun _ => 0

def landRules : Land.DiscardConf where
  startCount := 2
  siDaiEr := false
  sanZhang := false
  sanDaiEr := false
  pairs := id
  pairs_perm := fun values => List.Perm.refl values

/-- The three of spades twice is taken for a pair. -/
theorem same_card_twice :
    ¬ ((∀ c s chair cards, s.status = .play →
        Conserves Land.hands s chair cards (Land.doActionDiscard c s chair cards)) ∧
      (∀ c s chair cards, s.status = .play →
        Conserves Pdk.hands s chair cards (Pdk.doActionDiscard c s chair cards)) ∧
      ∀ c s chair cards laiziReplace, s.status = .play →
        Conserves PdkSc.hands s chair cards
          (PdkSc.doActionDiscard c s chair cards laiziReplace)) := by
  intro claim
  have kept := claim.1 landRules landThrees 1 [3, 3] rfl
  have accepted : ∃ t, Land.doActionDiscard landRules landThrees 1 [3, 3] = .next t := ⟨_, rfl⟩
  obtain ⟨t, accepted⟩ := accepted
  rw [accepted] at kept
  have distinct := Multiset.coe_nodup.1 (Multiset.nodup_of_le kept.1 (Finset.nodup _))
  revert distinct
  decide

end FkServer.Climbing
