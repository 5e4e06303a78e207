import FkServer.ChangpaiZigong.Conservation

/-!
A player who must discard can: in rounds that meet only lawful requests the player on turn
holds a card that `on_action_chu_pai` takes, and the automatic discard picks such a card.
-/
namespace FkServer.ChangpaiZigong

/-- `on_action_chu_pai` puts the card of the player on turn to the discards. -/
def Accepts (c : Conf) (t : Table) (x : Nat) : Prop :=
  ((t.onActionChuPai c t.cur (some x) true).player t.cur).pai.deskTiles =
    t.chuPaiPlayer.pai.deskTiles ++ [x]

/-- What the automatic discard of `chu_pai` may pick: the card drawn last while it is held,
else any card of the hand that is not unusable. -/
def AutoPick (p : Player) (x : Nat) : Prop :=
  if ∃ mo ∈ p.moPai, 0 < p.pai.shouPai mo then p.moPai = some x
  else 0 < p.pai.shouPai x ∧ x ∉ p.pai.unusable

variable {c : Conf} {t : Table}

theorem accepts_of_usable {x : Nat} (waits : t.fsm = .waitChuPai) (card : Card x)
    (held : 0 < t.chuPaiPlayer.pai.shouPai x) (usable : x ∉ t.chuPaiPlayer.pai.unusable) :
    Accepts c t x := by
  have some_held : (t.player t.cur).pai.shouPai x ≠ 0 := ne_of_gt held
  unfold Accepts Table.onActionChuPai
  rw [if_neg (by simp [waits])]
  simp only [place, Option.map_some, Int.toNat_natCast]
  have unmarked : x ∉ (t.player t.cur).pai.unUsecard.getD [] := usable
  rw [if_neg (by simp [card, some_held]), if_neg unmarked, if_neg (by simp)]
  unfold Table.afterDiscard
  split <;> simp [Table.discarded, Table.nextFlips, Table.nextPlayerIndex, Table.waitFor,
    Table.chuPaiPlayer]

theorem autoPick_of_drawn {p : Player} {x : Nat} (drew : p.moPai = some x)
    (held : 0 < p.pai.shouPai x) : AutoPick p x := by
  unfold AutoPick
  rw [if_pos ⟨x, drew, held⟩]
  exact drew

/-- In a round that meets only lawful requests nobody is stuck with the discard. -/
theorem lawful_discards_go_on
    (reached : Runs.Reaches (Started c) (fun s a s' => s' = step c s a) (Honest c .discards) t)
    (waits : t.fsm = .waitChuPai) (due : t.clock = none) :
    (∃ x, 0 < t.chuPaiPlayer.pai.shouPai x ∧ x ∉ t.chuPaiPlayer.pai.unusable ∧
      Accepts c t x) ∧
    ∀ x, AutoPick t.chuPaiPlayer x → Accepts c t x := by
  have kept := reaches_kept reached
  cases kept.inv with
  | inl ended => exact absurd (waits.symm.trans ended.fsm) (by decide)
  | inr sound =>
      have fit : Fit t.chuPaiPlayer := by
        have supply := sound.supply rfl
        unfold Supply at supply
        rw [waits] at supply
        exact supply due
      have accepted : ∀ x, 0 < t.chuPaiPlayer.pai.shouPai x →
          x ∉ t.chuPaiPlayer.pai.unusable → Accepts c t x := fun x held usable =>
        accepts_of_usable waits (sound.cards t.cur x held) held usable
      obtain ⟨x, held, usable⟩ := fit.some_card
      refine ⟨⟨x, held, usable, accepted x held usable⟩, fun y pick => ?_⟩
      unfold AutoPick at pick
      split at pick
      · rename_i drawn
        obtain ⟨mo, drew, held⟩ := drawn
        have same : mo = y := Option.some.inj (drew.symm.trans pick)
        subst same
        exact accepted mo held (fit.drawn mo drew held)
      · exact accepted y pick.1 pick.2

/-- The dealer holds all four 1s. -/
def fourOnes : List Nat :=
  [21, 21, 21, 21, 20, 20, 20, 20, 19, 19, 19, 19, 18, 18, 18] ++
  [1, 1, 1, 1, 2, 3, 4, 5, 6, 7, 8, 9, 10, 11, 12] ++
  [13, 2, 2, 3, 4, 4, 5, 5, 6, 7, 7, 8, 8, 9, 14] ++
  [14, 14, 14, 13, 13, 13, 12, 12, 12, 11, 11, 11, 10, 10, 10, 9, 9, 8, 7, 6, 6, 5, 4, 3, 3, 2,
    15, 15, 15, 15, 16, 16, 16, 16, 17, 17, 17, 17, 18]

def onesOffered : Table := step twoPlayers (started twoPlayers fourOnes 1 none) .clock

/-- Both players answer that they announce no win. -/
def announced (t : Table) : Table :=
  step twoPlayers (step twoPlayers t (.baoting 1 false)) (.baoting 2 false)

/-- The dealer keeps the four 1s in the hand. -/
def onesKept : Table :=
  announced (step twoPlayers onesOffered (.doAction 1 ⟨.pass, none, none, some 1, false⟩))

/-- The dealer shows three 1s and keeps the fourth. -/
def onesShown : Table :=
  announced (step twoPlayers
    (step twoPlayers onesOffered (.doAction 1 ⟨.tou, some 1, none, some 1, false⟩))
    (.doAction 1 ⟨.pass, none, none, some 2, false⟩))

/-- In both rounds the dealer is to discard and has drawn a 1, which is refused in the second. -/
theorem ones_evaluated : fourOnes.Perm deck ∧
    (onesKept.fsm = .waitChuPai ∧ onesKept.clock = none ∧
      onesKept.chuPaiPlayer.moPai = some 1 ∧ 0 < onesKept.chuPaiPlayer.pai.shouPai 1) ∧
    (onesShown.fsm = .waitChuPai ∧ onesShown.clock = none ∧
      onesShown.chuPaiPlayer.moPai = some 1 ∧ 0 < onesShown.chuPaiPlayer.pai.shouPai 1) ∧
    ¬((onesShown.onActionChuPai twoPlayers onesShown.cur (some 1) true).player
      onesShown.cur).pai.deskTiles = onesShown.chuPaiPlayer.pai.deskTiles ++ [1] := by
  decide +kernel

theorem fourOnes_started : Started twoPlayers (started twoPlayers fourOnes 1 none) :=
  ⟨fourOnes, 1, none, ones_evaluated.1, by decide, rfl⟩

theorem onesKept_reached : Runs.Reaches (Started twoPlayers)
    (fun s a s' => s' = step twoPlayers s a) (Honest twoPlayers .discards) onesKept :=
  .next (.baoting 2 false) (.next (.baoting 1 false)
    (.next (.doAction 1 ⟨.pass, none, none, some 1, false⟩)
      (.next .clock (.start fourOnes_started) trivial rfl)
      (fun _ => ⟨by decide +kernel, by decide +kernel, fun eat => absurd eat (by decide),
        fun _ _ _ => ⟨1, by decide +kernel, by decide +kernel⟩⟩) rfl)
    trivial rfl) trivial rfl

theorem onesShown_reached : Runs.Reachable (Started twoPlayers)
    (fun s a s' => s' = step twoPlayers s a) onesShown :=
  .next (.baoting 2 false) (.next (.baoting 1 false)
    (.next (.doAction 1 ⟨.pass, none, none, some 2, false⟩)
      (.next (.doAction 1 ⟨.tou, some 1, none, some 1, false⟩)
        (.next .clock (.start fourOnes_started) trivial rfl) trivial rfl) trivial rfl)
    trivial rfl) trivial rfl

/-- The dealer may play one of the four 1s first. -/
theorem four_ones_kept : Accepts twoPlayers onesKept 1 := by
  obtain ⟨-, ⟨waits, due, drew, held⟩, -⟩ := ones_evaluated
  exact (lawful_discards_go_on onesKept_reached waits due).2 1 (autoPick_of_drawn drew held)

/-- The fourth 1 is unusable, and the table takes it for the card drawn last: the automatic
discard picks it and is refused. -/
theorem fourth_one_refused :
    ¬ ∀ c t, Runs.Reachable (Started c) (fun s a s' => s' = step c s a) t →
      t.fsm = .waitChuPai → t.clock = none →
      (∃ x, 0 < t.chuPaiPlayer.pai.shouPai x ∧ x ∉ t.chuPaiPlayer.pai.unusable ∧
        Accepts c t x) ∧
      ∀ x, AutoPick t.chuPaiPlayer x → Accepts c t x := by
  intro safe
  obtain ⟨-, -, ⟨waits, due, drew, held⟩, refused⟩ := ones_evaluated
  exact refused ((safe twoPlayers onesShown onesShown_reached waits due).2 1
    (autoPick_of_drawn drew held))

end FkServer.ChangpaiZigong
