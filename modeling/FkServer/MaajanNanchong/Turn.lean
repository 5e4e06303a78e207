import FkServer.MaajanNanchong.Deal

/-!
Whose turn it is. The player on turn holds one tile more than the others wherever a
discard or a lay-out is waited for, and the turn passes by a draw in seat order or by a
claimed meld; a lay-out out of turn breaks both.
-/
namespace FkServer.MaajanNanchong

open MaajanXuezhan (Action Section SectionType Waiting)

variable {c : Conf} {s s' : State} {r : Request}

/-! ### Melds -/

theorem Sound.meld {own own' : Int} {chair tile : Nat} {n : Int} (sec : Section)
    (sound : Sound c own s) (seated : chair ∈ c.seats)
    (whose : chair = s.chuPaiPlayerIndex ∨ own = 0) (pos : 0 < n)
    (held : n ≤ (s.player chair).pai.shouPai tile) (size : own + 3 = n + own') :
    Sound c own' (jumpToPlayerIndex (s.update chair fun p => (p.decr tile n).lay sec) chair) := by
  refine sound.take seated whose pos held rfl ?_
  have extra : (if chair = s.chuPaiPlayerIndex then own else 0) = own := by
    cases whose with
    | inl turn => exact if_pos turn
    | inr none_more => simp [none_more]
  rw [extra]
  simp only [Player.lay, Player.decr, List.length_append, List.length_singleton]
  omega

/-- A claimed meld gives its player the turn. -/
theorem Sound.claim {own' : Int} {chair tile : Nat} {n : Int} {s₁ s₂ : State} (sec : Section)
    (sound : Sound c 0 s) (seated : chair ∈ c.seats) (pos : 0 < n)
    (held : n ≤ (s.player chair).pai.shouPai tile) (size : 3 = n + own')
    (marked : s₁.core = s.core)
    (after : s₂.core = ((popDesk s₁).update chair fun p => (p.decr tile n).lay sec).core) :
    Sound c own' (jumpToPlayerIndex s₂ chair) := by
  have popped : Sound c 0 (popDesk s₁) :=
    (sound.of_core marked).congr rfl rfl (fun i => (player_popDesk s₁ i).1)
      fun i => (player_popDesk s₁ i).2
  have held : n ≤ ((popDesk s₁).player chair).pai.shouPai tile := by
    rw [(player_popDesk s₁ chair).1, pai_of_core marked]
    exact held
  have laid : Sound c own' (jumpToPlayerIndex
      ((popDesk s₁).update chair fun p => (p.decr tile n).lay sec) chair) :=
    popped.meld sec seated (.inr rfl) pos held (by omega)
  exact laid.of_core (congrArg (fun s => jumpToPlayerIndex s chair) after)

theorem Sound.peng {chair tile : Nat} (sound : Sound c 0 s) (answers : List Waiting)
    (seated : chair ∈ c.seats) (held : 2 ≤ (s.player chair).pai.shouPai tile) :
    Sound c 1 (jumpToPlayerIndex (checkAllPass c answers (adjustShouPai (popDesk
      (lastActionIsCanPenghu c (cleanGzh s chair) chair tile answers)) chair .peng tile)) chair) := by
  have marked : (lastActionIsCanPenghu c (cleanGzh s chair) chair tile answers).core = s.core := by
    rw [core_lastActionIsCanPenghu, core_cleanGzh]
  exact sound.claim _ seated (by decide) held (by decide) marked (core_checkAllPass answers)

theorem Sound.mingGang {chair tile : Nat} (sound : Sound c 0 s) (answers : List Waiting)
    (seated : chair ∈ c.seats) (held : (s.player chair).pai.shouPai tile = 3) :
    Sound c 0 (jumpToPlayerIndex (checkAllPass c answers (adjustShouPai (popDesk
      (cleanGzh s chair)) chair .mingGang tile)) chair) :=
  sound.claim _ seated (by decide) (le_of_eq held.symm) (by decide) (core_cleanGzh chair)
    (core_checkAllPass answers)

theorem Sound.anGang {tile : Nat} (sound : Sound c 1 s)
    (held : s.chuPaiPlayer.pai.shouPai tile = 4) :
    Sound c 0 (jumpToPlayerIndex (adjustShouPai (cleanGzh s s.chuPaiPlayerIndex)
      s.chuPaiPlayerIndex .anGang tile) s.chuPaiPlayerIndex) := by
  have marked : Sound c 1 (cleanGzh s s.chuPaiPlayerIndex) := sound.of_core (core_cleanGzh _)
  have hand := congrArg (fun s : State => s.chuPaiPlayer.pai.shouPai tile)
    (core_cleanGzh (s := s) s.chuPaiPlayerIndex)
  exact marked.meld _ sound.seated (.inl rfl) (by decide) (le_of_eq (hand.trans held).symm)
    (by decide)

/-- The tile added to a triplet leaves the hand. -/
theorem Sound.baGang {tile : Nat} {old : Section} (sound : Sound c 1 s)
    (held : 0 < s.chuPaiPlayer.pai.shouPai tile)
    (found : s.chuPaiPlayer.pai.mingPai.find? (Section.isPeng tile) = some old) :
    Sound c 0 (adjustShouPai s s.chuPaiPlayerIndex .baGang tile) := by
  have laid := List.mem_of_find?_eq_some found
  have peng := List.find?_some found
  have length := List.length_eraseP_of_mem laid peng
  have pos := List.length_pos_of_mem laid
  have same : adjustShouPai s s.chuPaiPlayerIndex .baGang tile =
      s.update s.chuPaiPlayerIndex fun p => p.joinPeng tile old.whoee := by
    unfold adjustShouPai
    dsimp only
    rw [show (s.player s.chuPaiPlayerIndex).pai.mingPai.find? (Section.isPeng tile) = some old
      from found]
  have taken : Sound c 0 (jumpToPlayerIndex
      (s.update s.chuPaiPlayerIndex fun p => p.joinPeng tile old.whoee) s.chuPaiPlayerIndex) := by
    refine sound.take sound.seated (.inl rfl) (by decide) held rfl ?_
    rw [if_pos rfl, Player.joinPeng, List.length_append, List.length_singleton]
    simp only [State.chuPaiPlayer] at length pos
    omega
  rw [same]
  exact taken.congr rfl rfl (fun _ => rfl) fun _ => rfl

/-! ### Who holds one tile more -/

/-- While claims are asked for, the discard is in no hand. -/
def own : FSM → Int
  | .waitActionAfterChuPai _ => 0
  | _ => 1

/-- The tile of a gang that is offered or robbed is still in the hand. -/
def Held (s : State) : Prop :=
  match s.fsm with
  | .waitActionAfterMoPai w =>
      ∀ tile, (Action.baGang, tile) ∈ w.actions → 0 < s.chuPaiPlayer.pai.shouPai tile
  | .waitQiangGangHu tile _ => 0 < s.chuPaiPlayer.pai.shouPai tile
  | _ => True

structure InTurn (c : Conf) (s : State) : Prop where
  sound : s.fsm ≠ .over → Sound c (own s.fsm) s
  held : Held s

theorem inTurn_doBalance : InTurn c (doBalance s) := ⟨fun running => absurd rfl running, trivial⟩

theorem Sound.chuPai (sound : Sound c 1 s) : InTurn c (chuPai s) := ⟨fun _ => sound.fsm _, trivial⟩

theorem Sound.baipai (sound : Sound c 1 s) (chair : Nat) : InTurn c (baipai c s chair) := by
  unfold MaajanNanchong.baipai
  split
  · exact sound.chuPai
  · exact ⟨fun _ => sound.fsm _, trivial⟩

theorem Sound.baipaiOrChuPai (sound : Sound c 1 s) : InTurn c (baipaiOrChuPai c s) := by
  unfold MaajanNanchong.baipaiOrChuPai
  split
  · exact sound.baipai _
  · exact sound.chuPai

theorem Sound.startTurn {actions : List (Action × Nat)} (sound : Sound c 1 s)
    (held : ∀ tile, (Action.baGang, tile) ∈ actions → 0 < s.chuPaiPlayer.pai.shouPai tile) :
    InTurn c (startTurn c s actions) := by
  unfold MaajanNanchong.startTurn
  split
  · exact sound.baipaiOrChuPai
  · exact ⟨fun _ => sound.congr rfl rfl (fun _ => rfl) fun _ => rfl, held⟩

theorem Sound.firstTurn (sound : Sound c 1 s) (tile : Option Nat) :
    InTurn c (MaajanNanchong.startTurn c s (getActionsFirstTurn c s s.chuPaiPlayerIndex tile)) := by
  apply sound.startTurn
  intro t offered
  exact absurd (mem_getActionsFirstTurn offered).1 MaajanXuezhan.baGang_not_offered_first

theorem Sound.moPai (sound : Sound c 0 s) (rnd : Nat) : InTurn c (moPai c s rnd) := by
  cases moPai_cases c s rnd with
  | inl exhausted =>
      rw [exhausted.2]
      exact inTurn_doBalance
  | inr drawn =>
      obtain ⟨tile, dealer, deal, _, rfl, same⟩ := drawn
      have marked : Sound c 0 (cleanGsp (cleanGzh s s.chuPaiPlayerIndex) s.chuPaiPlayerIndex) :=
        sound.of_core (by rw [core_cleanGsp, core_cleanGzh])
      rw [same]
      apply (marked.draw deal).startTurn
      intro t offered
      obtain ⟨held, _⟩ := MaajanXuezhan.baGang_offered (mem_generalActions (mem_getActions offered).1)
      cases held with
      | inl held => exact held
      | inr drawn =>
          subst drawn
          exact draw_held marked.nonneg tile dealer

theorem InTurn.done (now : InTurn c s) (chair : Nat) (action : Option (Action × Nat)) :
    InTurn c (doneLastAction s chair action) :=
  ⟨fun running => (now.sound running).done chair action, now.held⟩

theorem Sound.update {own : Int} {f : Player → Player} (sound : Sound c own s) (chair : Nat)
    (hand : ∀ p, (f p).pai.shouPai = p.pai.shouPai)
    (melds : ∀ p, (f p).pai.mingPai = p.pai.mingPai) : Sound c own (s.update chair f) := by
  refine sound.congr rfl rfl ?_ ?_
  · intro i
    by_cases here : i = chair
    · subst here
      rw [State.update_self, hand]
    · rw [State.update_of_ne here]
  · intro i
    by_cases here : i = chair
    · subst here
      rw [State.update_self, melds]
    · rw [State.update_of_ne here]

theorem InTurn.update {f : Player → Player} (now : InTurn c s) (chair : Nat)
    (pai : ∀ p, (f p).pai = p.pai) : InTurn c (s.update chair f) := by
  have turn : (s.update chair f).chuPaiPlayer.pai = s.chuPaiPlayer.pai := by
    by_cases here : s.chuPaiPlayerIndex = chair
    · subst here
      exact (congrArg Player.pai (State.update_self _ _ _)).trans (pai _)
    · exact congrArg Player.pai (State.update_of_ne here)
  constructor
  · intro running
    exact (now.sound running).update chair (fun p => by rw [pai]) fun p => by rw [pai]
  · have held := now.held
    unfold Held at held ⊢
    rw [turn]
    exact held

theorem InTurn.declared (own : OwnTurn c s) (now : InTurn c s) (chair : Nat) (baoting : Int) :
    InTurn c (onBaoting c s chair baoting) := by
  rcases onBaoting_cases c s chair baoting with same | ⟨phase, _, same | ⟨_, same⟩⟩
  · rw [same]
    exact now
  · rw [same]
    exact now.update chair fun _ => rfl
  · have sound := now.sound (by rw [phase]; nofun)
    have turn := own.offers
    rw [phase] at sound
    rw [Offers, phase] at turn
    rw [same, ← show s.chuPaiPlayerIndex = c.zhuang from turn]
    have heard : Sound c 1 (s.update chair fun p => p.declare baoting) :=
      sound.update chair (fun _ => rfl) fun _ => rfl
    exact heard.firstTurn _

theorem InTurn.tips (own : OwnTurn c s) (now : InTurn c s) (chairs : List Nat) :
    InTurn c (chairs.foldl (sendBaotingTips c) s) := by
  have both := @tips_keep c s (fun s => OwnTurn c s ∧ InTurn c s)
    (fun s chair baoting inv => ⟨ownTurn_onBaoting inv.1 chair baoting, inv.2.declared inv.1 _ _⟩)
    (fun s chair info inv => ⟨inv.1.update chair (fun _ => rfl) fun _ => rfl,
      inv.2.update chair fun _ => rfl⟩)
    ⟨own, now⟩ chairs
  exact both.2

theorem started_inTurn (start : Started c s) : InTurn c s := by
  obtain ⟨s₀, rnd, dealing, rfl⟩ := started_dealing start
  split
  · have asking : InTurn c { s₀ with fsm := .waitBaoTing } :=
      ⟨fun _ => dealing.sound.fsm _, trivial⟩
    have unanswered : OwnTurn c { s₀ with fsm := .waitBaoTing } := ⟨trivial, dealing.turn⟩
    exact asking.tips unanswered c.seats
  · have sound : Sound c 1 (jumpToPlayerIndex s₀ c.zhuang) := by
      rw [← dealing.turn]
      exact dealing.sound
    have chosen : Sound c 1 ((jumpToPlayerIndex s₀ c.zhuang).update c.zhuang fun p =>
        { p with moPai := choiceFirstTurnMoPai (jumpToPlayerIndex s₀ c.zhuang) rnd }) :=
      sound.update _ (fun _ => rfl) fun _ => rfl
    exact chosen.firstTurn _

/-- A lay-out that the table accepts comes from the player who is asked for it. -/
def LaidOutInTurn (s : State) (r : Request) : Prop :=
  ∀ baipai cards, Lays s r baipai cards → r.chair = s.chuPaiPlayerIndex

theorem Discards.sound {tile : Nat} (discards : Discards s r tile) (now : InTurn c s) :
    Sound c 0 (selfPassed c (discard s tile) tile) := by
  have sound := now.sound (by rw [discards.phase]; nofun)
  rw [discards.phase] at sound
  have held := sound.nonneg s.chuPaiPlayerIndex tile
  have some_held := discards.held
  have gone : Sound c 0 (discard s tile) := sound.discard (by
    simp only [State.chuPaiPlayer] at some_held ⊢
    omega)
  exact gone.of_core (core_selfPassed tile)

theorem Answers.sound {tile : Nat} {answers : List Waiting} (claims : Answers c s r tile answers)
    (now : InTurn c s) : Sound c 0 s := by
  obtain ⟨_, _, _, _, phase, _⟩ := claims.asked
  have sound := now.sound (by rw [phase]; nofun)
  rw [phase] at sound
  exact sound

theorem Acts.sound {act : Action × Nat} (acts : Acts s r act) (now : InTurn c s) : Sound c 1 s := by
  obtain ⟨_, phase, _⟩ := acts.phase
  have sound := now.sound (by rw [phase]; nofun)
  rw [phase] at sound
  exact sound

theorem Acts.held {tile : Nat} (acts : Acts s r (.baGang, tile)) (now : InTurn c s) :
    0 < s.chuPaiPlayer.pai.shouPai tile := by
  obtain ⟨w, phase, valid⟩ := acts.phase
  have held := now.held
  rw [Held, phase] at held
  exact held tile (valid.resolve_left nofun)

theorem Outcome.inTurn (offers : Offers c s) (now : InTurn c s) (fair : LaidOutInTurn s r)
    (out : Outcome c s r s') : InTurn c s' := by
  -- where only the player on turn is waited for, that player holds the tile more
  have sound : ∀ {fsm : FSM}, s.fsm = fsm → fsm ≠ .over → own fsm = 1 → Sound c 1 s := by
    intro fsm phase running one
    have := now.sound (by rw [phase]; exact running)
    rwa [phase, one] at this
  cases out with
  | refused => exact now
  | declared phase => exact now.declared ⟨phase ▸ trivial, offers⟩ _ _
  | told phase => exact now.tips ⟨phase ▸ trivial, offers⟩ c.seats
  | @laidOut baipai cards lays =>
      have sound := sound lays.phase nofun rfl
      rw [fair baipai cards lays]
      have laid : Sound c 1 (if baipai = 1 then
          s.update s.chuPaiPlayerIndex fun p => p.layOut (cards.getD []) else s) := by
        split
        · exact sound.update _ (fun _ => rfl) fun _ => rfl
        · exact sound
      have turn : (if baipai = 1 then
          s.update s.chuPaiPlayerIndex fun p => p.layOut (cards.getD []) else s).chuPaiPlayerIndex =
            s.chuPaiPlayerIndex := by
        split <;> rfl
      have jumped : Sound c 1 (jumpToPlayerIndex (if baipai = 1 then
          s.update s.chuPaiPlayerIndex fun p => p.layOut (cards.getD []) else s)
            s.chuPaiPlayerIndex) :=
        laid.congr turn.symm rfl (fun _ => rfl) fun _ => rfl
      exact jumped.chuPai
  | offeredAgain phase => exact (sound phase nofun rfl).baipai _
  | unclaimed discards => exact (discards.sound now).next.moPai _
  | discarded discards =>
      refine ⟨fun _ => ?_, trivial⟩
      exact (discards.sound now).congr rfl rfl (fun _ => rfl) fun _ => rfl
  | answered claims => exact ⟨fun _ => (claims.sound now).fsm _, trivial⟩
  | peng claims first _ listed =>
      have offer := claims.offered.each _ first
      have held := (MaajanXuezhan.claim_offered (mem_generalActions
        (mem_getActions (offer.mem_getActions listed)).1)).2.1 rfl
      exact ((claims.sound now).peng _ offer.seated held).baipaiOrChuPai.done _ _
  | mingGang claims first _ listed =>
      have offer := claims.offered.each _ first
      have held := (MaajanXuezhan.claim_offered (mem_generalActions
        (mem_getActions (offer.mem_getActions listed)).1)).2.2.1 rfl
      exact (((claims.sound now).mingGang _ offer.seated held).moPai _).done _ _
  | @allPassed tile answers claims =>
      have passed := (claims.sound now).of_core (core_checkAllPass (c := c)
        (MaajanXuezhan.sortAnswers (answers.filter fun w => w.done.isSome)))
      exact passed.next.moPai _
  | anGang acts =>
      obtain ⟨w, own, listed⟩ := acts.offered offers nofun
      exact (((acts.sound now).anGang (own.anGang _ listed).1).moPai _).done _ _
  | baGang acts =>
      obtain ⟨w, own, listed⟩ := acts.offered offers nofun
      obtain ⟨old, found⟩ := own.baGang _ listed
      have gone := (acts.sound now).baGang (acts.held now) found
      have marked := gone.of_core (core_cleanGzh s.chuPaiPlayerIndex)
      exact ((marked.jump (acts.sound now).seated).moPai _).done _ _
  | robbable acts =>
      exact ⟨fun _ => (acts.sound now).congr rfl rfl (fun _ => rfl) fun _ => rfl, acts.held now⟩
  | passed acts => exact (acts.sound now).baipaiOrChuPai
  | robAnswered phase =>
      have held := now.held
      rw [Held, phase] at held
      exact ⟨fun _ => (sound phase nofun rfl).fsm _, held⟩
  | @unrobbed tile _ waiting phase =>
      have held := now.held
      rw [Held, phase] at held
      rw [Offers, phase] at offers
      obtain ⟨old, found⟩ := offers.1
      have same := core_checkPasses (c := c) (s := s) .qiangGangHu false tile waiting
      generalize waiting.foldl (checkPass c .qiangGangHu false tile) s = passed at same ⊢
      have turn := turn_of_core same
      have pai : passed.chuPaiPlayer.pai = s.chuPaiPlayer.pai := by
        rw [State.chuPaiPlayer, turn, pai_of_core same]
        rfl
      rw [← pai] at held found
      have gone := ((sound phase nofun rfl).of_core same).baGang held found
      rw [← turn]
      exact ((gone.of_core (core_cleanGzh _)).done _ _).moPai _
  | won => exact inTurn_doBalance

theorem Round.inTurn (reached : Round c LaidOutInTurn s) : InTurn c s := by
  have both := @Runs.Reaches.invariant _ _ _ _ _ (fun s => Offers c s ∧ InTurn c s) _ reached
    (fun s start => ⟨started_offers start, started_inTurn start⟩) ?_
  · exact both.2
  · intro s r s' inv fair next
    have out := next ▸ step_outcome inv.1 r
    exact ⟨out.offers inv.1, out.inTurn inv.1 inv.2 fair⟩

/-! ### How the turn passes -/

/-- The turn stays, passes in seat order with a draw while there are tiles, or goes to the
player whose meld with the discard is accepted. -/
inductive Passes (c : Conf) (s s' : State) : Prop
  | stays : s'.chuPaiPlayerIndex = s.chuPaiPlayerIndex → Passes c s s'
  | draws : s'.chuPaiPlayerIndex = nextChair c s.chuPaiPlayerIndex →
      (s.dealer.remainCount = 0 ∧ s'.fsm = .over ∨
        s.dealer.remainCount = s'.dealer.remainCount + 1 ∧ s'.chuPaiPlayer.moPai.isSome) →
      Passes c s s'
  | claims {action : Action} {tile : Nat} : action = .peng ∨ action = .mingGang →
      s.chuPaiPlayer.chuPai = some tile →
      (action, tile) ∈ claimOffers c s tile s'.chuPaiPlayerIndex →
      s'.chuPaiPlayer.lastAction = some (action, tile) → Passes c s s'

theorem turn_baipai (chair : Nat) : (baipai c s chair).chuPaiPlayerIndex = s.chuPaiPlayerIndex := by
  unfold baipai
  split <;> rfl

theorem turn_baipaiOrChuPai : (baipaiOrChuPai c s).chuPaiPlayerIndex = s.chuPaiPlayerIndex := by
  unfold baipaiOrChuPai
  split
  · exact turn_baipai _
  · rfl

/-- What is asked first changes no player and no tile. -/
theorem startTurn_frame (c : Conf) (s : State) (actions : List (Action × Nat)) :
    (startTurn c s actions).chuPaiPlayerIndex = s.chuPaiPlayerIndex ∧
      (startTurn c s actions).player = s.player ∧ (startTurn c s actions).dealer = s.dealer := by
  unfold startTurn baipaiOrChuPai baipai
  split
  · split
    · split <;> exact ⟨rfl, rfl, rfl⟩
    · exact ⟨rfl, rfl, rfl⟩
  · exact ⟨rfl, rfl, rfl⟩

theorem turn_moPai (rnd : Nat) : (moPai c s rnd).chuPaiPlayerIndex = s.chuPaiPlayerIndex := by
  cases moPai_cases c s rnd with
  | inl exhausted =>
      rw [exhausted.2]
      rfl
  | inr drawn =>
      obtain ⟨tile, dealer, _, _, rfl, same⟩ := drawn
      rw [same, (startTurn_frame _ _ _).1]
      rfl

theorem moPai_draws (c : Conf) (s : State) (rnd : Nat) :
    s.dealer.remainCount = 0 ∧ (moPai c s rnd).fsm = .over ∨
      s.dealer.remainCount = (moPai c s rnd).dealer.remainCount + 1 ∧
        (moPai c s rnd).chuPaiPlayer.moPai.isSome := by
  cases moPai_cases c s rnd with
  | inl exhausted =>
      have empty := MaajanTileDealer.wall_of_dealOne_none exhausted.1
      rw [← Multiset.card_eq_zero, MaajanTileDealer.card_wall] at empty
      rw [exhausted.2]
      exact .inl ⟨empty, rfl⟩
  | inr drawn =>
      obtain ⟨tile, dealer, deal, drawn, is_drawn, same⟩ := drawn
      obtain ⟨turn, player, wall⟩ := startTurn_frame c drawn
        (getActions c drawn drawn.chuPaiPlayerIndex (some tile) none false)
      refine .inr ⟨?_, ?_⟩
      · rw [same, wall, (MaajanTileDealer.dealOne_wall deal).2, is_drawn]
        rfl
      · rw [same, State.chuPaiPlayer, turn, player, is_drawn]
        simp [draw, onMoPai, State.update]

theorem Passes.ofNext {s₁ : State} (turn : s₁.chuPaiPlayerIndex = s.chuPaiPlayerIndex)
    (dealer : s₁.dealer = s.dealer) (rnd : Nat) :
    Passes c s (moPai c (nextPlayerIndex c s₁) rnd) := by
  have next : (moPai c (nextPlayerIndex c s₁) rnd).chuPaiPlayerIndex =
      nextChair c s.chuPaiPlayerIndex := by
    rw [turn_moPai, ← turn]
    rfl
  refine .draws next ?_
  rw [← dealer]
  exact moPai_draws c (nextPlayerIndex c s₁) rnd

theorem turn_adjustShouPai (chair : Nat) (action : Action) (tile : Nat) :
    (adjustShouPai s chair action tile).chuPaiPlayerIndex = s.chuPaiPlayerIndex := by
  unfold adjustShouPai
  split
  all_goals first | rfl | (split <;> rfl)

theorem turn_onBaoting (own : OwnTurn c s) (chair : Nat) (baoting : Int) :
    (onBaoting c s chair baoting).chuPaiPlayerIndex = s.chuPaiPlayerIndex := by
  rcases onBaoting_cases c s chair baoting with same | ⟨phase, _, same | ⟨_, same⟩⟩
  · rw [same]
  · rw [same]
    rfl
  · have turn := own.offers
    rw [Offers, phase] at turn
    rw [same, actionAfterBaoting, (startTurn_frame _ _ _).1]
    exact Eq.symm turn

theorem turn_tips (own : OwnTurn c s) (chairs : List Nat) :
    (chairs.foldl (sendBaotingTips c) s).chuPaiPlayerIndex = s.chuPaiPlayerIndex := by
  have both := @tips_keep c s
    (fun s' => OwnTurn c s' ∧ s'.chuPaiPlayerIndex = s.chuPaiPlayerIndex)
    (fun s chair baoting inv => ⟨ownTurn_onBaoting inv.1 chair baoting,
      (turn_onBaoting inv.1 chair baoting).trans inv.2⟩)
    (fun s chair info inv => ⟨inv.1.update chair (fun _ => rfl) fun _ => rfl, inv.2⟩)
    ⟨own, rfl⟩ chairs
  exact both.2

theorem lastAction_done (chair : Nat) (action : Option (Action × Nat))
    (turn : s.chuPaiPlayerIndex = chair) :
    (doneLastAction s chair action).chuPaiPlayer.lastAction = action :=
  if_pos turn

theorem Outcome.passes (offers : Offers c s) (fair : LaidOutInTurn s r)
    (out : Outcome c s r s') : Passes c s s' := by
  cases out with
  | refused => exact .stays rfl
  | declared phase => exact .stays (turn_onBaoting ⟨phase ▸ trivial, offers⟩ _ _)
  | told phase => exact .stays (turn_tips ⟨phase ▸ trivial, offers⟩ _)
  | laidOut lays => exact .stays (fair _ _ lays)
  | offeredAgain => exact .stays (turn_baipai _)
  | @unclaimed tile =>
      have same := core_selfPassed (c := c) (s := discard s tile) tile
      have turn := turn_of_core same
      have dealer := dealer_of_core same
      exact @Passes.ofNext c s _ turn dealer r.rnd
  | @discarded tile =>
      have turn := turn_of_core (core_selfPassed (c := c) (s := discard s tile) tile)
      exact .stays turn
  | answered | robbable | robAnswered | won => exact .stays rfl
  | @peng tile answers top claims first _ listed =>
      have offer := claims.offered.each top first
      have turn : (doPeng c s top.chairId tile (MaajanXuezhan.sortAnswers
          (answers.filter fun w => w.done.isSome))).chuPaiPlayerIndex = top.chairId :=
        turn_baipaiOrChuPai
      rw [offer.actions] at listed
      refine .claims (.inl rfl) claims.discarded ?_ (lastAction_done _ _ turn_baipaiOrChuPai)
      rw [turn]
      exact listed
  | @mingGang tile answers top claims first _ listed =>
      have offer := claims.offered.each top first
      have turn : (doMingGang c s top.chairId tile (MaajanXuezhan.sortAnswers
          (answers.filter fun w => w.done.isSome)) r.rnd).chuPaiPlayerIndex = top.chairId :=
        turn_moPai _
      rw [offer.actions] at listed
      refine .claims (.inr rfl) claims.discarded ?_ (lastAction_done _ _ (turn_moPai _))
      rw [turn]
      exact listed
  | @allPassed tile answers =>
      have same := core_checkAllPass (c := c) (s := s)
        (MaajanXuezhan.sortAnswers (answers.filter fun w => w.done.isSome))
      exact .ofNext (turn_of_core same) (dealer_of_core same) _
  | anGang | baGang => exact .stays (turn_moPai _)
  | passed => exact .stays turn_baipaiOrChuPai
  | @unrobbed tile waiting waiting' phase =>
      have same := core_checkPasses (c := c) (s := s) .qiangGangHu false tile waiting'
      have turn := (turn_adjustShouPai s.chuPaiPlayerIndex .baGang tile).trans (turn_of_core same)
      exact .stays ((turn_moPai _).trans turn)

/-! ### Who is asked -/

/-- Who the table waits for. -/
def AskedToAct (s : State) (chair : Nat) : Prop :=
  match s.fsm with
  | .waitBaoTing => (s.player chair).baoting = none
  | .waitBaiPai | .waitChuPai => chair = s.chuPaiPlayerIndex
  | .waitActionAfterMoPai w => w.chairId = chair
  | .waitActionAfterChuPai waiting | .waitQiangGangHu _ waiting => ∃ w ∈ waiting, w.chairId = chair
  | .over => False

theorem checkActionBeforeDo_unasked {waiting : List Waiting} {chair : Nat}
    (unasked : ¬ ∃ w ∈ waiting, w.chairId = chair) (action : Action) (tile session : Nat) :
    MaajanXuezhan.checkActionBeforeDo waiting chair action tile session = none := by
  cases h : MaajanXuezhan.checkActionBeforeDo waiting chair action tile session with
  | none => rfl
  | some w =>
      obtain ⟨listed, same, _⟩ := MaajanXuezhan.accepted h
      exact absurd ⟨w, listed, same⟩ unasked

/-- Who is not asked changes nothing. -/
theorem step_unasked (offers : Offers c s) (fair : LaidOutInTurn s r) (msg : r.msg ≠ .reconnect)
    (unasked : ¬ AskedToAct s r.chair) : step c s r = s := by
  unfold step
  split
  · rfl
  unfold AskedToAct at unasked
  split
  · exact absurd ‹_› msg
  · rename_i phase _
    rw [phase] at unasked
    unfold onBaoting
    rw [phase]
    exact if_pos (Option.isSome_iff_ne_none.2 unasked)
  · rename_i baipai cards phase laid
    rw [phase] at unasked
    unfold onBaipai
    split
    · rfl
    split
    · rfl
    · rename_i fresh can
      refine absurd (fair baipai cards
        ⟨phase, laid, Bool.eq_false_of_not_eq_true fresh, ?_⟩) unasked
      intro one
      exact Bool.eq_true_of_not_eq_false fun cannot => can ⟨one, cannot⟩
  · rename_i tile phase _
    rw [phase] at unasked
    exact if_pos (.inl fun same => unasked same.symm)
  · rename_i w action tile session phase _
    rw [phase] at unasked
    have none_found : MaajanXuezhan.checkActionBeforeDo [w] r.chair action tile session = none :=
      checkActionBeforeDo_unasked (by simpa using unasked) action tile session
    split
    · unfold onActionAfterMoPai
      rw [none_found]
    · rfl
  · rename_i waiting action tile session phase _
    rw [phase] at unasked
    rw [Offers, phase] at offers
    obtain ⟨_, _, _, unsettled⟩ := offers
    have same : answer waiting r.chair action tile session = waiting := by
      unfold answer
      rw [checkActionBeforeDo_unasked unasked]
    split
    · unfold onActionAfterChuPai
      dsimp only
      rw [same, unsettled, ← phase]
      rfl
    · rfl
  · rename_i robbed waiting action tile session phase _
    rw [phase] at unasked
    split
    · unfold onActionQiangGangHu
      rw [checkActionBeforeDo_unasked unasked]
    · rfl
  · rfl

/-- While lay-outs come in turn, the player on turn has one tile more than the others
wherever a discard or a lay-out is waited for, the turn passes in order, and only who is
asked changes the table. -/
theorem turn_safe (reached : Round c LaidOutInTurn s) :
    (s.fsm = .waitChuPai ∨ s.fsm = .waitBaiPai → s.chuPaiPlayerIndex ∈ c.seats ∧
      ∀ i ∈ c.seats, totalCount (s.player i).pai.shouPai % 3 =
        if i = s.chuPaiPlayerIndex then 2 else 1) ∧
    ∀ r, LaidOutInTurn s r → Passes c s (step c s r) ∧
      (r.msg ≠ .reconnect → ¬ AskedToAct s r.chair → step c s r = s) := by
  have offers := reached.offers
  have now := reached.inTurn
  refine ⟨?_, ?_⟩
  · intro waits
    have sound : Sound c 1 s := by
      cases waits with
      | inl phase | inr phase =>
          have sound := now.sound (by rw [phase]; nofun)
          rwa [phase] at sound
    refine ⟨sound.seated, fun i seated => ?_⟩
    rw [sound.mod seated]
    split <;> rfl
  · intro r fair
    exact ⟨(step_outcome offers r).passes offers fair, step_unasked offers fair⟩

/-- Two players with seven tiles each of one suit, who may lay cards out. -/
def twoPlayers : Conf where
  chairCount := 2
  seats := [1, 2]
  zhuang := 1
  playOption := some .erRenYiFang
  play :=
    { siDui := false, guoZhuangHu := true, guoShouPeng := true, dghDianPao := true,
      ziMoJiaFan := false, tianHu := true, diHu := true, huAtLeast2 := false,
      daDuiZiFan2 := false, kaXinWu := false, queYiMen := false, kaErTiao := false, yaoJiu := true,
      menQing := true, yiTiaoLong := false, qiangGang := true, baoJiao := false, baiPai := true,
      boZiMo := false, qingYiSeFan := some 2, tileCount := 7, tileMen := some 1 }
  pairs := id
  chairs_le := MaajanXuezhan.Conf.chairs_le_two
  seats_nodup := MaajanXuezhan.Conf.seats_nodup_two
  seats_in := MaajanXuezhan.Conf.seats_in_two
  two_seats := MaajanXuezhan.Conf.two_seats_two
  zhuang_in := MaajanXuezhan.Conf.zhuang_in_two
  pairs_perm := List.Perm.refl
  hand_size := by decide
  enough := by decide

/-- Whether the table is in `FSM_S.WAIT_BAI_PAI`. -/
def FSM.isWaitBaiPai : FSM → Bool
  | .waitBaiPai => true
  | _ => false

theorem FSM.isWaitBaiPai_iff {fsm : FSM} : fsm.isWaitBaiPai = true ↔ fsm = .waitBaiPai := by
  cases fsm <;> simp [isWaitBaiPai]

/-- A deal after which the dealer is asked to lay cards out. -/
theorem deal_waits : ∃ s, onStarted twoPlayers id id 0 = some s ∧ s.fsm = .waitBaiPai ∧
    s.chuPaiPlayerIndex = 1 ∧ (s.player 2).baipai = false ∧
      totalCount (s.player 2).pai.shouPai % 3 = 1 := by
  have waits : ((onStarted twoPlayers id id 0).any fun s =>
      s.fsm.isWaitBaiPai && decide (s.chuPaiPlayerIndex = 1 ∧ (s.player 2).baipai = false ∧
        totalCount (s.player 2).pai.shouPai % 3 = 1)) = true := by decide +kernel
  obtain ⟨s, start, holds⟩ := (Option.any_eq_true _ _).1 waits
  rw [Bool.and_eq_true, decide_eq_true_eq] at holds
  exact ⟨s, start, FSM.isWaitBaiPai_iff.1 holds.1, holds.2⟩

/-- Each player does not lay out when it is asked, and discards. -/
def refusals : List Request :=
  [⟨1, .baiPai 0 none, 0⟩, ⟨1, .chuPai 12, 0⟩, ⟨2, .baiPai 0 none, 0⟩, ⟨2, .chuPai 11, 0⟩]

theorem refusals_turn_safe : ∃ s, Round twoPlayers LaidOutInTurn s ∧ s.fsm = .waitBaiPai ∧
    (s.player 2).pai.deskTiles = [11] ∧ ∀ i ∈ twoPlayers.seats,
      totalCount (s.player i).pai.shouPai % 3 = if i = s.chuPaiPlayerIndex then 2 else 1 := by
  have plays : ((onStarted twoPlayers id id 0).any fun s =>
      (refusals.foldlM (fun s r =>
        if r.chair = s.chuPaiPlayerIndex then some (step twoPlayers s r) else none) s).any fun s =>
          s.fsm.isWaitBaiPai && decide ((s.player 2).pai.deskTiles = [11])) = true := by
    decide +kernel
  obtain ⟨s, start, plays⟩ := (Option.any_eq_true _ _).1 plays
  obtain ⟨s', run, now⟩ := (Option.any_eq_true _ _).1 plays
  rw [Bool.and_eq_true, decide_eq_true_eq] at now
  have phase := FSM.isWaitBaiPai_iff.1 now.1
  have reached : Round twoPlayers LaidOutInTurn s' := by
    refine Runs.foldlM_invariant (fun _ s => Round twoPlayers LaidOutInTurn s)
      (fun r _ s s' inv next => ?_) (.start ⟨id, id, 0, start⟩) run
    split at next
    · rename_i here
      cases next
      exact .next r inv (fun _ _ _ => here) rfl
    · cases next
  exact ⟨s', reached, phase, now.2, ((turn_safe reached).1 (.inr phase)).2⟩

/-- A player who is not asked says no to laying cards out, and has the turn without a
tile to discard. -/
theorem refusal_takes_turn : ∃ s r, Runs.Reachable (Started twoPlayers) (Steps twoPlayers) s ∧
    r.chair ∈ twoPlayers.seats ∧ r.msg = .baiPai 0 none ∧ ¬ AskedToAct s r.chair ∧
      (step twoPlayers s r).chuPaiPlayerIndex ≠ s.chuPaiPlayerIndex ∧
      (step twoPlayers s r).fsm = .waitChuPai ∧
      totalCount (step twoPlayers s r).chuPaiPlayer.pai.shouPai % 3 = 1 := by
  obtain ⟨s, start, phase, turn, fresh, count⟩ := deal_waits
  have next : step twoPlayers s ⟨2, .baiPai 0 none, 0⟩ = chuPai (jumpToPlayerIndex s 2) := by
    simp [step, phase, onBaipai, fresh, twoPlayers]
  refine ⟨s, ⟨2, .baiPai 0 none, 0⟩, .start ⟨id, id, 0, start⟩, by decide, rfl, ?_, ?_⟩
  · simp [AskedToAct, phase, turn]
  · rw [next, turn]
    exact ⟨show (2 : Nat) ≠ 1 by decide, rfl, count⟩

end FkServer.MaajanNanchong
