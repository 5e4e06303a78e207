import FkServer.MaajanNanchong.Announced

/-!
Runs of a round in which the players keep to what they have announced: every hand stays
what was announced, and who has laid cards out discards what that named and from then on
the tile drawn. Nothing but the players makes it so.
-/
namespace FkServer.MaajanNanchong

open MaajanXuezhan (Action Section Waiting)

variable {c : Conf} {s s' : State} {r : Request} {left : List Nat}

/-! ### What requests keep -/

/-- The gang of a drawn tile. -/
theorem Acts.waits {tile : Nat} (acts : Acts s r (.anGang, tile)) (offers : Offers c s)
    (keeps : Keeps c 1 s) (fair : Announces c s r) :
    s.chuPaiPlayer.pai.shouPai tile = 4 ∧
      Waits c (ganged s s.chuPaiPlayerIndex .anGang tile) := by
  obtain ⟨w, own, listed⟩ := acts.offered offers nofun
  obtain ⟨held, ready⟩ := own.anGang tile listed
  have holds := keeps.holds rfl
  refine ⟨held, waits_ganged holds.rule holds.melds (fun _ => .inl rfl) ?_ ?_⟩
  · intro declared _
    rw [ganged, adjustShouPai, State.update_self]
    exact ready declared
  · intro lays
    have laid := fair.gangs .anGang tile (.anGang acts)
    rw [acts.own] at laid
    exact laid lays

/-- The gang of a triplet, which a player who has declared does not have. -/
theorem waits_baGang {tile : Nat} {old : Section} (holds : Holds c s.chuPaiPlayer)
    (found : s.chuPaiPlayer.pai.mingPai.find? (Section.isPeng tile) = some old)
    (laid : s.chuPaiPlayer.baipai = true → Laid c (ganged s s.chuPaiPlayerIndex .baGang tile)) :
    Waits c (ganged s s.chuPaiPlayerIndex .baGang tile) := by
  have undeclared : s.chuPaiPlayer.baoting ≠ some true := by
    intro declared
    exact absurd ((holds.melds declared tile).symm.trans found) nofun
  refine waits_ganged holds.rule holds.melds ?_ ?_ laid
  · exact fun declared => absurd declared undeclared
  · exact fun declared => absurd declared undeclared

/-- The claimed gang. -/
theorem Answers.waits {tile : Nat} {answers : List Waiting} {top : Waiting}
    (claims : Answers c s r tile answers) (stays : Stays c left s) (fair : Announces c s r)
    (listed : top ∈ answers) (done : top.done = some (.mingGang, tile))
    (offered : (Action.mingGang, tile) ∈ top.actions) :
    (s.player top.chairId).pai.shouPai tile = 3 ∧
      Waits c (ganged s top.chairId .mingGang tile) := by
  have offer := claims.offered.each top listed
  obtain ⟨general, declares⟩ := mem_getActions (offer.mem_getActions offered)
  have held := (MaajanXuezhan.claim_offered (mem_generalActions general)).2.2.1 rfl
  have waits := (claims.keeps stays).waits _ offer.seated (.inr rfl)
  refine ⟨held, waits_ganged waits.rule waits.melds (fun _ => .inr rfl) ?_ ?_⟩
  · intro declared _
    have checked := (List.mem_filter.1 (declares declared)).2
    simp only [Option.isNone_some, Bool.false_or, Bool.and_eq_true] at checked
    rw [ganged, adjustShouPai, State.update_self]
    exact isBaotingCanGang_ming_ready checked.2
  · exact fun lays => claims.laid stays fair listed done lays

theorem Outcome.stays (offers : Offers c s) (now : InTurn c s) (stays : Stays c [] s)
    (fair : Announces c s r) (out : Outcome c s r s') : Stays c [] s' := by
  have keeps : ∀ {fsm : FSM}, s.fsm = fsm → fsm ≠ .over → MaajanNanchong.own fsm = 1 →
      Keeps c 1 s := by
    intro fsm phase running one
    have := stays.running (by rw [phase]; exact running)
    rwa [phase, one] at this
  cases out with
  | refused => exact stays
  | declared phase =>
      exact stays.declared ⟨phase ▸ trivial, offers⟩ r.chair fun _ => List.not_mem_nil
  | told phase => exact stays.tips ⟨phase ▸ trivial, offers⟩ c.seats
  | @laidOut baipai cards lays =>
      have keeps := keeps lays.phase (by simp) rfl
      rw [Offers, lays.phase] at offers
      have turn := fair.inTurn baipai cards lays
      by_cases one : baipai = 1
      · subst one
        have can := lays.can rfl
        cases cards with
        | none => cases can
        | some cards =>
            have held := fair.cards cards lays
            rw [turn] at can held
            rw [turn, if_pos rfl]
            exact (keeps.laidOut offers can held).chuPai
      · rw [turn, if_neg one]
        exact keeps.chuPai
  | offeredAgain phase => exact (keeps phase (by simp) rfl).baipai _
  | unclaimed discards => exact (discards.keeps stays fair).next.moPai _
  | @discarded tile discards =>
      have gone := discards.keeps stays fair
      refine ⟨⟨0, .inl rfl, fun _ => rfl, ?_⟩, (by simp), (by simp), ?_⟩
      · exact gone.congr rfl rfl (fun _ => .refl _) (by simp)
      · intro waiting phase w listed t done
        cases phase
        have undone := (MaajanXuezhan.mem_collect ((c.pairs_perm _).mem_iff.1 listed)).2.2.1
        rw [undone] at done
        cases done
  | @answered tile answers claims =>
      refine ⟨⟨0, .inl rfl, fun _ => rfl, (claims.keeps stays).fsm _⟩, (by simp), (by simp), ?_⟩
      intro waiting phase w listed t done lays
      cases phase
      exact claims.laid stays fair listed done lays
  | @peng tile answers top claims first _ listed =>
      have offer := claims.offered.each top first
      have offered := offer.mem_getActions listed
      have held := (MaajanXuezhan.claim_offered (mem_generalActions
        (mem_getActions offered).1)).2.1 rfl
      have waits := (claims.keeps stays).waits _ offer.seated (.inr rfl)
      obtain ⟨undeclared, fresh⟩ := peng_unannounced waits.rule offered
      have keeps := (claims.keeps stays).peng
        (MaajanXuezhan.sortAnswers (answers.filter fun w => w.done.isSome)) offer.seated held
        undeclared fresh
      exact keeps.baipaiOrChuPai.done _ _
  | @mingGang tile answers top claims first done listed =>
      have offer := claims.offered.each top first
      obtain ⟨held, waits⟩ := claims.waits stays fair first done listed
      have keeps := (claims.keeps stays).mingGang
        (MaajanXuezhan.sortAnswers (answers.filter fun w => w.done.isSome)) offer.seated held waits
      exact (keeps.moPai _).done _ _
  | @allPassed tile answers claims =>
      have passed := (claims.keeps stays).of_core (core_checkAllPass (c := c)
        (MaajanXuezhan.sortAnswers (answers.filter fun w => w.done.isSome)))
      exact passed.next.moPai _
  | anGang acts =>
      obtain ⟨held, waits⟩ := acts.waits offers (acts.keeps stays) fair
      exact (((acts.keeps stays).anGang held waits).moPai _).done _ _
  | @baGang tile acts =>
      obtain ⟨w, own, listed⟩ := acts.offered offers (by simp)
      obtain ⟨old, found⟩ := own.baGang _ listed
      have laid := fair.gangs .baGang tile (.baGang acts)
      rw [acts.own] at laid
      have waits := waits_baGang ((acts.keeps stays).holds rfl) found laid
      have gone := (acts.keeps stays).baGang (acts.held now) found rfl waits
      have marked := gone.of_core (core_cleanGzh s.chuPaiPlayerIndex)
      exact (marked.moPai _).done _ _
  | @robbable tile acts =>
      refine ⟨⟨1, .inr rfl, fun _ => rfl, ?_⟩, (by simp), ?_, (by simp)⟩
      · exact (acts.keeps stays).congr rfl rfl (fun _ => .refl _) fun _ => ⟨rfl, rfl⟩
      · intro t waiting phase lays
        cases phase
        have laid := fair.gangs .baGang tile (.baGang acts)
        rw [acts.own] at laid
        refine (laid lays).congr (alike_adjustShouPai ?_ ?_ .baGang tile)
        · rfl
        · exact .refl _
  | passed acts => exact (acts.keeps stays).baipaiOrChuPai
  | @robAnswered tile waiting waiting' phase =>
      refine ⟨⟨1, .inr rfl, fun _ => rfl, (keeps phase (by simp) rfl).fsm _⟩, (by simp), ?_, (by simp)⟩
      intro t waiting phase' lays
      cases phase'
      have laid := stays.robbed _ _ phase lays
      refine laid.congr (alike_adjustShouPai ?_ ?_ .baGang tile)
      · rfl
      · exact .refl _
  | @unrobbed tile _ waiting phase =>
      have held := now.held
      rw [Held, phase] at held
      rw [Offers, phase] at offers
      obtain ⟨old, found⟩ := offers.1
      have same := core_checkPasses (c := c) (s := s) .qiangGangHu false tile waiting
      have waits := waits_baGang ((keeps phase (by simp) rfl).holds rfl) found (stays.robbed _ _ phase)
      have gone := (keeps phase (by simp) rfl).baGang held found same waits
      generalize waiting.foldl (checkPass c .qiangGangHu false tile) s = passed at same gone ⊢
      have turn := (turn_adjustShouPai s.chuPaiPlayerIndex .baGang tile).trans (turn_of_core same)
      have laid : Keeps c 0 (adjustShouPai passed s.chuPaiPlayerIndex .baGang tile) :=
        gone.congr turn rfl (fun _ => .refl _) (by simp)
      exact ((laid.of_core (core_cleanGzh _)).done _ _).moPai _
  | won running =>
      obtain ⟨own', zero_one, _, keeps⟩ := stays.keeps
      exact keeps.doBalance zero_one

/-! ### The start -/

/-- Before anything is announced nothing is to be kept. -/
theorem keeps_unannounced (sound : Sound c 1 s) (undeclared : ∀ i, (s.player i).baoting ≠ some true)
    (fresh : ∀ i, (s.player i).baipai = false) : Keeps c 1 s := by
  refine ⟨sound, ?_, fun _ => holds_unannounced (undeclared _) (fresh _)⟩
  intro i _ _
  refine ⟨?_, ?_, ?_, ?_⟩
  · exact fun lays => absurd ((fresh i).symm.trans lays) nofun
  · exact fun declared => absurd declared (undeclared i)
  · exact fun declared => absurd declared (undeclared i)
  · exact fun lays => absurd ((fresh i).symm.trans lays) nofun

theorem Stays.allTipped {chairs : List Nat} (own : OwnTurn c s) (stays : Stays c chairs s)
    (rule : c.play.baoJiao = true) : Stays c [] (chairs.foldl (sendBaotingTips c) s) := by
  induction chairs generalizing s with
  | nil => exact stays
  | cons chair chairs ih => exact ih (ownTurn_tips own [chair]) (stays.tipped own rule)

theorem started_stays (start : Started c s) : Stays c [] s := by
  obtain ⟨s₀, rnd, dealing, rfl⟩ := started_dealing start
  have undeclared : ∀ i, (s₀.player i).baoting ≠ some true := by
    intro i
    rw [(dealing.fresh i).baoting]
    nofun
  split
  · rename_i rule
    have keeps := keeps_unannounced (dealing.sound.fsm .waitBaoTing) undeclared
      fun i => (dealing.fresh i).baipai
    have asking : Stays c c.seats { s₀ with fsm := .waitBaoTing } := by
      refine ⟨⟨1, .inr rfl, fun _ => rfl, keeps⟩, ?_, nofun, nofun⟩
      exact fun _ i seated => ⟨(dealing.fresh i).mingPai, fun _ free => absurd seated free⟩
    exact asking.allTipped ⟨trivial, dealing.turn⟩ rule
  · have chosen : ∀ i, ∃ tile, ((jumpToPlayerIndex s₀ c.zhuang).update c.zhuang fun p =>
        { p with moPai := choiceFirstTurnMoPai (jumpToPlayerIndex s₀ c.zhuang) rnd }).player i =
          { s₀.player i with moPai := tile } := by
      intro i
      by_cases here : i = c.zhuang
      · subst here
        exact ⟨_, State.update_self _ _ _⟩
      · exact ⟨(s₀.player i).moPai, State.update_of_ne here⟩
    have sound : Sound c 1 ((jumpToPlayerIndex s₀ c.zhuang).update c.zhuang fun p =>
        { p with moPai := choiceFirstTurnMoPai (jumpToPlayerIndex s₀ c.zhuang) rnd }) := by
      refine Sound.update ?_ _ (fun _ => rfl) fun _ => rfl
      rw [← dealing.turn]
      exact dealing.sound
    refine (keeps_unannounced sound ?_ ?_).startTurn _
    · intro i
      obtain ⟨tile, same⟩ := chosen i
      rw [same]
      exact undeclared i
    · intro i
      obtain ⟨tile, same⟩ := chosen i
      rw [same]
      exact (dealing.fresh i).baipai

theorem Round.stays (reached : Round c (Announces c) s) : InTurn c s ∧ Stays c [] s := by
  have all := @Runs.Reaches.invariant _ _ _ _ _
    (fun s => Offers c s ∧ InTurn c s ∧ Stays c [] s) _ reached
    (fun s start => ⟨started_offers start, started_inTurn start, started_stays start⟩) ?_
  · exact all.2
  · intro s r s' inv fair next
    obtain ⟨offers, now, stays⟩ := inv
    have out := next ▸ step_outcome offers r
    exact ⟨out.offers offers, out.inTurn offers now fair.inTurn, out.stays offers now stays fair⟩

/-! ### What may be discarded -/

/-- The tile drawn last is the only one named. -/
def Drawn (p : Player) : Prop := ∃ tile, p.moPai = some tile ∧ p.canDiscards = some [tile]

/-- The player on `i` has laid cards out and has discarded since. -/
structure Since (i : Nat) (s : State) : Prop where
  laid : (s.player i).baipai = true
  drawn : s.fsm ≠ .over → own s.fsm = 1 → s.chuPaiPlayerIndex = i → Drawn (s.player i)

theorem Since.congr {i : Nat} (since : Since i s)
    (turn : s'.chuPaiPlayerIndex = s.chuPaiPlayerIndex) (running : s.fsm ≠ .over)
    (waited : own s.fsm = 1) (baipai : (s'.player i).baipai = (s.player i).baipai)
    (moPai : (s'.player i).moPai = (s.player i).moPai)
    (canDiscards : (s'.player i).canDiscards = (s.player i).canDiscards) : Since i s' := by
  refine ⟨baipai.trans since.laid, ?_⟩
  intro _ _ here
  obtain ⟨tile, drawn, named⟩ := since.drawn running waited (turn.symm.trans here)
  exact ⟨tile, moPai.trans drawn, canDiscards.trans named⟩

theorem Since.done {i : Nat} (since : Since i s) (chair : Nat) (action : Option (Action × Nat)) :
    Since i (doneLastAction s chair action) :=
  ⟨since.laid, since.drawn⟩

/-- A player who has laid cards out and draws may discard the tile drawn. -/
theorem since_moPai {i : Nat} (laid : (s.player i).baipai = true) (rnd : Nat) :
    Since i (moPai c s rnd) := by
  have marked : (cleanGsp (cleanGzh s s.chuPaiPlayerIndex) s.chuPaiPlayerIndex).core = s.core := by
    rw [core_cleanGsp, core_cleanGzh]
  have still := (alike_of_core marked i).baipai.trans laid
  cases moPai_cases c s rnd with
  | inl exhausted =>
      rw [exhausted.2]
      exact ⟨still, fun running => absurd rfl running⟩
  | inr found =>
      obtain ⟨tile, dealer, _, drawn, rfl, same⟩ := found
      rw [same]
      generalize cleanGsp (cleanGzh s s.chuPaiPlayerIndex) s.chuPaiPlayerIndex = marks at still ⊢
      obtain ⟨turn, player, _⟩ := startTurn_frame c (draw marks tile dealer)
        (getActions c (draw marks tile dealer) (draw marks tile dealer).chuPaiPlayerIndex
          (some tile) none false)
      have own_turn := draw_own marks tile dealer
      refine ⟨?_, ?_⟩
      · rw [player]
        by_cases here : i = marks.chuPaiPlayerIndex
        · subst here
          exact (congrArg Player.baipai own_turn).trans still
        · rw [draw_others here]
          exact still
      · intro _ _ here
        rw [turn] at here
        subst here
        rw [player]
        change Drawn (draw marks tile dealer).chuPaiPlayer
        rw [own_turn]
        exact ⟨tile, rfl, if_pos still⟩

theorem baipai_discard (s : State) (tile i : Nat) :
    ((discard s tile).player i).baipai = (s.player i).baipai := by
  by_cases here : i = s.chuPaiPlayerIndex
  · subst here
    have own := congrArg Player.baipai (discard_own s tile)
    exact own
  · rw [discard_others here]

theorem baipai_selfPassed {i : Nat} (laid : (s.player i).baipai = true) (tile : Nat) :
    ((selfPassed c (discard s tile) tile).player i).baipai = true := by
  have marked := alike_of_core (core_selfPassed (c := c) (s := discard s tile) tile) i
  rw [marked.baipai, baipai_discard]
  exact laid

theorem baipai_adjustShouPai (s : State) (chair : Nat) (action : Action) (tile i : Nat) :
    ((adjustShouPai s chair action tile).player i).baipai = (s.player i).baipai := by
  by_cases here : i = chair
  · subst here
    exact (ganged_marks s i action tile).2
  · rw [others_adjustShouPai here]

theorem Since.declared {i : Nat} (own : OwnTurn c s) (since : Since i s) (chair : Nat)
    (baoting : Int) : Since i (onBaoting c s chair baoting) := by
  have turn := turn_onBaoting own chair baoting
  have declare : ∀ j, ((s.update chair fun p => p.declare baoting).player j).baipai =
      (s.player j).baipai ∧
        ((s.update chair fun p => p.declare baoting).player j).moPai = (s.player j).moPai ∧
          ((s.update chair fun p => p.declare baoting).player j).canDiscards =
            (s.player j).canDiscards := by
    intro j
    by_cases here : j = chair
    · subst here
      rw [State.update_self]
      exact ⟨rfl, rfl, rfl⟩
    · rw [State.update_of_ne here]
      exact ⟨rfl, rfl, rfl⟩
  obtain ⟨baipai, moPai, canDiscards⟩ := declare i
  rcases onBaoting_cases c s chair baoting with same | ⟨phase, _, same | ⟨_, same⟩⟩
  · rw [same]
    exact since
  · rw [same] at turn ⊢
    exact since.congr turn (by rw [phase]; nofun) (by rw [phase]; rfl) baipai moPai canDiscards
  · rw [same] at turn ⊢
    refine since.congr turn (by rw [phase]; nofun) (by rw [phase]; rfl) ?_ ?_ ?_
    all_goals rw [actionAfterBaoting, (startTurn_frame c _ _).2.1]
    · exact baipai
    · exact moPai
    · exact canDiscards

theorem Since.tips {i : Nat} (own : OwnTurn c s) (since : Since i s) (chairs : List Nat) :
    Since i (chairs.foldl (sendBaotingTips c) s) := by
  have tell : ∀ (s : State) (chair : Nat) (info : BaotingInfo), Since i s →
      Since i (s.update chair fun p => p.tell info) := by
    intro s chair info since
    by_cases here : i = chair
    · subst here
      have told := State.update_self s i fun p => p.tell info
      refine ⟨told ▸ since.laid, ?_⟩
      rw [told]
      exact since.drawn
    · have told := State.update_of_ne (s := s) (f := fun p => p.tell info) here
      refine ⟨told ▸ since.laid, ?_⟩
      rw [told]
      exact since.drawn
  have both := @tips_keep c s (fun s => OwnTurn c s ∧ Since i s)
    (fun s chair baoting inv => ⟨ownTurn_onBaoting inv.1 chair baoting,
      inv.2.declared inv.1 chair baoting⟩)
    (fun s chair info inv => ⟨inv.1.update chair (fun _ => rfl) fun _ => rfl,
      tell s chair info inv.2⟩)
    ⟨own, since⟩ chairs
  exact both.2

/-- The discard ends what was drawn. -/
theorem since_unclaimed {i tile : Nat} (laid : (s.player i).baipai = true) (rnd : Nat) :
    Since i (moPai c (nextPlayerIndex c (selfPassed c (discard s tile) tile)) rnd) :=
  since_moPai (s := nextPlayerIndex c (selfPassed c (discard s tile) tile))
    (baipai_selfPassed laid tile) rnd

theorem since_claimed {i : Nat} (laid : (s.player i).baipai = true) {waiting : List Waiting}
    (asked : s.fsm = .waitActionAfterChuPai waiting) : Since i s := by
  refine ⟨laid, ?_⟩
  rw [asked]
  intro _ waited
  cases waited

theorem player_baipaiOrChuPai (c : Conf) (s : State) : (baipaiOrChuPai c s).player = s.player :=
  (startTurn_frame c s []).2.1

/-- Melds of others and one's own leave the lay-out. -/
theorem baipai_melded {i : Nat} {s₁ s₂ : State} (chair : Nat) (action : Action) (tile : Nat)
    (laid : (s.player i).baipai = true) (before : ∀ i, Alike (s.player i) (s₁.player i))
    (after : s₂.core = (adjustShouPai s₁ chair action tile).core) : (s₂.player i).baipai = true := by
  rw [(alike_of_core after i).baipai, baipai_adjustShouPai, (before i).baipai]
  exact laid

theorem Outcome.since {i : Nat} (rule : c.play.baiPai = true) (offers : Offers c s)
    (since : Since i s) (out : Outcome c s r s') : Since i s' := by
  have laid := since.laid
  cases out with
  | refused => exact since
  | declared phase => exact since.declared ⟨phase ▸ trivial, offers⟩ _ _
  | told phase => exact since.tips ⟨phase ▸ trivial, offers⟩ c.seats
  | @laidOut baipai cards lays =>
      have other : i ≠ r.chair := by
        intro here
        exact absurd ((here ▸ lays.fresh).symm.trans laid) (by simp)
      refine ⟨?_, fun _ _ here => absurd here.symm other⟩
      refine Eq.trans ?_ laid
      simp only [chuPai, jumpToPlayerIndex]
      split
      · rw [State.update_of_ne other]
      · rfl
  | offeredAgain phase =>
      have turn := turn_baipai (c := c) (s := s) r.chair
      have player : (baipai c s r.chair).player = s.player := by
        unfold baipai
        split <;> rfl
      refine since.congr turn (by rw [phase]; simp) (by rw [phase]; rfl) ?_ ?_ ?_
      all_goals rw [player]
  | unclaimed => exact since_unclaimed laid _
  | @discarded tile => exact since_claimed (baipai_selfPassed laid tile) rfl
  | answered => exact since_claimed laid rfl
  | @peng tile answers top claims first _ listed =>
      have offered := (claims.offered.each top first).mem_getActions listed
      have fresh := (peng_unannounced (fun _ => rule) offered).2
      have other : i ≠ top.chairId := by
        intro here
        exact absurd ((here ▸ fresh).symm.trans laid) (by simp)
      have marked := (core_lastActionIsCanPenghu (c := c) (s := cleanGzh s top.chairId) top.chairId
        tile (MaajanXuezhan.sortAnswers (answers.filter fun w => w.done.isSome))).trans
          (core_cleanGzh top.chairId)
      have still := baipai_melded top.chairId .peng tile laid
        (fun i => (alike_of_core marked i).trans (alike_popDesk _ i))
        (core_checkAllPass (c := c) (MaajanXuezhan.sortAnswers
          (answers.filter fun w => w.done.isSome)))
      refine Since.done ⟨?_, ?_⟩ _ _
      · rw [player_baipaiOrChuPai]
        exact still
      · intro _ _ here
        rw [turn_baipaiOrChuPai] at here
        exact absurd here.symm other
  | @mingGang tile answers top =>
      have still := baipai_melded top.chairId .mingGang tile laid
        (fun i => (alike_of_core (core_cleanGzh top.chairId) i).trans (alike_popDesk _ i))
        (core_checkAllPass (c := c) (MaajanXuezhan.sortAnswers
          (answers.filter fun w => w.done.isSome)))
      exact (since_moPai (s := jumpToPlayerIndex _ top.chairId) still _).done _ _
  | @allPassed tile answers =>
      have same := core_checkAllPass (c := c) (s := s)
        (MaajanXuezhan.sortAnswers (answers.filter fun w => w.done.isSome))
      exact since_moPai (s := nextPlayerIndex c _) ((alike_of_core same i).baipai.trans laid) _
  | @anGang tile =>
      have still := baipai_melded s.chuPaiPlayerIndex .anGang tile laid
        (alike_of_core (core_cleanGzh s.chuPaiPlayerIndex)) rfl
      exact (since_moPai (s := jumpToPlayerIndex (adjustShouPai (cleanGzh s s.chuPaiPlayerIndex)
        s.chuPaiPlayerIndex .anGang tile) s.chuPaiPlayerIndex) still _).done _ _
  | @baGang tile =>
      have still := baipai_melded s.chuPaiPlayerIndex .baGang tile laid
        (fun _ => .refl _) (core_cleanGzh s.chuPaiPlayerIndex)
      exact (since_moPai (s := jumpToPlayerIndex (cleanGzh (adjustShouPai s s.chuPaiPlayerIndex
        .baGang tile) s.chuPaiPlayerIndex) s.chuPaiPlayerIndex) still _).done _ _
  | robbable acts =>
      obtain ⟨_, phase, _⟩ := acts.phase
      exact since.congr rfl (by rw [phase]; simp) (by rw [phase]; rfl) rfl rfl rfl
  | passed acts =>
      obtain ⟨_, phase, _⟩ := acts.phase
      refine since.congr turn_baipaiOrChuPai (by rw [phase]; simp) (by rw [phase]; rfl) ?_ ?_ ?_
      all_goals rw [player_baipaiOrChuPai]
  | robAnswered phase =>
      exact since.congr rfl (by rw [phase]; simp) (by rw [phase]; rfl) rfl rfl rfl
  | @unrobbed tile _ waiting =>
      have same := core_checkPasses (c := c) (s := s) .qiangGangHu false tile waiting
      have still := baipai_melded s.chuPaiPlayerIndex .baGang tile laid
        (alike_of_core same) (core_cleanGzh s.chuPaiPlayerIndex)
      exact since_moPai (s := doneLastAction _ s.chuPaiPlayerIndex (some (.baGang, tile))) still _
  | won => exact ⟨laid, fun running => absurd rfl running⟩

/-! ### Runs after a lay-out -/

theorem Lays.step {cards : List Nat} (lays : Lays s r 1 (some cards)) (seated : r.chair ∈ c.seats) :
    step c s r = MaajanNanchong.chuPai (jumpToPlayerIndex
      (s.update r.chair fun p => p.layOut cards) r.chair) := by
  have can := lays.can rfl
  have fresh := lays.fresh
  unfold MaajanNanchong.step
  rw [if_neg (not_not.2 seated), lays.phase, lays.msg]
  simp [onBaipai, fresh, can]

/-- While a discard is waited for, only discards are accepted. -/
theorem step_undiscarded (phase : s.fsm = .waitChuPai) (none : ∀ tile, ¬ Discards s r tile) :
    step c s r = s := by
  unfold step
  split
  · rfl
  rw [phase]
  cases msg : r.msg with
  | baoTing | baiPai | doAction => rfl
  | reconnect =>
      unfold reconnect
      rw [phase]
  | chuPai tile =>
      dsimp only
      unfold onActionChuPai
      split
      · rfl
      · rename_i valid
        obtain ⟨own, known, held⟩ := not_or.1 valid |>.imp_right not_or.1
        have own := Decidable.of_not_not own
        refine absurd ⟨phase, own, msg, Bool.eq_true_of_not_eq_false known, ?_⟩ (none tile)
        rw [State.chuPaiPlayer, own]
        exact held

/-- An accepted discard goes unclaimed or is asked about. -/
theorem Discards.since {i tile : Nat} (discards : Discards s r tile) (seated : r.chair ∈ c.seats)
    (laid : (s.player i).baipai = true) : Since i (step c s r) := by
  have accepted : ¬ (s.chuPaiPlayerIndex ≠ r.chair ∨ MaajanXuezhan.checkTile tile = false ∨
      (s.player r.chair).pai.shouPai tile = 0) := by
    have held := discards.held
    rw [State.chuPaiPlayer, discards.own] at held
    simp [discards.own, discards.known, held]
  unfold step
  rw [if_neg (not_not.2 seated), discards.phase, discards.msg]
  unfold onActionChuPai
  dsimp only
  rw [if_neg accepted]
  split
  · exact since_unclaimed laid _
  · exact since_claimed (baipai_selfPassed laid tile) rfl

/-- The runs after the player on `i` has laid cards out; `first` until that player discards. -/
inductive LaidOut (c : Conf) (ok : State → Request → Prop) (i : Nat) : Bool → State → Prop
  | lays {s : State} {r : Request} {cards : List Nat} :
      Round c ok s → ok s r → Lays s r 1 (some cards) → r.chair = i → i ∈ c.seats →
      LaidOut c ok i true (step c s r)
  | discards {s : State} {r : Request} {tile : Nat} {first : Bool} :
      LaidOut c ok i first s → ok s r → Discards s r tile → r.chair = i →
      LaidOut c ok i false (step c s r)
  | other {s : State} {r : Request} {first : Bool} :
      LaidOut c ok i first s → ok s r → (∀ tile, Discards s r tile → r.chair ≠ i) →
      LaidOut c ok i first (step c s r)

/-- The lay-out is answered with a discard that it names. -/
structure First (i : Nat) (s : State) : Prop where
  laid : (s.player i).baipai = true
  phase : s.fsm = .waitChuPai
  turn : s.chuPaiPlayerIndex = i
  named : (s.player i).canDiscards =
    some (Rule.cardsCanBai (s.player i).pai.toPai (s.player i).pai.baiPai).1

theorem LaidOut.after {i : Nat} {first : Bool} (after : LaidOut c (Announces c) i first s) :
    Round c (Announces c) s ∧ i ∈ c.seats ∧ c.play.baiPai = true ∧
      if first then First i s else Since i s := by
  induction after with
  | @lays s r cards reached fair lays chair seated =>
      subst chair
      have rule := reached.offers
      rw [Offers, lays.phase] at rule
      refine ⟨.next r reached fair rfl, seated, rule, ?_⟩
      rw [lays.step seated]
      have own : (chuPai (jumpToPlayerIndex (s.update r.chair fun p => p.layOut cards)
          r.chair)).player r.chair = (s.player r.chair).layOut cards := by
        simp only [chuPai, jumpToPlayerIndex, State.update_self]
      refine ⟨?_, rfl, rfl, ?_⟩
      · rw [own]
        rfl
      · rw [own]
        rfl
  | @discards s r tile first _ fair discards chair ih =>
      obtain ⟨reached, seated, rule, before⟩ := ih
      refine ⟨.next r reached fair rfl, seated, rule, discards.since (chair ▸ seated) ?_⟩
      cases first with
      | true => exact First.laid before
      | false => exact Since.laid before
  | @other s r first _ fair others ih =>
      obtain ⟨reached, seated, rule, before⟩ := ih
      refine ⟨.next r reached fair rfl, seated, rule, ?_⟩
      cases first with
      | true =>
          have phase := First.phase before
          have turn := First.turn before
          have same := step_undiscarded (c := c) phase fun tile discards =>
            others tile discards (discards.own.symm.trans turn)
          rw [same]
          exact before
      | false => exact (step_outcome reached.offers r).since rule reached.offers before

/-- Announced hands stay announced in the runs whose players keep to them: hands without a
tile to discard are ready, hold the cards laid out and win with each announced tile, and
a discard is one that the lay-out names and later the tile drawn. -/
theorem announced_hands_stay (c : Conf) :
    (∀ s, Round c (Announces c) s → ∀ i ∈ c.seats, totalCount (s.player i).pai.shouPai % 3 = 1 →
      ((s.player i).baoting = some true ∨ (s.player i).baipai = true →
        ting c (s.player i) ≠ []) ∧
      ((s.player i).baipai = true →
        (∀ t ∈ (s.player i).pai.baiTing,
          MaajanXuezhan.Rule.isHu (s.player i).pai.toPai (some t) c.play.siDui = true) ∧
        ∀ v, ((s.player i).pai.baiPai.count v : Int) ≤ (s.player i).pai.shouPai v)) ∧
    (∀ s i first, LaidOut c (Announces c) i first s → ∀ r tile, Announces c s r →
      Discards s r tile → r.chair = i →
      if first then tile ∈ (Rule.cardsCanBai (s.player i).pai.toPai (s.player i).pai.baiPai).1
      else (s.player i).moPai = some tile) ∧
    ∀ s, Round c (Announces c) s → ∀ r tile, Announces c s r → Discards s r tile →
      (s.player r.chair).baoting = some true → (s.player r.chair).baipai = false →
        (s.player r.chair).moPai = some tile := by
  refine ⟨?_, ?_, ?_⟩
  · intro s reached i seated one
    obtain ⟨own', zero_one, _, keeps⟩ := reached.stays.2.keeps
    have waiting : i ≠ s.chuPaiPlayerIndex ∨ own' = 0 := by
      by_cases here : i = s.chuPaiPlayerIndex
      · have mod := keeps.sound.mod seated
        rw [if_pos here] at mod
        omega
      · exact .inl here
    have waits := keeps.waits i seated waiting
    refine ⟨?_, fun lays => ⟨(waits.laid lays).wins, (waits.laid lays).held⟩⟩
    intro announced
    cases lays : (s.player i).baipai with
    | true => exact (waits.laid lays).ready
    | false =>
        have declared := announced.resolve_right (by rw [lays]; simp)
        exact waits.ready declared lays
  · intro s i first run r tile fair discards own
    obtain ⟨_, _, _, after⟩ := run.after
    have turn := discards.own.trans own
    have named := fair.lays tile discards
    rw [State.chuPaiPlayer, turn] at named
    cases first with
    | true =>
        have first : First i s := after
        have named := named first.laid
        rw [first.named] at named
        exact named
    | false =>
        have since : Since i s := after
        have phase := discards.phase
        obtain ⟨drawn, last, only⟩ := since.drawn (by rw [phase]; simp) (by rw [phase]; rfl) turn
        have named := named since.laid
        rw [only] at named
        rw [List.mem_singleton.1 named]
        exact last
  · intro s _ r tile fair discards
    have declared := fair.declared tile discards
    rw [State.chuPaiPlayer, discards.own] at declared
    exact declared

/-- Whether the table is in `FSM_S.WAIT_CHU_PAI`. -/
def FSM.isWaitChuPai : FSM → Bool
  | .waitChuPai => true
  | _ => false

theorem FSM.isWaitChuPai_iff {fsm : FSM} : fsm.isWaitChuPai = true ↔ fsm = .waitChuPai := by
  cases fsm <;> simp [isWaitChuPai]

/-- The dealer lays out two cards that wait for a third; the lay-out names one discard. -/
theorem deal_lays_out : ∃ s, onStarted twoPlayers id id 0 = some s ∧
    (Lays s ⟨1, .baiPai 1 (some [11, 12]), 0⟩ 1 (some [11, 12]) ∧ s.chuPaiPlayerIndex = 1 ∧
      (s.player 1).pai.shouPai 11 = 1 ∧ (s.player 1).pai.shouPai 12 = 1) ∧
    (let s₁ := step twoPlayers s ⟨1, .baiPai 1 (some [11, 12]), 0⟩
    s₁.fsm = .waitChuPai ∧ s₁.chuPaiPlayerIndex = 1 ∧ (s₁.player 1).baoting = none ∧
      (s₁.player 1).canDiscards = some [15] ∧ (s₁.player 1).pai.shouPai 11 = 1 ∧
      (s₁.player 1).pai.shouPai 15 = 1 ∧
      totalCount ((step twoPlayers s₁ ⟨1, .chuPai 15, 0⟩).player 1).pai.shouPai % 3 = 1 ∧
      let s₂ := step twoPlayers s₁ ⟨1, .chuPai 11, 0⟩
      (s₂.player 1).baipai = true ∧ totalCount (s₂.player 1).pai.shouPai % 3 = 1 ∧
        ting twoPlayers (s₂.player 1) = [] ∧
        (s₂.player 1).pai.shouPai 11 < ((s₂.player 1).pai.baiPai.count 11 : Int)) := by
  have runs : ((onStarted twoPlayers id id 0).any fun s =>
      let s₁ := step twoPlayers s ⟨1, .baiPai 1 (some [11, 12]), 0⟩
      let s₂ := step twoPlayers s₁ ⟨1, .chuPai 11, 0⟩
      (s.fsm.isWaitBaiPai && s₁.fsm.isWaitChuPai) &&
      decide (((s.player 1).baipai = false ∧ canBaiPai (s.player 1) (some [11, 12]) = true ∧
        s.chuPaiPlayerIndex = 1 ∧ (s.player 1).pai.shouPai 11 = 1 ∧
        (s.player 1).pai.shouPai 12 = 1) ∧
        s₁.chuPaiPlayerIndex = 1 ∧ (s₁.player 1).baoting = none ∧
        (s₁.player 1).canDiscards = some [15] ∧ (s₁.player 1).pai.shouPai 11 = 1 ∧
        (s₁.player 1).pai.shouPai 15 = 1 ∧
        totalCount ((step twoPlayers s₁ ⟨1, .chuPai 15, 0⟩).player 1).pai.shouPai % 3 = 1 ∧
        (s₂.player 1).baipai = true ∧ totalCount (s₂.player 1).pai.shouPai % 3 = 1 ∧
        ting twoPlayers (s₂.player 1) = [] ∧
        (s₂.player 1).pai.shouPai 11 < ((s₂.player 1).pai.baiPai.count 11 : Int))) = true := by
    decide +kernel
  obtain ⟨s, start, holds⟩ := (Option.any_eq_true _ _).1 runs
  rw [Bool.and_eq_true, Bool.and_eq_true, decide_eq_true_eq] at holds
  obtain ⟨⟨phase, phase₁⟩, ⟨fresh, can, rest⟩, after⟩ := holds
  have lays : Lays s ⟨1, .baiPai 1 (some [11, 12]), 0⟩ 1 (some [11, 12]) :=
    ⟨FSM.isWaitBaiPai_iff.1 phase, rfl, fresh, fun _ => can⟩
  exact ⟨s, start, ⟨lays, rest⟩, FSM.isWaitChuPai_iff.1 phase₁, after⟩

/-- The lay-out of `deal_lays_out` keeps to the hand, and what follows it. -/
theorem lay_out_run : ∃ s, LaidOut twoPlayers (Announces twoPlayers) 1 true s ∧
    (s.player 1).baoting = none ∧ (s.player 1).canDiscards = some [15] ∧
    (∀ tile ∈ [11, 15], Discards s ⟨1, .chuPai tile, 0⟩ tile) ∧
    totalCount ((step twoPlayers s ⟨1, .chuPai 15, 0⟩).player 1).pai.shouPai % 3 = 1 ∧
    let p := (step twoPlayers s ⟨1, .chuPai 11, 0⟩).player 1
    p.baipai = true ∧ totalCount p.pai.shouPai % 3 = 1 ∧ ting twoPlayers p = [] ∧
      p.pai.shouPai 11 < (p.pai.baiPai.count 11 : Int) := by
  obtain ⟨s, start, ⟨lays, turn, one, two⟩, phase, turn₁, undeclared, named, eleven, fifteen, after⟩ :=
    deal_lays_out
  have reached : Round twoPlayers (Announces twoPlayers) s := .start ⟨id, id, 0, start⟩
  have nonneg := (reached.stays.1.sound (by rw [lays.phase]; nofun)).nonneg 1
  have fair : Announces twoPlayers s ⟨1, .baiPai 1 (some [11, 12]), 0⟩ := by
    refine ⟨fun _ _ _ => turn.symm, ?_, ?_, ?_, ?_⟩
    · intro cards accepted v
      have same := accepted.msg
      cases same
      have old := nonneg v
      by_cases eleven : v = 11
      · subst eleven
        exact le_of_eq (show ((1 : Nat) : Int) = _ from one.symm)
      · by_cases twelve : v = 12
        · subst twelve
          exact le_of_eq (show ((1 : Nat) : Int) = _ from two.symm)
        · rw [List.count_eq_zero_of_not_mem (by simp [eleven, twelve])]
          exact old
    · intro tile discards
      exact absurd discards.msg nofun
    · intro tile discards
      exact absurd discards.msg nofun
    · intro action tile gang
      cases gang with
      | anGang acts | baGang acts => exact absurd acts.msg nofun
      | mingGang _ msg => cases msg
  refine ⟨_, .lays reached fair lays rfl (by decide), undeclared, named, ?_, after⟩
  intro tile known
  refine ⟨phase, turn₁, rfl, ?_, ?_⟩
  · have tiles : ∀ tile ∈ [11, 15], MaajanXuezhan.checkTile tile = true := by decide
    exact tiles tile known
  · rw [State.chuPaiPlayer, turn₁]
    simp only [List.mem_cons, List.not_mem_nil, or_false] at known
    rcases known with rfl | rfl
    · rw [eleven]
      decide
    · rw [fifteen]
      decide

theorem deal_announced_hands_stay : ∃ s,
    LaidOut twoPlayers (Announces twoPlayers) 1 true s ∧ Discards s ⟨1, .chuPai 15, 0⟩ 15 ∧
    15 ∈ (Rule.cardsCanBai (s.player 1).pai.toPai (s.player 1).pai.baiPai).1 ∧
    ting twoPlayers ((step twoPlayers s ⟨1, .chuPai 15, 0⟩).player 1) ≠ [] := by
  obtain ⟨s, run, undeclared, named, accepted, count, _⟩ := lay_out_run
  have discards := accepted 15 (by decide)
  have fair : Announces twoPlayers s ⟨1, .chuPai 15, 0⟩ := by
    refine ⟨?_, ?_, ?_, ?_, ?_⟩
    · exact fun _ _ lays => absurd lays.msg (by simp)
    · exact fun _ lays => absurd lays.msg (by simp)
    · intro tile _ declared
      rw [State.chuPaiPlayer, discards.own, undeclared] at declared
      cases declared
    · intro tile other _
      have same := other.msg
      cases same
      rw [State.chuPaiPlayer, discards.own, named]
      exact .head _
    · intro action tile gang
      cases gang with
      | anGang acts | baGang acts => exact absurd acts.msg (by simp)
      | mingGang _ msg => cases msg
  have stay := announced_hands_stay twoPlayers
  have next := LaidOut.discards run fair discards rfl
  obtain ⟨reached, seated, _, since⟩ := next.after
  refine ⟨s, run, discards, stay.2.1 s 1 true run _ 15 fair discards rfl, ?_⟩
  exact (stay.1 _ reached 1 seated count).1 (.inr (Since.laid since))

/-- The dealer lays out two cards and discards one of them. -/
theorem discard_breaks_announcement : ∃ s r, Runs.Reachable (Started twoPlayers) (Steps twoPlayers) s ∧
    (s.player 1).baipai = true ∧ r.chair = 1 ∧ Discards s r 11 ∧
    11 ∉ (Rule.cardsCanBai (s.player 1).pai.toPai (s.player 1).pai.baiPai).1 ∧
    (let p := (step twoPlayers s r).player 1
    p.baipai = true ∧ totalCount p.pai.shouPai % 3 = 1 ∧ ting twoPlayers p = [] ∧
      p.pai.shouPai 11 < (p.pai.baiPai.count 11 : Int)) := by
  obtain ⟨s, run, _, named, accepted, _, broken⟩ := lay_out_run
  obtain ⟨reached, _, _, first⟩ := run.after
  refine ⟨s, ⟨1, .chuPai 11, 0⟩, Runs.Reaches.reachable reached, First.laid first, rfl,
    accepted 11 (by decide), ?_, broken⟩
  have discards := (First.named first).symm.trans named
  rw [Option.some.inj discards]
  decide

end FkServer.MaajanNanchong
