import FkServer.MaajanNanchong.Hands
import FkServer.MaajanXuezhan.Refinement

/-!
What the table waits for fits the table, and what one request can do to it. Every
handler ends in a waiting state; `Outcome` names the ways there are.
-/
namespace FkServer.MaajanNanchong

open MaajanXuezhan (Action Section SectionType Waiting Asked collect checkActionBeforeDo setDone
  sortAnswers claimsSettled checkTile mem_collect collect_nodup accepted
  mem_sortAnswers anGang_offered anGang_offered_first baGang_offered baGang_not_offered_first
  claim_offered paiActions)

variable {c : Conf} {s s' : State}

/-! ### Offered actions -/

theorem mem_getActions {chair : Nat} {moPai inPai : Option Nat} {qiangGang : Bool}
    {act : Action × Nat} (h : act ∈ getActions c s chair moPai inPai qiangGang) :
    act ∈ generalActions c s chair moPai inPai qiangGang ∧
      ((s.player chair).baoting = some true →
        act ∈ baotingActions c s chair moPai inPai
          (generalActions c s chair moPai inPai qiangGang)) := by
  have inner : act ∈ (if (s.player chair).baoting = some true then
      baotingActions c s chair moPai inPai (generalActions c s chair moPai inPai qiangGang)
      else generalActions c s chair moPai inPai qiangGang) := by
    unfold getActions at h
    dsimp only at h
    split at h
    · exact List.mem_of_mem_filter h
    · exact h
  split at inner
  · exact ⟨List.mem_of_mem_filter inner, fun _ => inner⟩
  · rename_i undeclared
    exact ⟨inner, fun declared => absurd declared undeclared⟩

theorem mem_generalActions {chair : Nat} {moPai inPai : Option Nat} {qiangGang : Bool}
    {act : Action × Nat} (h : act ∈ generalActions c s chair moPai inPai qiangGang) :
    act ∈ paiActions (s.player chair).pai.toPai moPai inPai c.play.siDui :=
  List.mem_of_mem_filter h

theorem mem_getActionsFirstTurn {chair : Nat} {moPai : Option Nat} {act : Action × Nat}
    (h : act ∈ getActionsFirstTurn c s chair moPai) :
    act ∈ MaajanXuezhan.paiActionsFirstTurn (s.player chair).pai.toPai moPai c.play.siDui ∧
      (act.1 = .anGang → (s.player chair).baoting = some true →
        isBaotingCanGang c s chair .anGang act.2 = true) := by
  unfold getActionsFirstTurn at h
  dsimp only at h
  split at h
  · split at h
    · obtain ⟨listed, no_gang⟩ := List.mem_filter.1 h
      exact ⟨listed, fun an => by simp [isGang, an] at no_gang⟩
    · split at h
      · rename_i all
        refine ⟨h, fun an _ => ?_⟩
        have := List.all_eq_true.1 all act h
        simpa [an] using this
      · obtain ⟨listed, no_gang⟩ := List.mem_filter.1 h
        exact ⟨listed, fun an => by simp [an] at no_gang⟩
  · rename_i undeclared
    exact ⟨h, fun _ declared => absurd declared undeclared⟩

/-- A gang that a declared hand may make leaves it ready. -/
theorem isBaotingCanGang_ready {chair tile : Nat}
    (h : isBaotingCanGang c s chair .anGang tile = true) :
    ting c (((s.player chair).decr tile 4).lay (meld .anGang tile none)) ≠ [] := by
  intro unready
  simp [isBaotingCanGang, tingFans, unready] at h

theorem isBaotingCanGang_ming_ready {chair tile : Nat}
    (h : isBaotingCanGang c s chair .mingGang tile = true) :
    ting c (((s.player chair).decr tile 3).lay
      (meld .mingGang tile (some s.chuPaiPlayerIndex))) ≠ [] := by
  intro unready
  simp [isBaotingCanGang, tingFans, unready] at h

/-! ### What a waiting player is offered -/

/-- The player on turn with a drawn tile. -/
structure OwnOffer (c : Conf) (s : State) (w : Waiting) : Prop where
  own : w.chairId = s.chuPaiPlayerIndex
  anGang : ∀ tile, (Action.anGang, tile) ∈ w.actions → s.chuPaiPlayer.pai.shouPai tile = 4 ∧
    (s.chuPaiPlayer.baoting = some true →
      ting c ((s.chuPaiPlayer.decr tile 4).lay (meld .anGang tile none)) ≠ [])
  baGang : ∀ tile, (Action.baGang, tile) ∈ w.actions →
    ∃ sec, s.chuPaiPlayer.pai.mingPai.find? (Section.isPeng tile) = some sec

/-- Another player, asked for the tile of the player on turn. -/
structure Offer (c : Conf) (offers : Nat → List (Action × Nat)) (w : Waiting) : Prop where
  seated : w.chairId ∈ c.seats
  actions : w.actions = offers w.chairId
  something : w.actions ≠ []
  done : ∀ act, w.done = some act → act.1 = .pass ∨ act ∈ w.actions

def Offers (c : Conf) (s : State) : Prop :=
  match s.fsm with
  | .waitBaoTing => s.chuPaiPlayerIndex = c.zhuang
  | .waitActionAfterMoPai w => OwnOffer c s w
  | .waitActionAfterChuPai waiting => ∃ tile, s.chuPaiPlayer.chuPai = some tile ∧
      Asked (Offer c (claimOffers c s tile)) waiting ∧ claimsSettled waiting = false
  | .waitQiangGangHu tile waiting =>
      (∃ sec, s.chuPaiPlayer.pai.mingPai.find? (Section.isPeng tile) = some sec) ∧
        Asked (Offer c (robOffers c s s.chuPaiPlayerIndex tile)) waiting
  | .waitBaiPai => c.play.baiPai = true
  | .waitChuPai | .over => True

theorem Offer.other {w : Waiting} {tile : Nat} (offer : Offer c (claimOffers c s tile) w) :
    w.chairId ≠ s.chuPaiPlayerIndex := by
  intro same
  apply offer.something
  rw [offer.actions, claimOffers, if_pos same]

theorem Offer.mem_getActions {w : Waiting} {tile : Nat} {act : Action × Nat}
    (offer : Offer c (claimOffers c s tile) w) (listed : act ∈ w.actions) :
    act ∈ getActions c s w.chairId none (some tile) false := by
  rw [offer.actions, claimOffers, if_neg offer.other] at listed
  exact listed

theorem Offer.answer {offers : Nat → List (Action × Nat)} {w : Waiting} {act : Action × Nat}
    (offer : Offer c offers w) (valid : act.1 = .pass ∨ act ∈ w.actions) :
    Offer c offers { w with done := some act } where
  seated := offer.seated
  actions := offer.actions
  something := offer.something
  done := fun _ same => Option.some.inj same ▸ valid

/-- A table of waiting actions in the order in which `pairs` meets it. -/
theorem asked_pairs {offers : Nat → List (Action × Nat)} {session : Nat}
    (some_left : (collect offers c.seats session).1.isEmpty = false) :
    Asked (Offer c offers) (c.pairs (collect offers c.seats session).1) := by
  have perm := c.pairs_perm (collect offers c.seats session).1
  refine ⟨?_, ?_, ?_⟩
  · intro none_left
    rw [none_left, List.nil_perm] at perm
    rw [perm] at some_left
    cases some_left
  · exact (perm.map Waiting.chairId).nodup_iff.2 (collect_nodup c.seats_nodup)
  · intro w listed
    obtain ⟨seated, actions, undone, something, _⟩ := mem_collect (perm.mem_iff.1 listed)
    refine ⟨seated, actions, ?_, ?_⟩
    · intro nothing
      rw [← actions, nothing] at something
      cases something
    · intro act done
      rw [undone] at done
      cases done

/-- Nobody has answered yet. -/
theorem claimsSettled_pairs {offers : Nat → List (Action × Nat)} {session : Nat}
    (some_left : (collect offers c.seats session).1.isEmpty = false) :
    claimsSettled (c.pairs (collect offers c.seats session).1) = false := by
  have undone : ∀ w ∈ c.pairs (collect offers c.seats session).1, w.done = none := by
    intro w listed
    exact (mem_collect ((c.pairs_perm _).mem_iff.1 listed)).2.2.1
  obtain ⟨w, listed⟩ := List.exists_mem_of_ne_nil _ (asked_pairs some_left).somebody
  have no_win : ((c.pairs (collect offers c.seats session).1).countP fun w => w.answered .hu) = 0 := by
    rw [List.countP_eq_zero]
    intro w listed
    simp [Waiting.answered, undone w listed]
  have waits : ((c.pairs (collect offers c.seats session).1).all fun w => w.done.isSome) = false := by
    rw [List.all_eq_false]
    exact ⟨w, listed, by simp [undone w listed]⟩
  unfold claimsSettled
  simp [no_win, waits]

/-- An accepted answer leaves the offers as they are. -/
theorem asked_answered {offers : Nat → List (Action × Nat)} {waiting : List Waiting}
    {chair tile session : Nat} {action : Action} {w : Waiting}
    (asked : Asked (Offer c offers) waiting)
    (h : checkActionBeforeDo waiting chair action tile session = some w) :
    Asked (Offer c offers) (setDone waiting chair (action, tile)) :=
  asked.answered h fun offer valid => offer.answer valid

theorem asked_answer {offers : Nat → List (Action × Nat)} {waiting : List Waiting}
    (asked : Asked (Offer c offers) waiting) (chair : Nat) (action : Action) (tile session : Nat) :
    Asked (Offer c offers) (answer waiting chair action tile session) := by
  unfold MaajanNanchong.answer
  cases h : checkActionBeforeDo waiting chair action tile session with
  | none => exact asked
  | some w => exact asked_answered asked h

/-! ### The turn goes on -/

/-- The states in which nobody is asked about a tile of another. -/
def OwnPhase : FSM → Prop
  | .waitBaoTing | .waitBaiPai | .waitChuPai | .waitActionAfterMoPai _ | .over => True
  | .waitActionAfterChuPai _ | .waitQiangGangHu _ _ => False

/-- The states after a draw, a meld or a pass. -/
structure OwnTurn (c : Conf) (s : State) : Prop where
  phase : OwnPhase s.fsm
  offers : Offers c s

theorem OwnTurn.congr (own : OwnTurn c s) (fsm : s'.fsm = s.fsm)
    (turn : s'.chuPaiPlayerIndex = s.chuPaiPlayerIndex)
    (pai : s'.chuPaiPlayer.pai = s.chuPaiPlayer.pai)
    (baoting : s'.chuPaiPlayer.baoting = s.chuPaiPlayer.baoting) : OwnTurn c s' := by
  refine ⟨fsm ▸ own.phase, ?_⟩
  have phase := own.phase
  have offers := own.offers
  cases waits : s.fsm with
  | waitActionAfterChuPai | waitQiangGangHu =>
      rw [waits] at phase
      cases phase
  | waitChuPai | «over» => simp only [Offers, fsm, waits]
  | waitBaiPai =>
      simp only [Offers, fsm, waits] at offers ⊢
      exact offers
  | waitBaoTing =>
      simp only [Offers, fsm, waits] at offers ⊢
      exact turn.trans offers
  | waitActionAfterMoPai w =>
      simp only [Offers, fsm, waits] at offers ⊢
      refine ⟨offers.own.trans turn.symm, ?_, ?_⟩
      · intro tile listed
        have gang := offers.anGang tile listed
        simpa only [ting, Player.decr, Player.lay, pai, baoting] using gang
      · intro tile listed
        rw [pai]
        exact offers.baGang tile listed

theorem OwnTurn.done (own : OwnTurn c s) (chair : Nat) (action : Option (Action × Nat)) :
    OwnTurn c (doneLastAction s chair action) :=
  own.congr rfl rfl rfl rfl

theorem OwnTurn.update {f : Player → Player} (own : OwnTurn c s) (chair : Nat)
    (pai : ∀ p, (f p).pai = p.pai) (baoting : ∀ p, (f p).baoting = p.baoting) :
    OwnTurn c (s.update chair f) := by
  refine own.congr rfl rfl ?_ ?_
  · by_cases here : s.chuPaiPlayerIndex = chair
    · subst here
      exact (congrArg Player.pai (State.update_self _ _ _)).trans (pai _)
    · exact congrArg Player.pai (State.update_of_ne here)
  · by_cases here : s.chuPaiPlayerIndex = chair
    · subst here
      exact (congrArg Player.baoting (State.update_self _ _ _)).trans (baoting _)
    · exact congrArg Player.baoting (State.update_of_ne here)

theorem ownTurn_chuPai : OwnTurn c (chuPai s) := ⟨trivial, trivial⟩

theorem ownTurn_doBalance : OwnTurn c (doBalance s) := ⟨trivial, trivial⟩

theorem ownTurn_baipai (on : c.play.baiPai = true) (chair : Nat) : OwnTurn c (baipai c s chair) := by
  unfold baipai
  split
  · exact ownTurn_chuPai
  · exact ⟨trivial, on⟩

theorem ownTurn_baipaiOrChuPai : OwnTurn c (baipaiOrChuPai c s) := by
  unfold baipaiOrChuPai
  split
  · rename_i lays
    rw [Bool.and_eq_true] at lays
    exact ownTurn_baipai lays.1 _
  · exact ownTurn_chuPai

theorem ownTurn_startTurn {actions : List (Action × Nat)}
    (anGang : ∀ tile, (Action.anGang, tile) ∈ actions → s.chuPaiPlayer.pai.shouPai tile = 4 ∧
      (s.chuPaiPlayer.baoting = some true →
        ting c ((s.chuPaiPlayer.decr tile 4).lay (meld .anGang tile none)) ≠ []))
    (baGang : ∀ tile, (Action.baGang, tile) ∈ actions →
      ∃ sec, s.chuPaiPlayer.pai.mingPai.find? (Section.isPeng tile) = some sec) :
    OwnTurn c (startTurn c s actions) := by
  unfold startTurn
  split
  · exact ownTurn_baipaiOrChuPai
  · exact ⟨trivial, rfl, anGang, baGang⟩

theorem ownTurn_firstTurn (tile : Option Nat) :
    OwnTurn c (startTurn c s (getActionsFirstTurn c s s.chuPaiPlayerIndex tile)) := by
  apply ownTurn_startTurn
  · intro t offered
    obtain ⟨listed, checked⟩ := mem_getActionsFirstTurn offered
    exact ⟨anGang_offered_first listed,
      fun declared => isBaotingCanGang_ready (checked rfl declared)⟩
  · intro t offered
    exact absurd (mem_getActionsFirstTurn offered).1 baGang_not_offered_first

theorem ownTurn_draw (tile : Nat) :
    OwnTurn c (startTurn c s (getActions c s s.chuPaiPlayerIndex (some tile) none false)) := by
  apply ownTurn_startTurn
  · intro t offered
    obtain ⟨general, declared⟩ := mem_getActions offered
    refine ⟨anGang_offered (mem_generalActions general), fun ready => ?_⟩
    obtain ⟨_, checked⟩ := List.mem_filter.1 (declared ready)
    simp only [Bool.and_eq_true] at checked
    exact isBaotingCanGang_ready checked.1.2
  · intro t offered
    exact (baGang_offered (mem_generalActions (mem_getActions offered).1)).2

/-- The ways a turn begins: the wall is used up, or a tile is drawn. -/
theorem moPai_cases (c : Conf) (s : State) (rnd : Nat) :
    (s.dealer.dealOne rnd = none ∧
      moPai c s rnd = doBalance (cleanGsp (cleanGzh s s.chuPaiPlayerIndex) s.chuPaiPlayerIndex)) ∨
    ∃ tile dealer, s.dealer.dealOne rnd = some (tile, dealer) ∧
      ∃ drawn, drawn = draw (cleanGsp (cleanGzh s s.chuPaiPlayerIndex) s.chuPaiPlayerIndex) tile dealer ∧
        moPai c s rnd =
          startTurn c drawn (getActions c drawn drawn.chuPaiPlayerIndex (some tile) none false) := by
  have same : (cleanGsp (cleanGzh s s.chuPaiPlayerIndex) s.chuPaiPlayerIndex).dealer = s.dealer :=
    rfl
  unfold moPai
  dsimp only
  cases deal : s.dealer.dealOne rnd with
  | none =>
      rw [same, deal]
      exact .inl ⟨rfl, rfl⟩
  | some dealt =>
      rw [same, deal]
      exact .inr ⟨dealt.1, dealt.2, rfl, _, rfl, rfl⟩

theorem ownTurn_moPai (rnd : Nat) : OwnTurn c (moPai c s rnd) := by
  cases moPai_cases c s rnd with
  | inl exhausted => exact exhausted.2 ▸ ownTurn_doBalance
  | inr drawn =>
      obtain ⟨tile, _, _, drawn, _, same⟩ := drawn
      exact same ▸ ownTurn_draw tile

/-! ### What one request can do -/

/-- A lay-out that the table accepts. -/
structure Lays (s : State) (r : Request) (baipai : Int) (cards : Option (List Nat)) : Prop where
  phase : s.fsm = .waitBaiPai
  msg : r.msg = .baiPai baipai cards
  fresh : (s.player r.chair).baipai = false
  can : baipai = 1 → canBaiPai (s.player r.chair) cards = true

/-- A discard that the table accepts. -/
structure Discards (s : State) (r : Request) (tile : Nat) : Prop where
  phase : s.fsm = .waitChuPai
  own : s.chuPaiPlayerIndex = r.chair
  msg : r.msg = .chuPai tile
  known : checkTile tile = true
  held : s.chuPaiPlayer.pai.shouPai tile ≠ 0

/-- An answer to a discard, put with those that are there. -/
structure Answers (c : Conf) (s : State) (r : Request) (tile : Nat) (answers : List Waiting) :
    Prop where
  asked : ∃ waiting action t session, s.fsm = .waitActionAfterChuPai waiting ∧
    r.msg = .doAction action t session ∧ answers = answer waiting r.chair action t session
  discarded : s.chuPaiPlayer.chuPai = some tile
  offered : Asked (Offer c (claimOffers c s tile)) answers

/-- An answer of the player on turn to what the drawn tile offers. -/
structure Acts (s : State) (r : Request) (act : Action × Nat) : Prop where
  phase : ∃ w, s.fsm = .waitActionAfterMoPai w ∧ (act.1 = .pass ∨ act ∈ w.actions)
  own : r.chair = s.chuPaiPlayerIndex
  msg : ∃ session, r.msg = .doAction act.1 act.2 session

/-- What a request leads to. -/
inductive Outcome (c : Conf) (s : State) (r : Request) : State → Prop
  | refused : Outcome c s r s
  | declared {baoting : Int} :
      s.fsm = .waitBaoTing → r.msg = .baoTing baoting →
      Outcome c s r (onBaoting c s r.chair baoting)
  | told : s.fsm = .waitBaoTing → Outcome c s r (c.seats.foldl (sendBaotingTips c) s)
  | laidOut {baipai : Int} {cards : Option (List Nat)} :
      Lays s r baipai cards → r.chair ∈ c.seats →
      Outcome c s r (chuPai (jumpToPlayerIndex
        (if baipai = 1 then s.update r.chair fun p => p.layOut (cards.getD []) else s) r.chair))
  | offeredAgain : s.fsm = .waitBaiPai → Outcome c s r (baipai c s r.chair)
  | unclaimed {tile : Nat} : Discards s r tile →
      Outcome c s r (moPai c (nextPlayerIndex c (selfPassed c (discard s tile) tile)) r.rnd)
  | discarded {tile : Nat} : Discards s r tile →
      (collect (claimOffers c (discard s tile) tile) c.seats s.sessionId).1.isEmpty = false →
      Outcome c s r { selfPassed c (discard s tile) tile with
        sessionId := (collect (claimOffers c (discard s tile) tile) c.seats s.sessionId).2
        fsm := .waitActionAfterChuPai
          (c.pairs (collect (claimOffers c (discard s tile) tile) c.seats s.sessionId).1) }
  | answered {tile : Nat} {answers : List Waiting} :
      Answers c s r tile answers → claimsSettled answers = false →
      Outcome c s r { s with fsm := .waitActionAfterChuPai answers }
  | peng {tile : Nat} {answers : List Waiting} {top : Waiting} :
      Answers c s r tile answers → top ∈ answers → top.done = some (.peng, tile) →
      (Action.peng, tile) ∈ top.actions →
      Outcome c s r (doPeng c s top.chairId tile
        (sortAnswers (answers.filter fun w => w.done.isSome)))
  | mingGang {tile : Nat} {answers : List Waiting} {top : Waiting} :
      Answers c s r tile answers → top ∈ answers → top.done = some (.mingGang, tile) →
      (Action.mingGang, tile) ∈ top.actions →
      Outcome c s r (doMingGang c s top.chairId tile
        (sortAnswers (answers.filter fun w => w.done.isSome)) r.rnd)
  | allPassed {tile : Nat} {answers : List Waiting} :
      Answers c s r tile answers →
      Outcome c s r (moPai c (nextPlayerIndex c (checkAllPass c
        (sortAnswers (answers.filter fun w => w.done.isSome)) s)) r.rnd)
  | anGang {tile : Nat} : Acts s r (.anGang, tile) →
      Outcome c s r (onAnGang c s s.chuPaiPlayerIndex tile r.rnd)
  | baGang {tile : Nat} : Acts s r (.baGang, tile) →
      Outcome c s r (doneLastAction (moPai c (jumpToPlayerIndex
        (cleanGzh (adjustShouPai s s.chuPaiPlayerIndex .baGang tile) s.chuPaiPlayerIndex)
          s.chuPaiPlayerIndex) r.rnd) s.chuPaiPlayerIndex (some (.baGang, tile)))
  | robbable {tile : Nat} : Acts s r (.baGang, tile) →
      (collect (robOffers c s s.chuPaiPlayerIndex tile) c.seats s.sessionId).1.isEmpty = false →
      Outcome c s r { s with
        sessionId := (collect (robOffers c s s.chuPaiPlayerIndex tile) c.seats s.sessionId).2
        fsm := .waitQiangGangHu tile
          (c.pairs (collect (robOffers c s s.chuPaiPlayerIndex tile) c.seats s.sessionId).1) }
  | passed {act : Action × Nat} : Acts s r act → Outcome c s r (baipaiOrChuPai c s)
  | robAnswered {tile : Nat} {waiting waiting' : List Waiting} :
      s.fsm = .waitQiangGangHu tile waiting →
      Asked (Offer c (robOffers c s s.chuPaiPlayerIndex tile)) waiting' →
      Outcome c s r { s with fsm := .waitQiangGangHu tile waiting' }
  | unrobbed {tile : Nat} {waiting waiting' : List Waiting} :
      s.fsm = .waitQiangGangHu tile waiting →
      (∀ w ∈ waiting', Offer c (robOffers c s s.chuPaiPlayerIndex tile) w ∧
        w.answered .pass = true) →
      Outcome c s r (moPai c (doneLastAction (cleanGzh (adjustShouPai
        (waiting'.foldl (checkPass c .qiangGangHu false tile) s) s.chuPaiPlayerIndex .baGang tile)
          s.chuPaiPlayerIndex) s.chuPaiPlayerIndex (some (.baGang, tile))) r.rnd)
  | won : s.fsm ≠ .over → Outcome c s r (doBalance s)

/-- Only a pass is accepted that was not offered. -/
theorem Acts.offered {r : Request} {act : Action × Nat} (acts : Acts s r act)
    (offers : Offers c s) (other : act.1 ≠ .pass) :
    ∃ w, OwnOffer c s w ∧ act ∈ w.actions := by
  obtain ⟨w, phase, valid⟩ := acts.phase
  rw [Offers, phase] at offers
  exact ⟨w, offers, valid.resolve_left other⟩

theorem onBaipai_outcome {r : Request} {baipai : Int} {cards : Option (List Nat)}
    (phase : s.fsm = .waitBaiPai) (msg : r.msg = .baiPai baipai cards) (seated : r.chair ∈ c.seats) :
    Outcome c s r (onBaipai s r.chair baipai cards) := by
  unfold onBaipai
  split
  · exact .refused
  · rename_i fresh
    split
    · exact .refused
    · rename_i can
      refine .laidOut ⟨phase, msg, Bool.eq_false_of_not_eq_true fresh, ?_⟩ seated
      intro one
      exact Bool.eq_true_of_not_eq_false fun cannot => can ⟨one, cannot⟩

theorem onActionChuPai_outcome {r : Request} {tile : Nat} (phase : s.fsm = .waitChuPai)
    (msg : r.msg = .chuPai tile) : Outcome c s r (onActionChuPai c s r.chair tile r.rnd) := by
  unfold onActionChuPai
  split
  · exact .refused
  · rename_i valid
    obtain ⟨own, known, held⟩ := not_or.1 valid |>.imp_right not_or.1
    have own := Decidable.of_not_not own
    have discards : Discards s r tile := by
      refine ⟨phase, own, msg, Bool.eq_true_of_not_eq_false known, ?_⟩
      rw [State.chuPaiPlayer, own]
      exact held
    dsimp only
    split
    · exact .unclaimed discards
    · rename_i claims
      exact .discarded discards (Bool.eq_false_of_not_eq_true claims)

theorem resolveClaims_outcome {r : Request} {tile : Nat} {answers : List Waiting}
    (claims : Answers c s r tile answers) : Outcome c s r (resolveClaims c s answers r.rnd) := by
  have running : s.fsm ≠ .over := by
    obtain ⟨_, _, _, _, phase, _⟩ := claims.asked
    rw [phase]
    nofun
  unfold resolveClaims
  dsimp only
  split
  · exact .refused
  · rename_i top rest sorted
    have first : top ∈ sortAnswers (answers.filter fun w => w.done.isSome) := sorted ▸ .head _
    have top_in := (mem_sortAnswers.1 first).1
    split
    · exact .refused
    · rename_i action t done
      have offer := claims.offered.each top top_in
      cases offer.done _ done with
      | inl pass =>
          cases pass
          exact .allPassed claims
      | inr listed =>
          have valid := claim_offered
            (mem_generalActions (mem_getActions (offer.mem_getActions listed)).1)
          obtain rfl : t = tile := valid.1
          cases action with
          | peng => exact .peng claims top_in done listed
          | mingGang => exact .mingGang claims top_in done listed
          | hu => exact .won running
          | pass => exact .allPassed claims
          | _ => simp at valid

theorem onActionAfterChuPai_outcome {r : Request} {waiting : List Waiting} {action : Action}
    {t session : Nat} (offers : Offers c s) (phase : s.fsm = .waitActionAfterChuPai waiting)
    (msg : r.msg = .doAction action t session) :
    Outcome c s r (onActionAfterChuPai c s waiting r.chair action t session r.rnd) := by
  rw [Offers, phase] at offers
  obtain ⟨tile, discarded, asked, _⟩ := offers
  have claims : Answers c s r tile (answer waiting r.chair action t session) :=
    ⟨⟨waiting, action, t, session, phase, msg, rfl⟩, discarded,
      asked_answer asked r.chair action t session⟩
  unfold onActionAfterChuPai
  dsimp only
  split
  · exact resolveClaims_outcome claims
  · rename_i unsettled
    exact .answered claims (Bool.eq_false_of_not_eq_true unsettled)

theorem onBaGang_outcome {r : Request} {tile : Nat} (acts : Acts s r (.baGang, tile)) :
    Outcome c s r (onBaGang c s s.chuPaiPlayerIndex tile r.rnd) := by
  unfold onBaGang
  dsimp only
  split
  · exact .baGang acts
  · rename_i robs
    exact .robbable acts (Bool.eq_false_of_not_eq_true robs)

theorem onActionAfterMoPai_outcome {r : Request} {w : Waiting} {action : Action}
    {tile session : Nat} (phase : s.fsm = .waitActionAfterMoPai w)
    (msg : r.msg = .doAction action tile session) :
    Outcome c s r (onActionAfterMoPai c s w r.chair action tile session r.rnd) := by
  unfold onActionAfterMoPai
  cases h : checkActionBeforeDo [w] r.chair action tile session with
  | none => exact .refused
  | some w' =>
      obtain ⟨here, _, _, valid⟩ := accepted h
      cases List.mem_singleton.1 here
      dsimp only
      split
      · exact .refused
      · rename_i own
        have own := Decidable.of_not_not own
        have acts : Acts s r (action, tile) := ⟨⟨w, phase, valid⟩, own, session, msg⟩
        rw [own]
        cases action with
        | baGang => exact onBaGang_outcome acts
        | anGang => exact .anGang acts
        | ziMo => exact .won (phase ▸ nofun)
        | _ => exact .passed acts

theorem onActionQiangGangHu_outcome {r : Request} {tile : Nat} {waiting : List Waiting}
    {action : Action} {t session : Nat} (offers : Offers c s)
    (phase : s.fsm = .waitQiangGangHu tile waiting) :
    Outcome c s r (onActionQiangGangHu c s tile waiting r.chair action t session r.rnd) := by
  rw [Offers, phase] at offers
  unfold onActionQiangGangHu
  cases h : checkActionBeforeDo waiting r.chair action t session with
  | none => exact .refused
  | some w =>
      have asked := asked_answered offers.2 h
      dsimp only
      split
      · unfold resolveQiangGang
        dsimp only
        split
        · rename_i all_pass
          apply Outcome.unrobbed phase
          exact fun w listed => ⟨asked.each w listed, List.all_eq_true.1 all_pass w listed⟩
        · exact .won (phase ▸ nofun)
      · exact .robAnswered phase asked

theorem step_outcome (offers : Offers c s) (r : Request) : Outcome c s r (step c s r) := by
  unfold step
  split
  · exact .refused
  · rename_i known
    have seated := Decidable.of_not_not known
    split
    · rename_i msg
      unfold reconnect
      split
      · exact .told ‹_›
      · exact .offeredAgain ‹_›
      · exact .refused
    · exact .declared ‹_› ‹_›
    · exact onBaipai_outcome ‹_› ‹_› seated
    · exact onActionChuPai_outcome ‹_› ‹_›
    · split
      · exact onActionAfterMoPai_outcome ‹_› ‹_›
      · exact .refused
    · split
      · exact onActionAfterChuPai_outcome offers ‹_› ‹_›
      · exact .refused
    · split
      · exact onActionQiangGangHu_outcome offers ‹_›
      · exact .refused
    · exact .refused

/-! ### The table keeps to its offers -/

/-- What the offers to one player depend on besides that player. -/
structure Looks (s s' : State) : Prop where
  turn : s'.chuPaiPlayerIndex = s.chuPaiPlayerIndex
  lastAction : s'.chuPaiPlayer.lastAction = s.chuPaiPlayer.lastAction
  left : s'.dealer.remainCount = s.dealer.remainCount
  moPaiCount : s'.moPaiCount = s.moPaiCount

theorem Looks.of_core (same : s'.core = s.core) : Looks s s' := by
  have turn := congrArg State.chuPaiPlayerIndex same
  have player := congrArg (fun s : State => s.chuPaiPlayer.lastAction) same
  have left := congrArg (fun s : State => s.dealer.remainCount) same
  have count := congrArg State.moPaiCount same
  exact ⟨turn, player, left, count⟩

theorem Looks.huFanOf (same : Looks s s') : huFanOf c s' = huFanOf c s := by
  funext p chair current inPai moPai qiangGang
  unfold MaajanNanchong.huFanOf extHu
  rw [same.lastAction, same.left, same.moPaiCount]

theorem Looks.huFan (same : Looks s s') {i : Nat} (player : s'.player i = s.player i) :
    huFan c s' i = huFan c s i := by
  funext inPai moPai qiangGang
  unfold MaajanNanchong.huFan
  rw [same.huFanOf, same.turn, player]

theorem Looks.isBaotingCanGang (same : Looks s s') {i : Nat} (player : s'.player i = s.player i) :
    isBaotingCanGang c s' i = isBaotingCanGang c s i := by
  funext type tile
  unfold MaajanNanchong.isBaotingCanGang tingFans
  rw [same.huFanOf, same.turn, player]

theorem Looks.getActions (same : Looks s s') {i : Nat} (player : s'.player i = s.player i) :
    getActions c s' i = getActions c s i := by
  funext moPai inPai qiangGang
  unfold MaajanNanchong.getActions baotingActions generalActions gzhBlocks canHu
  rw [same.huFan player, same.isBaotingCanGang player, same.left, player]

theorem Looks.claimOffers (same : Looks s s')
    (others : ∀ i, i ≠ s.chuPaiPlayerIndex → s'.player i = s.player i) :
    claimOffers c s' = claimOffers c s := by
  funext tile i
  unfold MaajanNanchong.claimOffers
  rw [same.turn]
  by_cases here : i = s.chuPaiPlayerIndex
  · rw [if_pos here, if_pos here]
  · rw [if_neg here, if_neg here, same.getActions (others i here)]

/-- A declaration is refused, or kept and the last one begins the round. -/
theorem onBaoting_cases (c : Conf) (s : State) (chair : Nat) (baoting : Int) :
    onBaoting c s chair baoting = s ∨
    (s.fsm = .waitBaoTing ∧ (s.player chair).baoting = none ∧
      (onBaoting c s chair baoting = s.update chair (fun p => p.declare baoting) ∨
        (∀ i ∈ c.seats, ((s.update chair fun p => p.declare baoting).player i).baoting.isSome) ∧
        onBaoting c s chair baoting = actionAfterBaoting c
          (jumpToPlayerIndex (s.update chair fun p => p.declare baoting) c.zhuang))) := by
  unfold onBaoting
  split
  · rename_i phase
    split
    · exact .inl rfl
    · rename_i unasked
      refine .inr ⟨phase, by simpa using unasked, ?_⟩
      dsimp only
      split
      · rename_i all
        exact .inr ⟨fun i seated => List.all_eq_true.1 all i seated, rfl⟩
      · exact .inl rfl
  · exact .inl rfl

theorem ownTurn_onBaoting (own : OwnTurn c s) (chair : Nat) (baoting : Int) :
    OwnTurn c (onBaoting c s chair baoting) := by
  rcases onBaoting_cases c s chair baoting with same | ⟨phase, _, same | ⟨_, same⟩⟩
  · rw [same]
    exact own
  · have offers := own.offers
    rw [same]
    simp only [Offers, phase] at offers
    constructor
    · simp only [OwnPhase, State.update, phase]
    · simp only [Offers, State.update, phase]
      exact offers
  · exact same ▸ ownTurn_firstTurn _

/-- What declarations and tips keep, the tips to all players keep. -/
theorem tips_keep {Inv : State → Prop}
    (declared : ∀ s chair baoting, Inv s → Inv (onBaoting c s chair baoting))
    (told : ∀ s chair info, Inv s → Inv (s.update chair fun p => p.tell info)) (inv : Inv s)
    (chairs : List Nat) : Inv (chairs.foldl (sendBaotingTips c) s) := by
  have one : ∀ s chair, Inv s → Inv (sendBaotingTips c s chair) := by
    intro s chair inv
    have dealer : Inv (if chair = c.zhuang then onBaoting c s chair 0 else s) := by
      split
      · exact declared s chair 0 inv
      · exact inv
    unfold sendBaotingTips
    split
    · dsimp only
      split
      · exact told _ chair _ dealer
      · exact declared _ chair 0 dealer
    · exact inv
  induction chairs generalizing s with
  | nil => exact inv
  | cons chair chairs ih => exact ih (one s chair inv)

theorem ownTurn_tips (own : OwnTurn c s) (chairs : List Nat) :
    OwnTurn c (chairs.foldl (sendBaotingTips c) s) := by
  refine @tips_keep c s (OwnTurn c) ?_ ?_ own chairs
  · exact fun s chair baoting own => ownTurn_onBaoting own chair baoting
  · exact fun s chair info own => own.update chair (fun _ => rfl) fun _ => rfl

theorem chuPai_discard (s : State) (tile : Nat) :
    (discard s tile).chuPaiPlayer.chuPai = some tile := by
  refine (congrArg Player.chuPai (State.update_self _ s.chuPaiPlayerIndex _)).trans ?_
  simp [onChuPai, State.update]

theorem offers_discarded {tile : Nat}
    (claims : (collect (claimOffers c (discard s tile) tile) c.seats s.sessionId).1.isEmpty = false) :
    Offers c { selfPassed c (discard s tile) tile with
      sessionId := (collect (claimOffers c (discard s tile) tile) c.seats s.sessionId).2
      fsm := .waitActionAfterChuPai
        (c.pairs (collect (claimOffers c (discard s tile) tile) c.seats s.sessionId).1) } := by
  have same : claimOffers c (selfPassed c (discard s tile) tile) = claimOffers c (discard s tile) := by
    apply (Looks.of_core (core_selfPassed tile)).claimOffers
    exact fun i other => others_selfPassed other tile
  have marked := congrArg (fun s : State => s.chuPaiPlayer.chuPai)
    (core_selfPassed (c := c) (s := discard s tile) tile)
  refine ⟨tile, ?_, ?_, claimsSettled_pairs claims⟩
  · exact marked.trans (chuPai_discard s tile)
  · have asked := asked_pairs claims
    rw [← same] at asked ⊢
    exact asked

theorem Outcome.offers {r : Request} (offers : Offers c s) (out : Outcome c s r s') :
    Offers c s' := by
  cases out with
  | refused => exact offers
  | declared phase =>
      have own : OwnTurn c s := ⟨phase ▸ trivial, offers⟩
      exact (ownTurn_onBaoting own _ _).offers
  | told phase =>
      have own : OwnTurn c s := ⟨phase ▸ trivial, offers⟩
      exact (ownTurn_tips own _).offers
  | laidOut | won => trivial
  | offeredAgain phase =>
      rw [Offers, phase] at offers
      exact (ownTurn_baipai offers _).offers
  | unclaimed | allPassed | unrobbed => exact (ownTurn_moPai _).offers
  | discarded _ claims => exact offers_discarded claims
  | answered claims unsettled => exact ⟨_, claims.discarded, claims.offered, unsettled⟩
  | peng => exact (ownTurn_baipaiOrChuPai.done _ _).offers
  | mingGang | anGang | baGang => exact ((ownTurn_moPai _).done _ _).offers
  | robbable acts robs =>
      obtain ⟨w, own, listed⟩ := acts.offered offers nofun
      exact ⟨own.baGang _ listed, asked_pairs robs⟩
  | passed => exact ownTurn_baipaiOrChuPai.offers
  | robAnswered phase asked =>
      rw [Offers, phase] at offers
      exact ⟨offers.1, asked⟩

end FkServer.MaajanNanchong
