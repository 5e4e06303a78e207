import FkServer.MaajanXuezhan.Exchange

/-!
The table plays the game: each request does nothing the game sees, or one move and
then moves in which nobody wins, and afterwards the table again waits only for moves
that the game allows.
-/
namespace FkServer.MaajanXuezhan

open Relation (ReflTransGen)

variable {c : Conf} {ok : Guard} {s s' : State}

/-! ### A discard -/

/-- The table after the player on turn has laid down `tile`. -/
def discarded (s : State) (tile : Nat) : State :=
  let chair := s.chuPaiPlayerIndex
  let s := onChuPai (s.update chair fun p => p.withShouPai fun counts => decr counts tile 1) tile
  s.update chair fun p => { p with pai := { p.pai with deskTiles := p.pai.deskTiles ++ [tile] } }

/-- What the others are offered then. -/
def discardOffers (c : Conf) (s : State) (tile i : Nat) : List (Action × Nat) :=
  if ((discarded s tile).player i).hu.isSome ∨ i = s.chuPaiPlayerIndex then []
  else getActions c (discarded s tile) i none (some tile) false

/-- And what the discard blocks for the player on turn. -/
def selfPassed (c : Conf) (s : State) (tile : Nat) : State :=
  (getSelfActionsAndSetPass c (discarded s tile) s.chuPaiPlayerIndex tile).update
    s.chuPaiPlayerIndex fun p => { p with lastPenghu := none }

theorem selfPassed_unseen (c : Conf) (s : State) (tile : Nat) :
    Unseen (discarded s tile) (selfPassed c s tile) :=
  (getSelfActionsAndSetPass_unseen c _ _ tile).trans
    (.update _ (fun _ => rfl) (fun _ => rfl) (fun _ => rfl) fun _ => rfl)

theorem view_discarded (s : State) (tile : Nat) (phase : Phase) :
    view (discarded s tile) .claim = (view s phase).discard tile := by
  unfold discarded
  dsimp only
  rw [view_discard, view_onChuPai, view_withShouPai]
  rfl

theorem chuPai_onChuPai (s : State) (tile : Nat) :
    ((onChuPai s tile).player s.chuPaiPlayerIndex).chuPai = some tile := by
  simp [onChuPai]

theorem chuPai_discarded (s : State) (tile : Nat) :
    (discarded s tile).chuPaiPlayer.chuPai = some tile :=
  (congrArg Player.chuPai (State.update_self _ s.chuPaiPlayerIndex _)).trans
    (chuPai_onChuPai _ tile)

theorem onActionChuPai_eq (c : Conf) (s : State) (tile rnd : Nat) :
    onActionChuPai c s s.chuPaiPlayerIndex tile rnd =
      if s.chuPaiPlayerIndex ≠ s.chuPaiPlayerIndex ∨ checkTile tile = false ∨
          s.chuPaiPlayer.pai.shouPai tile = 0 ∨ queFirst s.chuPaiPlayer tile = true then
        some s
      else if (collect (discardOffers c s tile) c.seats s.sessionId).1.isEmpty then
        (nextPlayerIndex c (selfPassed c s tile) (selfPassed c s tile).chuPaiPlayerIndex).map
          fun s => moPai c s rnd
      else
        some { selfPassed c s tile with
          sessionId := (collect (discardOffers c s tile) c.seats s.sessionId).2
          fsm := .waitActionAfterChuPai
            (c.pairs (collect (discardOffers c s tile) c.seats s.sessionId).1) } := rfl

theorem discardOffers_claim {tile : Nat} {w : Waiting}
    (h : w ∈ (collect (discardOffers c s tile) c.seats s.sessionId).1) (phase : Phase) :
    ClaimOffer c ((view s phase).discard tile)
      (collect (discardOffers c s tile) c.seats s.sessionId).2 tile w := by
  obtain ⟨seated, acts, undone, some_act, _, session⟩ := mem_collect h
  have asked : ¬ (((discarded s tile).player w.chairId).hu.isSome ∨
      w.chairId = s.chuPaiPlayerIndex) := by
    intro not_asked
    rw [discardOffers, if_pos not_asked] at some_act
    cases some_act
  have offered : ∀ act ∈ w.actions, act ∈ paiActions ((discarded s tile).player w.chairId).pai
      none (some tile) c.play.siDui := by
    intro act listed
    rw [acts, discardOffers, if_neg asked] at listed
    exact mem_getActions listed
  obtain ⟨not_won, others⟩ := not_or.1 asked
  have seen := view_discarded s tile phase
  refine ⟨⟨⟨seated, others, ?_⟩, ?_, ?_, session⟩, ?_, ?_, ?_⟩
  · rw [← seen]
    simpa [view] using not_won
  · exact fun act listed => (claim_offered (offered act listed)).1
  · intro act done
    rw [undone] at done
    cases done
  · intro act listed is_peng
    rw [← seen]
    exact (claim_offered (offered act listed)).2.1 is_peng
  · intro act listed is_gang
    rw [← seen]
    exact (claim_offered (offered act listed)).2.2.1 is_gang
  · exact fun act listed => (claim_offered (offered act listed)).2.2.2

theorem onActionChuPai_burst {chair tile rnd : Nat} (fsm : s.fsm = .waitChuPai)
    (h : onActionChuPai c s chair tile rnd = some s') :
    Burst c ok (abs s) (abs s') ∧ Offers c s' := by
  have here : abs s = view s (.act none) := by rw [abs, phaseOf, fsm]
  have offers : Offers c s := by
    rw [Offers, fsm]
    trivial
  by_cases own : s.chuPaiPlayerIndex = chair
  · subst own
    rw [onActionChuPai_eq] at h
    split at h
    · cases h
      exact ⟨.inl rfl, offers⟩
    · rename_i valid
      simp only [not_or] at valid
      have seen : view (selfPassed c s tile) .claim = (abs s).discard tile := by
        rw [(selfPassed_unseen c s tile).view, here, view_discarded]
      have phase : (abs s).phase = .act none := by
        rw [here]
        rfl
      have move : Move c ok false (abs s) ((abs s).discard tile) := .discard phase valid.2.2.1
      split at h
      · obtain ⟨s₁, next, rfl⟩ := Option.map_eq_some_iff.1 h
        obtain ⟨chair, found, moved⟩ := nextPlayerIndex_view next
        have pass : Move c ok false ((abs s).discard tile) (view s₁ .draw) := by
          have unclaimed : Move c ok false (view (selfPassed c s tile) .claim) _ :=
            .unclaimed rfl (found .claim)
          rw [seen] at unclaimed
          rw [moved .draw]
          rw [← seen] at unclaimed ⊢
          exact unclaimed
        exact ⟨.inr ⟨false, _, move, .head pass (moPai_quiet c ok s₁ rnd)⟩, moPai_offers c s₁ rnd⟩
      · rename_i somebody
        cases h
        rw [← seen] at move
        refine ⟨.inr ⟨false, _, move, .refl⟩, tile, ?_, ?_, ?_⟩
        · have top : (((abs s).discard tile).desk ((abs s).discard tile).turn).getLast? =
              some tile := by
            simp [Game.discard]
          rw [← seen] at top
          exact top
        · exact (selfPassed_unseen c s tile).waiting_discard.trans (chuPai_discarded s tile)
        · apply asked_pairs (Bool.eq_false_of_not_eq_true somebody)
          intro w listed
          have claim := discardOffers_claim listed (.act none)
          rw [← here, ← seen] at claim
          exact claim
  · unfold onActionChuPai at h
    rw [if_pos (.inl own)] at h
    cases h
    exact ⟨.inl rfl, offers⟩

/-! ### The answers to a discard -/

theorem luaSort_perm (lt : Waiting → Waiting → Bool) (answers : List Waiting) :
    (luaSort lt answers).Perm answers := by
  unfold luaSort
  split
  · split
    · exact .swap _ _ _
    · exact .refl _
  · rename_i a b d
    have ends : [d, b, a].Perm [a, b, d] := List.reverse_perm [a, b, d]
    cases lt d a with
    | true =>
        simp only [if_true]
        split
        · exact (List.Perm.swap d b [a]).trans ends
        split
        · exact ((List.Perm.swap b a []).cons d).trans ends
        · exact ends
    | false =>
        simp only [Bool.false_eq_true, if_false]
        split
        · exact .swap a b [d]
        split
        · exact (List.Perm.swap b d []).cons a
        · exact .refl _
  · exact List.mergeSort_perm _ _

/-- The answers that decide are those of the players who have answered. -/
theorem mem_sortAnswers {waiting : List Waiting} {w : Waiting} :
    w ∈ sortAnswers (waiting.filter fun w => w.done.isSome) ↔ w ∈ waiting ∧ w.done.isSome := by
  rw [sortAnswers, (luaSort_perm _ _).mem_iff, List.mem_filter]

theorem sortAnswers_nodup {each : Waiting → Prop} {waiting : List Waiting}
    (asked : Asked each waiting) :
    ((sortAnswers (waiting.filter fun w => w.done.isSome)).map Waiting.chairId).Nodup := by
  rw [sortAnswers, ((luaSort_perm _ _).map Waiting.chairId).nodup_iff]
  exact asked.nodup.sublist (List.filter_sublist.map Waiting.chairId)

theorem abs_doPeng (claim : phaseOf s = .claim) (chair tile : Nat) (answers : List Waiting) :
    abs (doPeng c s chair tile answers) = (abs s).peng chair tile := by
  have prepared : Unseen s (lastActionIsCanPenghu c (cleanGzh s chair) chair tile answers) :=
    (cleanGzh_unseen s chair).trans (lastActionIsCanPenghu_unseen c _ chair tile answers)
  rw [show abs s = view s .claim by rw [abs, claim]]
  unfold doPeng
  dsimp only
  generalize lastActionIsCanPenghu c (cleanGzh s chair) chair tile answers = s₁ at prepared ⊢
  have laid : view (adjustShouPai (popDesk s₁) chair .peng tile) (.act none) =
      (view s₁ (.act none)).popDesk.lay chair tile 2
        ⟨.peng, tile, some s₁.chuPaiPlayerIndex, none, none, s₁.clock⟩ := by
    rw [← view_popDesk]
    exact view_lay _ _ _ _ _ _
  have checked := (checkAllPass_unseen c answers (adjustShouPai (popDesk s₁) chair .peng tile)).view
    (.act none)
  rw [abs_doneLastAction, abs_chuPai_jump, checked, laid, prepared.view, prepared.turn, prepared.clock]
  rfl

theorem doMingGang_quiet (claim : phaseOf s = .claim) (chair tile : Nat) (answers : List Waiting)
    (rnd : Nat) :
    Quiet c ok ((abs s).mingGang chair tile) (abs (doMingGang c s chair tile answers rnd)) := by
  have prepared := cleanGzh_unseen s chair
  rw [show abs s = view s .claim by rw [abs, claim]]
  unfold doMingGang
  dsimp only
  generalize cleanGzh s chair = s₁ at prepared ⊢
  have laid : view (adjustShouPai (popDesk s₁) chair .mingGang tile) .draw =
      (view s₁ .draw).popDesk.lay chair tile 3
        ⟨.mingGang, tile, some s₁.chuPaiPlayerIndex, none, none, s₁.clock⟩ := by
    rw [← view_popDesk]
    exact view_lay _ _ _ _ _ _
  have checked := (checkAllPass_unseen c answers
    (adjustShouPai (popDesk s₁) chair .mingGang tile)).view .draw
  have now : view (jumpToPlayerIndex (checkAllPass c answers
      (adjustShouPai (popDesk s₁) chair .mingGang tile)) chair) .draw =
        (view s .claim).mingGang chair tile := by
    rw [view_jump, checked, laid, prepared.view, prepared.turn, prepared.clock]
    rfl
  rw [abs_doneLastAction, ← now]
  exact moPai_quiet c ok _ rnd

theorem lastAction_update {chair : Nat} {f : Player → Player}
    (keep : ∀ p, (f p).lastAction = p.lastAction) (i : Nat) :
    ((s.update chair f).player i).lastAction = (s.player i).lastAction := by
  by_cases here : i = chair
  · subst here
    rw [State.update_self, keep]
  · rw [State.update_of_ne here]

theorem gangTile_congr (same : s'.chuPaiPlayer.lastAction = s.chuPaiPlayer.lastAction) :
    gangTile s' = gangTile s := by
  rw [gangTile, same, gangTile]

theorem gangTile_setHu (s : State) (chair : Nat) (won : Hu) :
    gangTile (setHu s chair won) = gangTile s := by
  apply gangTile_congr
  unfold setHu State.chuPaiPlayer
  refine lastAction_update ?_ _
  exact fun _ => rfl

theorem turn_markDianPao (s : State) (chair : Nat) :
    (markDianPao s chair).chuPaiPlayerIndex = s.chuPaiPlayerIndex := by
  rw [markDianPao_eq]
  split <;> rfl

theorem gangTile_markDianPao (s : State) (chair : Nat) :
    gangTile (markDianPao s chair) = gangTile s := by
  rw [markDianPao_eq]
  split
  · rfl
  · apply gangTile_congr
    refine lastAction_update ?_ _
    exact fun _ => rfl

/-- The winners of a discard, one after another. -/
theorem view_foldl_huOne (c : Conf) (tile : Nat) (winners : List Waiting) (s : State)
    (phase : Phase) :
    view (winners.foldl (huOne c tile) s) phase =
      (winners.map Waiting.chairId).foldl (fun g chair =>
        (g.winOne (some false) (some s.chuPaiPlayerIndex) chair).mark (gangTile s) chair)
          (view s phase) := by
  induction winners generalizing s with
  | nil => rfl
  | cons w winners ih =>
      have turn : (huOne c tile s w).chuPaiPlayerIndex = s.chuPaiPlayerIndex :=
        turn_markDianPao _ _
      have gang : gangTile (huOne c tile s w) = gangTile s :=
        (gangTile_markDianPao _ _).trans (gangTile_setHu _ _ _)
      have one : view (huOne c tile s w) phase =
          ((view s phase).winOne (some false) (some s.chuPaiPlayerIndex) w.chairId).mark
            (gangTile s) w.chairId := by
        unfold huOne
        rw [view_markDianPao, gangTile_setHu, view_setHu _ _ _ _ rfl]
      rw [List.foldl_cons, ih, turn, gang, one]
      rfl

/-- The table after the winners of a discard have been written down. -/
def claimed (c : Conf) (s : State) (tile : Nat) (winners : List Waiting) : State :=
  let s :=
    if 1 < winners.length ∧ huCount c s = 0 then
      s.update s.chuPaiPlayerIndex fun p => { p with firstMultiPao := true }
    else s
  let s := popDesk (winners.foldl (huOne c tile) s)
  { s with taken := tile :: s.taken }

theorem view_claimed (c : Conf) (s : State) (tile : Nat) (winners : List Waiting) (phase : Phase) :
    view (claimed c s tile winners) phase =
      (view s phase).claimWins c (gangTile s) (winners.map Waiting.chairId) tile := by
  have written : ∀ s₁ : State, s₁.chuPaiPlayerIndex = s.chuPaiPlayerIndex →
      gangTile s₁ = gangTile s →
      view (popDesk (winners.foldl (huOne c tile) s₁)) phase =
        ((winners.map Waiting.chairId).foldl (fun g chair =>
          (g.winOne (some false) (some s.chuPaiPlayerIndex) chair).mark (gangTile s) chair)
            (view s₁ phase)).popDesk := by
    intro s₁ turn gang
    rw [view_popDesk, view_foldl_huOne, turn, gang]
  unfold claimed Game.claimWins
  rw [List.length_map, huCount_eq c s phase]
  by_cases first : 1 < winners.length ∧ (view s phase).winCount c = 0
  · have gang : gangTile (s.update s.chuPaiPlayerIndex fun p => { p with firstMultiPao := true }) =
        gangTile s := by
      apply gangTile_congr
      refine lastAction_update ?_ _
      exact fun _ => rfl
    have flagged := written (s.update s.chuPaiPlayerIndex fun p => { p with firstMultiPao := true })
      rfl gang
    rw [view_multi] at flagged
    simp only [if_pos first]
    exact congrArg (fun g : Game => { g with taken := tile :: g.taken }) flagged
  · simp only [if_neg first]
    exact congrArg (fun g : Game => { g with taken := tile :: g.taken }) (written s rfl rfl)

theorem doHu_burst (claim : phaseOf s = .claim) {chair tile rnd : Nat} {answers : List Waiting}
    (somebody : (answers.filter fun w => w.answered .hu) ≠ [])
    (nodup : (answers.map Waiting.chairId).Nodup)
    (free : ∀ w ∈ answers, (abs s).Free c w.chairId)
    (top : ((abs s).desk (abs s).turn).getLast? = some tile)
    (h : doHu c s chair tile answers rnd = some s') :
    Burst c ok (abs s) (abs s') ∧ Offers c s' := by
  have here : abs s = view s .claim := by rw [abs, claim]
  obtain ⟨s₁, after, rfl⟩ := Option.map_eq_some_iff.1 h
  refine ⟨?_, (offers_doneLastAction _ _).2 (afterHu_offers after)⟩
  obtain ⟨g, ended, rest⟩ := afterHu_quiet ok .claim after
  rw [(checkAllPass_unseen c answers _).view] at ended
  have wins : Game.AfterWin c ((abs s).claimWins c (gangTile s)
      ((answers.filter fun w => w.answered .hu).map Waiting.chairId) tile)
      (((answers.filter fun w => w.answered .hu).map Waiting.chairId).foldl max 0) g := by
    rw [here, ← view_claimed]
    exact ended
  refine .inr ⟨true, g, ?_, rest⟩
  apply Move.claimWins _ _ _ _ top wins
  · rw [here]
    rfl
  · exact fun none_left => somebody (List.map_eq_nil_iff.1 none_left)
  · exact nodup.sublist (List.filter_sublist.map Waiting.chairId)
  · intro i listed
    obtain ⟨w, answered, rfl⟩ := List.mem_map.1 listed
    exact free w (List.mem_of_mem_filter answered)

theorem resolveClaims_burst {waiting : List Waiting} {tile session rnd : Nat}
    (claim : phaseOf s = .claim) (offers : Offers c s)
    (top : ((abs s).desk (abs s).turn).getLast? = some tile)
    (asked : Asked (ClaimOffer c (abs s) session tile) waiting)
    (h : resolveClaims c s waiting rnd = some s') :
    Burst c ok (abs s) (abs s') ∧ Offers c s' := by
  have here : abs s = view s .claim := by rw [abs, claim]
  have phase : (abs s).phase = .claim := by
    rw [here]
    rfl
  have listed : ∀ w ∈ sortAnswers (waiting.filter fun w => w.done.isSome),
      ClaimOffer c (abs s) session tile w :=
    fun w h => asked.each w (mem_sortAnswers.1 h).1
  unfold resolveClaims at h
  cases sorted : sortAnswers (waiting.filter fun w => w.done.isSome) with
  | nil =>
      rw [sorted] at h
      cases h
  | cons first others =>
      rw [sorted] at listed
      have offer := listed first (.head _)
      simp only [sorted] at h
      cases answer : first.done with
      | none =>
          rw [answer] at h
          cases h
      | some act =>
          obtain ⟨action, t⟩ := act
          have offered := offer.done _ answer
          rw [answer] at h
          cases action with
          | peng =>
              have is_tile : t = tile := offer.actions _ (offered.resolve_left (by simp))
              have two := offer.peng _ (offered.resolve_left (by simp)) rfl
              cases h
              have move : Move c ok false (abs s) ((abs s).peng first.chairId t) :=
                .peng phase offer.free (is_tile ▸ top) (is_tile ▸ two)
              rw [← abs_doPeng claim] at move
              exact ⟨.inr ⟨false, _, move, .refl⟩, trivial⟩
          | mingGang =>
              have is_tile : t = tile := offer.actions _ (offered.resolve_left (by simp))
              have three := offer.mingGang _ (offered.resolve_left (by simp)) rfl
              cases h
              have move : Move c ok false (abs s) ((abs s).mingGang first.chairId t) :=
                .mingGang phase offer.free (is_tile ▸ top) (is_tile ▸ three)
              exact ⟨.inr ⟨false, _, move, doMingGang_quiet claim _ _ _ _⟩, moPai_offers c _ rnd⟩
          | hu =>
              have is_tile : t = tile := offer.actions _ (offered.resolve_left (by simp))
              refine doHu_burst claim ?_ (sorted ▸ sortAnswers_nodup asked)
                (fun w h => (listed w h).free) (is_tile ▸ top) h
              intro nobody
              have := List.filter_eq_nil_iff.1 nobody first (.head _)
              simp [Waiting.answered, answer] at this
          | pass =>
              obtain ⟨s₁, next, rfl⟩ := Option.map_eq_some_iff.1 h
              obtain ⟨chair, found, moved⟩ := nextPlayerIndex_view next
              have same := (checkAllPass_unseen c (first :: others) s).view .claim
              have next_seat := found .claim
              rw [same, ← here] at next_seat
              have move : Move c ok false (abs s) { abs s with turn := chair, phase := .draw } :=
                .unclaimed phase next_seat
              have drawing : view s₁ .draw = { abs s with turn := chair, phase := .draw } := by
                rw [moved .draw, (checkAllPass_unseen c (first :: others) s).view, here]
                rfl
              rw [← drawing] at move
              exact ⟨.inr ⟨false, _, move, moPai_quiet c ok s₁ rnd⟩, moPai_offers c s₁ rnd⟩
          | _ =>
              cases h
              exact ⟨.inl rfl, offers⟩

/-- The answers after a request of a player who is asked. -/
def claimsAfter (waiting : List Waiting) (chair : Nat) (action : Action) (tile session : Nat) :
    List Waiting :=
  match checkActionBeforeDo waiting chair action tile session with
  | none => waiting
  | some _ => setDone waiting chair (action, tile)

theorem Asked.claimsAfter {g : Game} {session tile : Nat} {waiting : List Waiting}
    (asked : Asked (ClaimOffer c g session tile) waiting) (chair : Nat) (action : Action)
    (answered session' : Nat) :
    Asked (ClaimOffer c g session tile) (claimsAfter waiting chair action answered session') := by
  unfold MaajanXuezhan.claimsAfter
  split
  · exact asked
  · rename_i w accepted
    exact asked.claimAnswered accepted

theorem onActionAfterChuPai_eq (c : Conf) (s : State) (waiting : List Waiting) (chair : Nat)
    (action : Action) (tile session rnd : Nat) :
    onActionAfterChuPai c s waiting chair action tile session rnd =
      if claimsSettled (claimsAfter waiting chair action tile session) then
        resolveClaims c s (claimsAfter waiting chair action tile session) rnd
      else
        some { s with
          fsm := .waitActionAfterChuPai (claimsAfter waiting chair action tile session) } := rfl

theorem onActionAfterChuPai_burst {waiting : List Waiting} {chair : Nat} {action : Action}
    {tile session rnd : Nat} (fsm : s.fsm = .waitActionAfterChuPai waiting) (offers : Offers c s)
    (h : onActionAfterChuPai c s waiting chair action tile session rnd = some s') :
    Burst c ok (abs s) (abs s') ∧ Offers c s' := by
  have claim : phaseOf s = .claim := by rw [phaseOf, fsm]
  have now := offers
  rw [Offers, fsm] at now
  obtain ⟨discard, top, waits, asked⟩ := now
  have asked' := asked.claimsAfter chair action tile session
  rw [onActionAfterChuPai_eq] at h
  split at h
  · exact resolveClaims_burst claim offers top asked' h
  · cases h
    have same : abs { s with
        fsm := .waitActionAfterChuPai (claimsAfter waiting chair action tile session) } = abs s := by
      rw [abs, abs, claim]
      rfl
    refine ⟨.inl same.symm, ?_⟩
    unfold Offers
    dsimp only
    rw [same]
    exact ⟨discard, top, waits, asked'⟩

/-! ### The own turn -/

theorem adjust_baGang {chair tile : Nat} {old : Section}
    (laid : (s.player chair).pai.mingPai.find? (Section.isPeng tile) = some old) (phase : Phase)
    (turn : s.chuPaiPlayerIndex = chair) :
    view (adjustShouPai s chair .baGang tile) .draw = (view s phase).baGang tile old := by
  have found : adjustShouPai s chair .baGang tile =
      { s.update chair fun p =>
          { p with pai := { p.pai with
              shouPai := decr p.pai.shouPai tile 1
              mingPai := p.pai.mingPai.eraseP (Section.isPeng tile) ++
                [⟨.baGang, tile, old.whoee, some s.clock, none, s.clock⟩] } } with
        clock := s.clock + 1 } := by
    unfold adjustShouPai
    simp only [laid]
  rw [found]
  simp only [view, Game.baGang, turn]
  congr 1 <;> funext i <;> by_cases h : i = chair <;> simp [State.update, alter, h]

theorem afterGang_quiet (c : Conf) (ok : Guard) (s : State) (chair : Nat) (action : Action)
    (tile rnd : Nat) :
    Quiet c ok (view s .draw) (abs (afterGang c s chair action tile rnd)) := by
  unfold afterGang
  rw [abs_doneLastAction]
  exact moPai_quiet c ok s rnd

theorem onAnGang_burst {drawn : Option Nat} {chair tile : Nat} (act : phaseOf s = .act drawn)
    (turn : s.chuPaiPlayerIndex = chair) (four : (abs s).hand (abs s).turn tile = 4) (rnd : Nat) :
    Burst c ok (abs s) (abs (onAnGang c s chair tile rnd)) ∧
      Offers c (onAnGang c s chair tile rnd) := by
  have here : abs s = view s (.act drawn) := by rw [abs, act]
  have cleaned := cleanGzh_unseen s chair
  have move : Move c ok false (abs s) ((abs s).anGang tile) :=
    .anGang (by rw [here]; rfl) four
  have laid : view (jumpToPlayerIndex (adjustShouPai (cleanGzh s chair) chair .anGang tile) chair)
      .draw = (abs s).anGang tile := by
    have adjusted : view (adjustShouPai (cleanGzh s chair) chair .anGang tile) .draw =
        (view (cleanGzh s chair) .draw).lay chair tile 4
          ⟨.anGang, tile, none, some s.clock, none, s.clock⟩ := view_lay _ _ _ _ _ _
    rw [view_jump, adjusted, cleaned.view, here, Game.anGang, ← turn]
    rfl
  refine ⟨.inr ⟨false, _, move, ?_⟩, moPai_offers c _ rnd⟩
  rw [← laid]
  exact afterGang_quiet c ok _ chair .anGang tile rnd

/-- What the others are offered when a tile is added to a triplet. -/
def robOffers (c : Conf) (s : State) (chair tile i : Nat) : List (Action × Nat) :=
  if i = chair ∨ (s.player i).hu.isSome then
    []
  else
    ((getActions c s i none (some tile) true).filter fun act => act.1 = .hu).map
      fun act => (Action.qiangGangHu, act.2)

theorem robOffers_offer {chair tile : Nat} {w : Waiting} (turn : s.chuPaiPlayerIndex = chair)
    (h : w ∈ (collect (robOffers c s chair tile) c.seats s.sessionId).1) (phase : Phase) :
    RobOffer c (view s phase) (collect (robOffers c s chair tile) c.seats s.sessionId).2 tile w := by
  obtain ⟨seated, acts, undone, some_act, _, session⟩ := mem_collect h
  have asked : ¬ (w.chairId = chair ∨ (s.player w.chairId).hu.isSome) := by
    intro not_asked
    rw [robOffers, if_pos not_asked] at some_act
    cases some_act
  have offered : ∀ act ∈ w.actions, act.1 = .qiangGangHu ∧ act.2 = tile := by
    intro act listed
    rw [acts, robOffers, if_neg asked] at listed
    obtain ⟨win, from_offers, rfl⟩ := List.mem_map.1 listed
    exact ⟨rfl, (claim_offered (mem_getActions (List.mem_of_mem_filter from_offers))).1⟩
  obtain ⟨others, not_won⟩ := not_or.1 asked
  refine ⟨⟨⟨seated, ?_, ?_⟩, fun act listed => (offered act listed).2, ?_, session⟩,
    fun act listed => (offered act listed).1⟩
  · exact fun same => others (same.trans turn)
  · simpa [view] using not_won
  · intro act done
    rw [undone] at done
    cases done

theorem onBaGang_eq (c : Conf) (s : State) (chair tile rnd : Nat) :
    onBaGang c s chair tile rnd =
      if (collect (robOffers c s chair tile) c.seats s.sessionId).1.isEmpty then
        afterGang c (jumpToPlayerIndex (cleanGzh (adjustShouPai s chair .baGang tile) chair) chair)
          chair .baGang tile rnd
      else
        { s with
          sessionId := (collect (robOffers c s chair tile) c.seats s.sessionId).2
          fsm := .waitQiangGangHu tile
            (c.pairs (collect (robOffers c s chair tile) c.seats s.sessionId).1) } := rfl

theorem onBaGang_burst {drawn : Option Nat} {chair tile : Nat} {old : Section}
    (act : phaseOf s = .act drawn) (turn : s.chuPaiPlayerIndex = chair)
    (held : 0 < (abs s).hand (abs s).turn tile ∨ drawn = some tile)
    (laid : ((abs s).melds (abs s).turn).find? (Section.isPeng tile) = some old) (rnd : Nat) :
    Burst c ok (abs s) (abs (onBaGang c s chair tile rnd)) ∧
      Offers c (onBaGang c s chair tile rnd) := by
  have here : abs s = view s (.act drawn) := by rw [abs, act]
  have phase : (abs s).phase = .act drawn := by
    rw [here]
    rfl
  have found : (s.player chair).pai.mingPai.find? (Section.isPeng tile) = some old := turn ▸ laid
  rw [onBaGang_eq]
  split
  · have added : view (jumpToPlayerIndex
        (cleanGzh (adjustShouPai s chair .baGang tile) chair) chair) .draw =
          (abs s).baGang tile old := by
      rw [view_jump, (cleanGzh_unseen _ chair).view, adjust_baGang found (.act drawn) turn, here,
        ← turn]
      rfl
    have move : Move c ok false (abs s) ((abs s).baGang tile old) := .baGang phase held laid
    refine ⟨.inr ⟨false, _, move, ?_⟩, moPai_offers c _ rnd⟩
    rw [← added]
    exact afterGang_quiet c ok _ chair .baGang tile rnd
  · rename_i somebody
    have move : Move c ok false (abs s) { abs s with phase := .rob tile } := .declare phase held
    refine ⟨.inr ⟨false, _, move, .refl⟩, ⟨old, laid⟩, ?_⟩
    apply asked_pairs (Bool.eq_false_of_not_eq_true somebody)
    exact fun w listed => robOffers_offer turn listed _

theorem onZiMo_burst {drawn : Option Nat} {chair tile rnd : Nat} (act : phaseOf s = .act drawn)
    (turn : s.chuPaiPlayerIndex = chair) (h : onZiMo c s chair tile rnd = some s') :
    Burst c ok (abs s) (abs s') ∧ Offers c s' := by
  have here : abs s = view s (.act drawn) := by rw [abs, act]
  obtain ⟨s₁, after, rfl⟩ := Option.map_eq_some_iff.1 h
  refine ⟨?_, (offers_doneLastAction _ _).2 (afterHu_offers after)⟩
  obtain ⟨g, ended, rest⟩ := afterHu_quiet ok (.act drawn) after
  rw [view_setHu _ _ _ _ rfl, ← here, ← turn] at ended
  have phase : (abs s).phase = .act drawn := by
    rw [here]
    rfl
  refine .inr ⟨true, g, .selfDraw phase ?_ ended, rest⟩
  dsimp only
  split <;> simp

theorem onActionAfterMoPai_burst {waiting : Waiting} {chair : Nat} {action : Action}
    {tile session rnd : Nat} (fsm : s.fsm = .waitActionAfterMoPai waiting) (offers : Offers c s)
    (h : onActionAfterMoPai c s waiting chair action tile session rnd = some s') :
    Burst c ok (abs s) (abs s') ∧ Offers c s' := by
  have act : phaseOf s = .act s.chuPaiPlayer.moPai := by rw [phaseOf, fsm]
  have now := offers
  rw [Offers, fsm] at now
  unfold onActionAfterMoPai at h
  split at h
  · cases h
    exact ⟨.inl rfl, offers⟩
  rename_i w check
  obtain ⟨listed, _, _, valid⟩ := accepted check
  rw [List.mem_singleton] at listed
  subst listed
  split at h
  · cases h
    exact ⟨.inl rfl, offers⟩
  rename_i own
  have turn : s.chuPaiPlayerIndex = chair := (not_not.1 own).symm
  split at h
  · cases h
    obtain ⟨held, old, laid⟩ := now.baGang tile (valid.resolve_left (by simp))
    exact onBaGang_burst act turn held laid rnd
  · cases h
    exact onAnGang_burst act turn (now.anGang tile (valid.resolve_left (by simp))) rnd
  · exact onZiMo_burst act turn h
  · cases h
    have move : Move c ok false (abs s) { abs s with phase := .act none } :=
      .look (by rw [abs, act]; rfl) (by simp)
    exact ⟨.inr ⟨false, _, move, .refl⟩, trivial⟩

/-! ### Robbed gangs -/

/-- Winners of a robbed tile after the tile has left the robbed hand. -/
theorem view_foldl_robbed (c : Conf) (tile : Nat) (winners : List Waiting) (s : State)
    (phase : Phase) :
    view (winners.foldl (doQiangGangHu c tile) (s, false)).1 phase =
      (winners.map Waiting.chairId).foldl
        (fun g chair => g.winOne (some false) (some s.chuPaiPlayerIndex) chair) (view s phase) := by
  induction winners generalizing s with
  | nil => rfl
  | cons w winners ih =>
      rw [List.foldl_cons, List.map_cons, List.foldl_cons]
      refine (ih _).trans ?_
      rw [(doneLastAction_unseen _ _ _).view, if_neg Bool.false_ne_true, view_setHu _ _ _ _ rfl]
      rfl

theorem Game.foldl_winOne_takeRobbed (g : Game) (whoee : Option Nat) (winners : List Nat)
    (tile : Nat) :
    winners.foldl (fun g chair => g.winOne (some false) whoee chair) (g.takeRobbed tile) =
      (winners.foldl (fun g chair => g.winOne (some false) whoee chair) g).takeRobbed tile := by
  induction winners generalizing g with
  | nil => rfl
  | cons chair winners ih => exact ih (g.winOne (some false) whoee chair)

theorem view_foldl_doQiangGangHu (c : Conf) (tile : Nat) {winners : List Waiting}
    (somebody : winners ≠ []) (s : State) (phase : Phase) :
    view (winners.foldl (doQiangGangHu c tile) (s, true)).1 phase =
      ((winners.map Waiting.chairId).foldl
        (fun g chair => g.winOne (some false) (some s.chuPaiPlayerIndex) chair)
          (view s phase)).takeRobbed tile := by
  cases winners with
  | nil => exact absurd rfl somebody
  | cons w winners =>
      rw [List.foldl_cons, List.map_cons, List.foldl_cons, ← Game.foldl_winOne_takeRobbed]
      refine (view_foldl_robbed c tile winners _ phase).trans ?_
      congr 1
      rw [(doneLastAction_unseen _ _ _).view, if_pos rfl]
      have taken : ∀ s₁ : State,
          view { s₁.update s₁.chuPaiPlayerIndex fun p =>
              p.withShouPai fun counts => decr counts tile 1 with
            taken := tile :: s₁.taken } phase = (view s₁ phase).takeRobbed tile := by
        intro s₁
        exact congrArg (fun g : Game => { g with taken := tile :: s₁.taken })
          (view_withShouPai s₁ s₁.chuPaiPlayerIndex _ phase)
      refine (taken _).trans ?_
      rw [view_setHu _ _ _ _ rfl]

/-- The winners of a robbed gang and the number of players who were asked, when a
request is the last answer and somebody wins. -/
def robbing (s : State) (r : Request) : Option (List Nat × Nat) :=
  match s.fsm, r.msg with
  | .waitQiangGangHu _ waiting, .doAction action tile session =>
      match checkActionBeforeDo waiting r.chair action tile session with
      | none => none
      | some _ =>
          let waiting := setDone waiting r.chair (action, tile)
          if (waiting.all fun w => w.done.isSome) ∧ ¬ waiting.all fun w => w.answered .pass then
            some ((robActions waiting).map Waiting.chairId, waiting.length)
          else
            none
  | _, _ => none

/-- The table after the winners of a robbed gang have been written down. -/
def robbed (c : Conf) (s : State) (tile : Nat) (waiting : List Waiting) : State :=
  let s := s.update s.chuPaiPlayerIndex fun p =>
    { p with firstMultiPao := decide (huCount c s = 0 ∧ 1 < waiting.length) }
  ((robActions waiting).foldl (doQiangGangHu c tile)
    (waiting.foldl (checkPass c .qiangGangHu false tile) s, true)).1

theorem resolveQiangGang_eq (c : Conf) (s : State) (tile : Nat) (waiting : List Waiting) (rnd : Nat) :
    resolveQiangGang c s tile waiting rnd =
      if waiting.all fun w => w.answered .pass then
        some (moPai c (doneLastAction (cleanGzh (adjustShouPai
          (waiting.foldl (checkPass c .qiangGangHu false tile) s) s.chuPaiPlayerIndex .baGang tile)
            s.chuPaiPlayerIndex) s.chuPaiPlayerIndex (some (.baGang, tile))) rnd)
      else
        afterHu c (robbed c s tile waiting) (maxChair waiting) rnd := rfl

theorem resolveQiangGang_pass (c : Conf) (s : State) {tile : Nat} {waiting : List Waiting}
    {rnd : Nat} {old : Section} (rob : phaseOf s = .rob tile)
    (laid : ((abs s).melds (abs s).turn).find? (Section.isPeng tile) = some old)
    (pass : (waiting.all fun w => w.answered .pass) = true)
    (h : resolveQiangGang c s tile waiting rnd = some s') :
    Burst c ok (abs s) (abs s') ∧ Offers c s' := by
  have here : abs s = view s (.rob tile) := by rw [abs, rob]
  have phase : (abs s).phase = .rob tile := by
    rw [here]
    rfl
  rw [resolveQiangGang_eq, if_pos pass] at h
  cases h
  have passed := foldl_unseen (checkPass_unseen c .qiangGangHu false tile) waiting s
  generalize waiting.foldl (checkPass c .qiangGangHu false tile) s = s₁ at passed ⊢
  have found : (s₁.player s.chuPaiPlayerIndex).pai.mingPai.find? (Section.isPeng tile) =
      some old := by
    rw [passed.pai]
    exact laid
  have added : view (doneLastAction
      (cleanGzh (adjustShouPai s₁ s.chuPaiPlayerIndex .baGang tile) s.chuPaiPlayerIndex)
        s.chuPaiPlayerIndex (some (.baGang, tile))) .draw = (abs s).baGang tile old := by
    rw [(doneLastAction_unseen _ _ _).view, (cleanGzh_unseen _ _).view,
      adjust_baGang found (.rob tile) passed.turn, passed.view, here]
  have move : Move c ok false (abs s) ((abs s).baGang tile old) := .unrobbed phase laid
  refine ⟨.inr ⟨false, _, move, ?_⟩, moPai_offers c _ rnd⟩
  rw [← added]
  exact moPai_quiet c ok _ rnd

theorem view_robbed (c : Conf) (s : State) (tile : Nat) {waiting : List Waiting}
    (somebody : robActions waiting ≠ []) (phase : Phase) :
    view (robbed c s tile waiting) phase =
      (view s phase).robWins c ((robActions waiting).map Waiting.chairId) waiting.length tile := by
  unfold robbed Game.robWins
  rw [← huCount_eq c s phase]
  have flagged := view_multi s s.chuPaiPlayerIndex
    (decide (huCount c s = 0 ∧ 1 < waiting.length)) phase
  have turn : (s.update s.chuPaiPlayerIndex fun p =>
      { p with firstMultiPao := decide (huCount c s = 0 ∧ 1 < waiting.length) }).chuPaiPlayerIndex =
        s.chuPaiPlayerIndex := rfl
  dsimp only at flagged turn ⊢
  generalize (s.update s.chuPaiPlayerIndex fun p =>
      { p with firstMultiPao := decide (huCount c s = 0 ∧ 1 < waiting.length) }) = s₁
    at flagged turn ⊢
  have passed := foldl_unseen (checkPass_unseen c .qiangGangHu false tile) waiting s₁
  rw [view_foldl_doQiangGangHu c tile somebody, passed.view, passed.turn, flagged, turn]
  rfl

/-- When all have answered and not all have passed, somebody wins. -/
theorem robActions_somebody {g : Game} {session tile : Nat} {waiting : List Waiting}
    (asked : Asked (RobOffer c g session tile) waiting)
    (all_done : (waiting.all fun w => w.done.isSome) = true)
    (pass : ¬ (waiting.all fun w => w.answered .pass) = true) : robActions waiting ≠ [] := by
  intro nobody
  apply pass
  rw [List.all_eq_true]
  intro w listed
  obtain ⟨act, answer⟩ := Option.isSome_iff_exists.1 (List.all_eq_true.1 all_done w listed)
  have offer := asked.each w listed
  cases offer.done act answer with
  | inl is_pass => simp [Waiting.answered, answer, is_pass]
  | inr offered =>
      have := List.filter_eq_nil_iff.1 nobody w listed
      simp [Waiting.answered, answer, offer.kinds act offered] at this

theorem resolveQiangGang_burst {tile session rnd : Nat} {waiting : List Waiting} {old : Section}
    (rob : phaseOf s = .rob tile)
    (laid : ((abs s).melds (abs s).turn).find? (Section.isPeng tile) = some old)
    (asked : Asked (RobOffer c (abs s) session tile) waiting)
    (all_done : (waiting.all fun w => w.done.isSome) = true)
    (fair : ¬ (waiting.all fun w => w.answered .pass) →
      ok.rob (abs s) ((robActions waiting).map Waiting.chairId) waiting.length)
    (h : resolveQiangGang c s tile waiting rnd = some s') :
    Burst c ok (abs s) (abs s') ∧ Offers c s' := by
  by_cases pass : (waiting.all fun w => w.answered .pass) = true
  · exact resolveQiangGang_pass c s rob laid pass h
  · have here : abs s = view s (.rob tile) := by rw [abs, rob]
    have somebody := robActions_somebody asked all_done pass
    rw [resolveQiangGang_eq, if_neg pass] at h
    obtain ⟨g, ended, rest⟩ := afterHu_quiet ok (.rob tile) h
    rw [view_robbed c s tile somebody, ← here] at ended
    refine ⟨.inr ⟨true, g, ?_, rest⟩, afterHu_offers h⟩
    apply Move.robWins _ _ _ _ (fair pass) ended
    · rw [here]
      rfl
    · exact fun none_left => somebody (List.map_eq_nil_iff.1 none_left)
    · exact asked.nodup.sublist (List.filter_sublist.map Waiting.chairId)
    · intro i listed
      obtain ⟨w, answered, rfl⟩ := List.mem_map.1 listed
      exact (asked.each w (List.mem_of_mem_filter answered)).free

theorem onActionQiangGangHu_burst {tile : Nat} {waiting : List Waiting} {r : Request}
    {action : Action} {answered session : Nat} (fsm : s.fsm = .waitQiangGangHu tile waiting)
    (msg : r.msg = .doAction action answered session) (offers : Offers c s)
    (fair : ∀ winners offered, robbing s r = some (winners, offered) →
      ok.rob (abs s) winners offered)
    (h : onActionQiangGangHu c s tile waiting r.chair action answered session r.rnd = some s') :
    Burst c ok (abs s) (abs s') ∧ Offers c s' := by
  have rob : phaseOf s = .rob tile := by rw [phaseOf, fsm]
  have now := offers
  rw [Offers, fsm] at now
  obtain ⟨⟨old, laid⟩, asked⟩ := now
  unfold onActionQiangGangHu at h
  cases check : checkActionBeforeDo waiting r.chair action answered session with
  | none =>
      simp only [check] at h
      cases h
      exact ⟨.inl rfl, offers⟩
  | some w =>
      simp only [check] at h
      have asked' := asked.robAnswered check
      split at h
      · rename_i all_done
        apply resolveQiangGang_burst rob laid asked' all_done _ h
        intro somebody
        apply fair
        unfold robbing
        rw [fsm, msg]
        simp only [check]
        exact if_pos ⟨all_done, somebody⟩
      · cases h
        have same : abs { s with
            fsm := .waitQiangGangHu tile (setDone waiting r.chair (action, answered)) } =
              abs s := by
          rw [abs, abs, rob]
          rfl
        refine ⟨.inl same.symm, ?_⟩
        unfold Offers
        dsimp only
        rw [same]
        exact ⟨⟨old, laid⟩, asked'⟩

/-! ### Runs -/

/-- A request meets the guard on the moves that it may make. -/
structure StepOk (ok : Guard) (s : State) (r : Request) : Prop where
  give : ∀ tiles, r.msg = .huanPai tiles → ok.give (abs s) r.chair tiles
  rob : ∀ winners offered, robbing s r = some (winners, offered) → ok.rob (abs s) winners offered

/-- What one request does to the game, and that the table waits for the right moves
again. -/
theorem step_burst {r : Request} (offers : Offers c s) (fair : StepOk ok s r)
    (h : step c s r = some s') : Burst c ok (abs s) (abs s') ∧ Offers c s' := by
  have stay : some s = some s' → Burst c ok (abs s) (abs s') ∧ Offers c s' := by
    intro same
    cases same
    exact ⟨.inl rfl, offers⟩
  unfold step at h
  split at h
  · exact stay h
  rename_i seated
  have seated : r.chair ∈ c.seats := not_not.1 seated
  split at h
  · rename_i tiles fsm msg
    have turn : s.chuPaiPlayerIndex = c.zhuang := by
      rw [Offers, fsm] at offers
      exact offers
    cases huan : c.huan with
    | none =>
        rw [huan] at h
        exact stay h
    | some conf =>
        rw [huan] at h
        cases h
        exact onHuanPai_burst huan fsm turn seated (fair.give tiles msg) r.rnd
  · rename_i men fsm msg
    have turn : s.chuPaiPlayerIndex = c.zhuang := by
      rw [Offers, fsm] at offers
      exact offers
    cases h
    exact onDingQue_burst fsm turn r.chair men r.rnd
  · rename_i fsm _
    exact onActionChuPai_burst fsm h
  · rename_i fsm _
    split at h
    · exact onActionAfterMoPai_burst fsm offers h
    · exact stay h
  · rename_i fsm _
    split at h
    · exact onActionAfterChuPai_burst fsm offers h
    · exact stay h
  · rename_i fsm msg
    split at h
    · exact onActionQiangGangHu_burst fsm msg offers fair.rob h
    · exact stay h
  · exact stay h

end FkServer.MaajanXuezhan
