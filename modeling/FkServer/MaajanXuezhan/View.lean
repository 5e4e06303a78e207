import FkServer.MaajanXuezhan.Game
import FkServer.MaajanXuezhan.Handlers

/-!
The table in the eyes of the game. `view` forgets what the game does not know: the
blocked wins, the last actions, the sessions. What the small updates of the table do
to the view is said here once, and with it how a draw and the end of a win look.
-/
namespace FkServer.MaajanXuezhan

open Relation (ReflTransGen)

def Hu.toWin (h : Hu) : Win := ⟨h.time, h.ziMo, h.whoee⟩

/-- The table in the eyes of the game, in a given phase. -/
def view (s : State) (phase : Phase) : Game where
  hand i := (s.player i).pai.shouPai
  melds i := (s.player i).pai.mingPai
  desk i := (s.player i).pai.deskTiles
  given i := (s.player i).pai.huan
  won i := (s.player i).hu.map Hu.toWin
  multi i := (s.player i).firstMultiPao
  wall := s.dealer.wall
  taken := s.taken
  turn := s.chuPaiPlayerIndex
  clock := s.clock
  phase := phase

def phaseOf (s : State) : Phase :=
  match s.fsm with
  | .huanPai => .exchange
  | .dingQue | .waitChuPai => .act none
  | .waitActionAfterMoPai _ => .act s.chuPaiPlayer.moPai
  | .waitActionAfterChuPai _ => .claim
  | .waitQiangGangHu tile _ => .rob tile
  | .over _ _ => .over

def abs (s : State) : Game := view s (phaseOf s)

variable {c : Conf} {ok : Guard} {s s' : State} {phase : Phase}

/-! ### What the game does not see -/

/-- Nothing the game knows has changed, and the discard that waits is the same. -/
structure Unseen (s s' : State) : Prop where
  pai : ∀ i, (s'.player i).pai = (s.player i).pai
  hu : ∀ i, (s'.player i).hu = (s.player i).hu
  multi : ∀ i, (s'.player i).firstMultiPao = (s.player i).firstMultiPao
  chuPai : ∀ i, (s'.player i).chuPai = (s.player i).chuPai
  dealer : s'.dealer = s.dealer
  taken : s'.taken = s.taken
  turn : s'.chuPaiPlayerIndex = s.chuPaiPlayerIndex
  clock : s'.clock = s.clock

theorem Unseen.refl (s : State) : Unseen s s :=
  ⟨fun _ => rfl, fun _ => rfl, fun _ => rfl, fun _ => rfl, rfl, rfl, rfl, rfl⟩

theorem Unseen.trans {s₁ s₂ s₃ : State} (h : Unseen s₁ s₂) (h' : Unseen s₂ s₃) : Unseen s₁ s₃ where
  pai i := (h'.pai i).trans (h.pai i)
  hu i := (h'.hu i).trans (h.hu i)
  multi i := (h'.multi i).trans (h.multi i)
  chuPai i := (h'.chuPai i).trans (h.chuPai i)
  dealer := h'.dealer.trans h.dealer
  taken := h'.taken.trans h.taken
  turn := h'.turn.trans h.turn
  clock := h'.clock.trans h.clock

theorem Unseen.view (h : Unseen s s') (phase : Phase) : view s' phase = view s phase := by
  simp only [MaajanXuezhan.view, h.pai, h.hu, h.multi, h.dealer, h.taken, h.turn, h.clock]

theorem Unseen.waiting_discard (h : Unseen s s') :
    s'.chuPaiPlayer.chuPai = s.chuPaiPlayer.chuPai := by
  rw [State.chuPaiPlayer, h.turn]
  exact h.chuPai _

/-- An update of what the game does not know about a player. -/
theorem Unseen.update {f : Player → Player} (chair : Nat) (pai : ∀ p, (f p).pai = p.pai)
    (hu : ∀ p, (f p).hu = p.hu) (multi : ∀ p, (f p).firstMultiPao = p.firstMultiPao)
    (chuPai : ∀ p, (f p).chuPai = p.chuPai) : Unseen s (s.update chair f) := by
  refine ⟨?_, ?_, ?_, ?_, rfl, rfl, rfl, rfl⟩ <;> intro i <;> unfold State.update alter
  · dsimp only
    split
    · exact pai _
    · rfl
  · dsimp only
    split
    · exact hu _
    · rfl
  · dsimp only
    split
    · exact multi _
    · rfl
  · dsimp only
    split
    · exact chuPai _
    · rfl

theorem doneLastAction_unseen (s : State) (chair : Nat) (action : Option (Action × Nat)) :
    Unseen s (doneLastAction s chair action) :=
  ⟨fun _ => rfl, fun _ => rfl, fun _ => rfl, fun _ => rfl, rfl, rfl, rfl, rfl⟩

theorem cleanGzh_unseen (s : State) (chair : Nat) : Unseen s (cleanGzh s chair) :=
  .update chair (fun _ => rfl) (fun _ => rfl) (fun _ => rfl) fun _ => rfl

theorem cleanGsp_unseen (s : State) (chair : Nat) : Unseen s (cleanGsp s chair) :=
  .update chair (fun _ => rfl) (fun _ => rfl) (fun _ => rfl) fun _ => rfl

theorem setGspOnPass_unseen (s : State) (chair tile : Nat) :
    Unseen s (setGspOnPass s chair tile) :=
  .update chair (fun _ => rfl) (fun _ => rfl) (fun _ => rfl) fun _ => rfl

theorem setGzhOnPass_unseen (c : Conf) (s : State) (chair tile : Nat) :
    Unseen s (setGzhOnPass c s chair tile) := by
  unfold setGzhOnPass
  dsimp only
  split
  · exact .refl s
  · exact .update chair (fun _ => rfl) (fun _ => rfl) (fun _ => rfl) fun _ => rfl

theorem checkPass_unseen (c : Conf) (offered : Action) (withPeng : Bool) (tile : Nat) (s : State)
    (w : Waiting) : Unseen s (checkPass c offered withPeng tile s w) := by
  have gzh : ∀ (b : Prop) [Decidable b],
      Unseen s (if b then setGzhOnPass c s w.chairId tile else s) := by
    intro b _
    split
    · exact setGzhOnPass_unseen c s w.chairId tile
    · exact .refl s
  unfold checkPass
  split
  · dsimp only
    split
    · exact (gzh _).trans (setGspOnPass_unseen _ w.chairId tile)
    · exact gzh _
  · exact gzh _

theorem foldl_unseen {α : Type} {f : State → α → State} (each : ∀ s a, Unseen s (f s a))
    (l : List α) (s : State) : Unseen s (l.foldl f s) := by
  induction l generalizing s with
  | nil => exact .refl s
  | cons a l ih => exact (each s a).trans (ih (f s a))

theorem checkAllPass_unseen (c : Conf) (answers : List Waiting) (s : State) :
    Unseen s (checkAllPass c answers s) := by
  unfold checkAllPass
  split
  · exact .refl s
  · exact foldl_unseen (checkPass_unseen c .hu true _) answers s

theorem getSelfActionsAndSetPass_unseen (c : Conf) (s : State) (chair tile : Nat) :
    Unseen s (getSelfActionsAndSetPass c s chair tile) := by
  unfold getSelfActionsAndSetPass
  split
  · dsimp only
    -- the peng passed over is marked last, over either mark of the win passed over
    split
    on_goal 1 => refine .trans ?_ (setGspOnPass_unseen _ chair tile)
    all_goals
      split
      · have set := setGzhOnPass_unseen c s chair tile
        split
        · exact set
        · exact set.trans (.update chair (fun _ => rfl) (fun _ => rfl) (fun _ => rfl) fun _ => rfl)
      · exact .refl s
  · exact .refl s

theorem lastActionIsCanPenghu_unseen (c : Conf) (s : State) (chair tile : Nat)
    (answers : List Waiting) : Unseen s (lastActionIsCanPenghu c s chair tile answers) := by
  have cleared : Unseen s (s.update chair fun p => { p with lastPenghu := none }) :=
    .update chair (fun _ => rfl) (fun _ => rfl) (fun _ => rfl) fun _ => rfl
  unfold lastActionIsCanPenghu
  dsimp only
  split
  · exact cleared.trans (.update chair (fun _ => rfl) (fun _ => rfl) (fun _ => rfl) fun _ => rfl)
  · exact cleared

theorem onMoPai_unseen (s : State) (chair tile : Nat) : Unseen s (onMoPai s chair tile) := by
  refine ⟨?_, ?_, ?_, ?_, rfl, rfl, rfl, rfl⟩ <;> intro i <;> unfold onMoPai <;> dsimp only <;>
    split <;> rfl

theorem view_onChuPai (s : State) (tile : Nat) (phase : Phase) :
    view (onChuPai s tile) phase = view s phase := by
  unfold onChuPai view
  congr 1 <;> funext i <;> dsimp only <;> split <;> rfl

/-! ### Updates the game sees -/

theorem view_withShouPai (s : State) (chair : Nat) (f : Counts → Counts) (phase : Phase) :
    view (s.update chair fun p => p.withShouPai f) phase =
      (view s phase).setHand (alter (view s phase).hand chair f) := by
  simp only [view, Game.setHand]
  congr 1 <;> funext i <;> by_cases h : i = chair <;>
    simp [State.update, alter, Player.withShouPai, h]

theorem view_popDesk (s : State) (phase : Phase) :
    view (popDesk s) phase = (view s phase).popDesk := by
  simp only [view, Game.popDesk]
  congr 1 <;> funext i <;> by_cases h : i = s.chuPaiPlayerIndex <;>
    simp [popDesk, State.update, alter, h]

theorem view_discard (s : State) (chair tile : Nat) (phase : Phase) :
    view (s.update chair fun p =>
        { p with pai := { p.pai with deskTiles := p.pai.deskTiles ++ [tile] } }) phase =
      { view s phase with
        desk := alter (view s phase).desk chair fun tiles => tiles ++ [tile] } := by
  simp only [view]
  congr 1 <;> funext i <;> by_cases h : i = chair <;> simp [State.update, alter, h]

theorem view_huan (s : State) (chair : Nat) (tiles : List Nat) (phase : Phase) :
    view (s.update chair fun p => { p with pai := { p.pai with huan := some tiles } }) phase =
      (view s phase).give chair tiles := by
  simp only [view, Game.give]
  congr 1 <;> funext i <;> by_cases h : i = chair <;> simp [State.update, alter, h]

theorem view_multi (s : State) (chair : Nat) (flag : Bool) (phase : Phase) :
    view (s.update chair fun p => { p with firstMultiPao := flag }) phase =
      { view s phase with multi := alter (view s phase).multi chair fun _ => flag } := by
  simp only [view]
  congr 1 <;> funext i <;> by_cases h : i = chair <;> simp [State.update, alter, h]

theorem view_setHu (s : State) (chair : Nat) (won : Hu) (phase : Phase)
    (now : won.time = s.clock) :
    view (setHu s chair won) phase = (view s phase).winOne won.ziMo won.whoee chair := by
  simp only [view, setHu, Game.winOne]
  congr 1 <;> funext i <;> by_cases h : i = chair <;>
    simp [State.update, alter, h, Hu.toWin, now]

/-- The tile of the gang after which the player on turn discards. -/
def gangTile (s : State) : Option Nat :=
  s.chuPaiPlayer.lastAction.bind fun act => if isActionGang act.1 then some act.2 else none

theorem markDianPao_eq (s : State) (chair : Nat) :
    markDianPao s chair =
      match gangTile s with
      | none => s
      | some tile => s.update s.chuPaiPlayerIndex fun p =>
          { p with pai := { p.pai with
              mingPai := p.pai.mingPai.map fun sec =>
                if sec.tile = tile ∧ isSectionGang sec.type then { sec with dianPao := some chair }
                else sec } } := by
  unfold markDianPao gangTile
  cases s.chuPaiPlayer.lastAction with
  | none => rfl
  | some last =>
      simp only [Option.bind_some]
      cases isActionGang last.1 <;> rfl

theorem Game.mark_none (g : Game) (chair : Nat) : g.mark none chair = g := by
  have same : alter g.melds g.turn (fun secs => secs.map fun sec =>
      if some sec.tile = none ∧ isSectionGang sec.type then { sec with dianPao := some chair }
      else sec) = g.melds := by
    funext i
    by_cases h : i = g.turn <;> simp [alter, h]
  rw [Game.mark, same]

theorem view_markDianPao (s : State) (chair : Nat) (phase : Phase) :
    view (markDianPao s chair) phase = (view s phase).mark (gangTile s) chair := by
  rw [markDianPao_eq]
  cases gangTile s with
  | none => exact (Game.mark_none _ _).symm
  | some tile =>
      simp only [view, Game.mark]
      congr 1 <;> funext i <;> by_cases h : i = s.chuPaiPlayerIndex <;>
        simp [State.update, alter, h]

theorem view_lay (s : State) (chair tile : Nat) (n : Int) (sec : Section) (phase : Phase) :
    view { s.update chair fun p =>
        { p with pai := { p.pai with
            shouPai := decr p.pai.shouPai tile n, mingPai := p.pai.mingPai ++ [sec] } } with
      clock := s.clock + 1 } phase = (view s phase).lay chair tile n sec := by
  simp only [view, Game.lay]
  congr 1 <;> funext i <;> by_cases h : i = chair <;> simp [State.update, alter, h]

theorem view_jump (s : State) (chair : Nat) (phase : Phase) :
    view (jumpToPlayerIndex s chair) phase = { view s phase with turn := chair } := rfl

theorem abs_chuPai_jump (s : State) (chair : Nat) :
    abs (chuPai (jumpToPlayerIndex s chair)) = { view s (.act none) with turn := chair } := rfl

/-! ### Drawing and passing the turn on -/

theorem abs_doneLastAction (s : State) (chair : Nat) (action : Option (Action × Nat)) :
    abs (doneLastAction s chair action) = abs s := rfl

theorem abs_doBalance (c : Conf) (s : State) (phase : Phase) :
    abs (doBalance c s) = { view s phase with phase := .over } := rfl

/-- The table after the drawn tile is in the hand. -/
def drawn (s : State) (tile : Nat) (dealer : MaajanTileDealer) : State :=
  let chair := s.chuPaiPlayerIndex
  let s := cleanGsp (cleanGzh s chair) chair
  let s := { s with dealer := dealer, moPaiCount := s.moPaiCount + 1 }
  let s := s.update chair fun p => p.withShouPai fun counts => incr counts tile 1
  onMoPai s chair tile

theorem moPai_eq (c : Conf) (s : State) (rnd : Nat) :
    moPai c s rnd =
      match s.dealer.dealOne rnd with
      | none =>
          doBalance c (cleanGsp (cleanGzh s s.chuPaiPlayerIndex) s.chuPaiPlayerIndex)
      | some (tile, dealer) =>
          let s' := drawn s tile dealer
          let actions := getActions c s' s.chuPaiPlayerIndex (some tile) none false
          if actions.isEmpty then chuPai s' else actionAfterMoPai s' actions := rfl

theorem view_drawn (s : State) (tile : Nat) (dealer : MaajanTileDealer) :
    view (drawn s tile dealer) (.act (some tile)) = (view s .draw).drawTile tile dealer.wall := by
  unfold drawn
  rw [(onMoPai_unseen _ _ _).view, view_withShouPai]
  have cleaned := ((cleanGzh_unseen s s.chuPaiPlayerIndex).trans
    (cleanGsp_unseen _ s.chuPaiPlayerIndex)).view (.act (some tile))
  simp only [view, Game.drawTile] at cleaned ⊢
  injection cleaned with hand melds desk given won multi wall taken turn clock
  rw [hand, melds, desk, given, won, multi]
  rfl

theorem moPai_onMoPai (s : State) (chair tile : Nat) :
    ((onMoPai s chair tile).player chair).moPai = some tile := by
  simp [onMoPai]

theorem moPai_drawn (s : State) (tile : Nat) (dealer : MaajanTileDealer) :
    (drawn s tile dealer).chuPaiPlayer.moPai = some tile :=
  moPai_onMoPai _ s.chuPaiPlayerIndex tile

theorem moPai_quiet (c : Conf) (ok : Guard) (s : State) (rnd : Nat) :
    Quiet c ok (view s .draw) (abs (moPai c s rnd)) := by
  rw [moPai_eq]
  cases deal : s.dealer.dealOne rnd with
  | none =>
      have cleaned := ((cleanGzh_unseen s s.chuPaiPlayerIndex).trans
        (cleanGsp_unseen _ s.chuPaiPlayerIndex)).view .draw
      have empty : (view s .draw).wall = 0 := MaajanTileDealer.wall_of_dealOne_none deal
      have last : Move c ok false (view s .draw) { view s .draw with phase := .over } :=
        .exhausted rfl empty
      rw [abs_doBalance c _ .draw, cleaned]
      exact .single last
  | some dealt =>
      obtain ⟨tile, dealer⟩ := dealt
      have taken : (view s .draw).wall = tile ::ₘ dealer.wall :=
        (MaajanTileDealer.dealOne_wall deal).1
      have first : Move c ok false (view s .draw) (view (drawn s tile dealer) (.act (some tile))) :=
        view_drawn s tile dealer ▸ .drawTile rfl taken
      dsimp only
      split
      · have look : Move c ok false (view (drawn s tile dealer) (.act (some tile)))
            { view (drawn s tile dealer) (.act (some tile)) with phase := .act none } :=
          .look rfl nofun
        exact .tail (.single first) look
      · have same : abs (actionAfterMoPai (drawn s tile dealer)
            (getActions c (drawn s tile dealer) s.chuPaiPlayerIndex (some tile) none false)) =
            view (drawn s tile dealer) (.act (some tile)) :=
          congrArg (fun d => view (drawn s tile dealer) (.act d)) (moPai_drawn s tile dealer)
        rw [same]
        exact .single first

theorem nextChair_eq (c : Conf) (s : State) (from_ : Nat) (phase : Phase) :
    nextChair c s from_ = (view s phase).nextSeat c from_ := by
  unfold nextChair Game.nextSeat
  congr 1
  funext i
  simp only [view, Option.isNone_map]

theorem huCount_eq (c : Conf) (s : State) (phase : Phase) :
    huCount c s = (view s phase).winCount c := by
  simp only [huCount, Game.winCount, view, Option.isSome_map]

theorem nextPlayerIndex_view {from_ : Nat} (h : nextPlayerIndex c s from_ = some s') :
    ∃ chair, (∀ phase, (view s phase).nextSeat c from_ = some chair) ∧
      ∀ phase, view s' phase = { view s phase with turn := chair } := by
  obtain ⟨chair, found, rfl⟩ := Option.map_eq_some_iff.1 h
  refine ⟨chair, ?_, fun _ => rfl⟩
  intro phase
  rw [nextChair_eq c _ from_ phase] at found
  exact found

theorem afterHu_quiet (ok : Guard) {from_ rnd : Nat} (phase : Phase) (h : afterHu c s from_ rnd = some s') :
    ∃ g, Game.AfterWin c (view s phase) from_ g ∧ Quiet c ok g (abs s') := by
  unfold afterHu at h
  rw [huCount_eq c s phase, Conf.startCount] at h
  split at h
  · rename_i one_left
    cases h
    exact ⟨_, .settled one_left, .refl⟩
  · rename_i more
    obtain ⟨s₁, moved, rfl⟩ := Option.map_eq_some_iff.1 h
    obtain ⟨chair, found, seen⟩ := nextPlayerIndex_view moved
    refine ⟨_, .goesOn more (found phase), ?_⟩
    have := moPai_quiet c ok s₁ rnd
    rw [seen .draw] at this
    exact this

end FkServer.MaajanXuezhan
