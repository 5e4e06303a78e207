import FkServer.MaajanXuezhan.Wins

/-!
Winners stay out of the game, and the turn goes on: until the settlement two players
are left, the player on turn is one of them, and every request is answered.
-/
namespace FkServer.MaajanXuezhan

variable {c : Conf} {ok : Guard} {win : Bool} {g g' : Game} {s s' : State}

/-! ### What moves keep -/

/-- How many players have not won. -/
def Game.unfinished (g : Game) (c : Conf) : Nat :=
  c.seats.countP fun chair => (g.won chair).isNone

theorem Game.unfinished_add_winCount (g : Game) (c : Conf) :
    g.unfinished c + g.winCount c = c.seats.length := by
  rw [List.length_eq_countP_add_countP fun chair => (g.won chair).isNone, unfinished, winCount]
  congr 2
  funext chair
  cases g.won chair <;> rfl

/-- A game that is not over. -/
structure InTurn (c : Conf) (g : Game) : Prop where
  unfinished : 2 ≤ g.unfinished c
  seated : g.turn ∈ c.seats
  playing : g.won g.turn = none
  start : g.phase = .exchange → ∀ i, g.won i = none

/-- Somebody else is left besides the player on turn. -/
theorem InTurn.another (now : InTurn c g) :
    ∃ chair, chair ≠ g.turn ∧ chair ∈ c.seats ∧ g.won chair = none := by
  by_contra nobody
  have alone : c.seats.filter (fun chair => (g.won chair).isNone) ⊆ [g.turn] := by
    intro chair h
    obtain ⟨seated, playing⟩ := List.mem_filter.1 h
    by_contra other
    refine nobody ⟨chair, fun same => other (by simp [same]), seated, ?_⟩
    exact Option.isNone_iff_eq_none.1 playing
  have few := (List.subperm_of_subset (c.seats_nodup.filter _) alone).length_le
  have two := now.unfinished
  rw [Game.unfinished, List.countP_eq_length_filter] at two
  simp only [List.length_singleton] at few
  omega

def TurnOk (c : Conf) (g : Game) : Prop := g.phase ≠ .over → InTurn c g

theorem Dealt.turnOk (dealt : Dealt c g) : TurnOk c g := by
  intro _
  refine ⟨?_, dealt.turn ▸ c.zhuang_in, dealt.won _, fun _ => dealt.won⟩
  have all : g.unfinished c = c.seats.length := by
    rw [Game.unfinished, List.countP_eq_length]
    intro chair _
    rw [dealt.won]
    rfl
  rw [all]
  exact c.two_seats

/-- One who has not won is left, so the game goes on with two. -/
theorem Game.AfterWin.turnOk {from_ chair : Nat} (after : Game.AfterWin c g from_ g')
    (seated : chair ∈ c.seats) (playing : g.won chair = none) : TurnOk c g' := by
  intro going_on
  cases after with
  | settled _ => exact absurd rfl going_on
  | goesOn more next =>
      obtain ⟨next_seated, next_playing⟩ := Game.nextSeat_eq_some next
      refine ⟨?_, next_seated, next_playing, nofun⟩
      have count := g.unfinished_add_winCount c
      have one : 0 < g.unfinished c := by
        rw [Game.unfinished, List.countP_pos_iff]
        exact ⟨chair, seated, by rw [playing]; rfl⟩
      show 2 ≤ g.unfinished c
      omega

theorem Move.turnOk (ok_g : TurnOk c g) (move : Move c ok win g g') : TurnOk c g' := by
  have turn : ∀ {phase : Phase}, g.phase = phase → phase ≠ .over → InTurn c g :=
    fun here not_over => ok_g (by rw [here]; exact not_over)
  cases move with
  | give phase =>
      have now := turn phase nofun
      exact fun _ => ⟨now.unfinished, now.seated, now.playing, now.start⟩
  | exchange phase | look phase | discard phase | anGang phase | baGang phase | declare phase
  | unrobbed phase | drawTile phase =>
      have now := turn phase nofun
      exact fun _ => ⟨now.unfinished, now.seated, now.playing, nofun⟩
  | exhausted => exact fun going_on => absurd rfl going_on
  | unclaimed phase next =>
      have now := turn phase nofun
      obtain ⟨next_seated, next_playing⟩ := Game.nextSeat_eq_some next
      exact fun _ => ⟨now.unfinished, next_seated, next_playing, nofun⟩
  | peng phase free | mingGang phase free =>
      have now := turn phase nofun
      exact fun _ => ⟨now.unfinished, free.1, free.2.2, nofun⟩
  | claimWins phase _ _ free _ after =>
      have now := turn phase nofun
      apply after.turnOk now.seated
      rw [(Game.claimWins_won c g _ _ _).others _ fun winner => (free _ winner).2.1 rfl]
      exact now.playing
  | robWins phase _ _ free _ after =>
      have now := turn phase nofun
      apply after.turnOk now.seated
      rw [(Game.robWins_won c g _ _ _).others _ fun winner => (free _ winner).2.1 rfl]
      exact now.playing
  | selfDraw phase _ after =>
      have now := turn phase nofun
      obtain ⟨chair, other, seated, playing⟩ := now.another
      apply after.turnOk seated
      simp only [Game.winOne]
      exact (alter_of_ne other).trans playing

/-- A player who has won holds the hand it has won with. -/
theorem Move.winner_hand (now : TurnOk c g) (move : Move c ok win g g') {i : Nat}
    (won : (g'.won i).isSome) : g'.hand i = g.hand i := by
  have turn : ∀ {phase : Phase}, g.phase = phase → phase ≠ .over → InTurn c g :=
    fun here not_over => now (by rw [here]; exact not_over)
  have not_here : ∀ {chair : Nat} {won : Nat → Option Win}, won chair = none →
      (won i).isSome → i ≠ chair := by
    intro chair won none_here some_won same
    rw [same, none_here] at some_won
    cases some_won
  cases move with
  | give | look | unclaimed | declare | exhausted => rfl
  | exchange phase =>
      have nobody := (turn phase (by simp)).start phase i
      exact absurd (show (g.won i).isSome from won) (by simp [nobody])
  | discard phase | anGang phase | baGang phase | unrobbed phase | drawTile phase =>
      have other := not_here (turn phase (by simp)).playing won
      simp only [Game.discard, Game.anGang, Game.lay, Game.baGang, Game.drawTile]
      exact alter_of_ne other
  | peng _ free | mingGang _ free =>
      have other := not_here free.2.2 won
      simp only [Game.peng, Game.mingGang, Game.lay, Game.popDesk]
      exact alter_of_ne other
  | claimWins phase _ _ _ _ after =>
      rw [after.same]
      dsimp only
      rw [Game.claimWins_hand]
  | robWins phase _ _ free _ after =>
      have other : i ≠ g.turn := by
        intro same
        rw [after.same] at won
        dsimp only at won
        rw [(Game.robWins_won c g _ _ _).others i fun winner => (free i winner).2.1 same, same,
          (turn phase (by simp)).playing] at won
        cases won
      rw [after.same]
      dsimp only
      rw [(Game.robWins_rest c g _ _ _).1]
      exact alter_of_ne other
  | selfDraw _ _ after =>
      rw [after.same]
      rfl

/-- Who has won has won for good. -/
theorem Move.won_keep (now : TurnOk c g) (move : Move c ok win g g') {i : Nat} {w : Win}
    (won : g.won i = some w) : g'.won i = some w := by
  have unmet : ∀ {winners : List Nat}, (∀ chair ∈ winners, g.Free c chair) → i ∉ winners := by
    intro winners free winner
    rw [(free i winner).2.2] at won
    cases won
  cases move with
  | give | exchange | look | discard | unclaimed | peng | mingGang | drawTile | exhausted | anGang
  | baGang | declare | unrobbed => exact won
  | claimWins _ _ _ free _ after =>
      rw [after.same]
      dsimp only
      rw [(Game.claimWins_won c g _ _ _).others i (unmet free)]
      exact won
  | robWins _ _ _ free _ after =>
      rw [after.same]
      dsimp only
      rw [(Game.robWins_won c g _ _ _).others i (unmet free)]
      exact won
  | selfDraw phase _ after =>
      have now := now (by rw [phase]; nofun)
      have other : i ≠ g.turn := by
        intro same
        rw [same, now.playing] at won
        cases won
      rw [after.same]
      simp only [Game.winOne]
      exact (alter_of_ne other).trans won

theorem Move.won_of_quiet (move : Move c ok false g g') : g'.won = g.won := by
  cases move <;> rfl

theorem Quiet.winner_hand (now : TurnOk c g) (moves : Quiet c ok g g') {i : Nat}
    (won : (g'.won i).isSome) : g'.hand i = g.hand i ∧ g'.won = g.won ∧ TurnOk c g' := by
  induction moves with
  | refl => exact ⟨rfl, rfl, now⟩
  | tail _ last ih =>
      obtain ⟨hand, same, now⟩ := ih (last.won_of_quiet ▸ won)
      exact ⟨(last.winner_hand now won).trans hand, last.won_of_quiet.trans same, last.turnOk now⟩

theorem Burst.won_keep (now : TurnOk c g) (burst : Burst c ok g g') {i : Nat} {w : Win}
    (won : g.won i = some w) : g'.won i = some w := by
  have kept := @Burst.keep c ok (fun g => TurnOk c g ∧ g.won i = some w)
    (fun _ _ _ inv move => ⟨move.turnOk inv.1, move.won_keep inv.1 inv.2⟩) g g' ⟨now, won⟩ burst
  exact kept.2

theorem Burst.winner_hand (now : TurnOk c g) (burst : Burst c ok g g') {i : Nat}
    (won : (g'.won i).isSome) : g'.hand i = g.hand i := by
  cases burst with
  | inl same => rw [same]
  | inr moves =>
      obtain ⟨win, g₁, first, rest⟩ := moves
      obtain ⟨hand, same, _⟩ := rest.winner_hand (first.turnOk now) won
      exact hand.trans (first.winner_hand now (same ▸ won))

/-! ### Every request is answered -/

theorem nextPlayerIndex_isSome {from_ chair : Nat} (phase : Phase)
    (place : from_ ∈ Rotation.places c.chairCount) (seated : chair ∈ c.seats)
    (playing : (view s phase).won chair = none) : ∃ s', nextPlayerIndex c s from_ = some s' := by
  obtain ⟨found, next⟩ := Game.nextSeat_isSome place seated playing
  have same : nextChair c s from_ = some found := (nextChair_eq c s from_ phase).trans next
  exact ⟨_, Option.map_eq_some_iff.2 ⟨found, same, rfl⟩⟩

theorem afterHu_isSome {from_ chair : Nat} (phase : Phase)
    (place : from_ ∈ Rotation.places c.chairCount) (seated : chair ∈ c.seats)
    (playing : (view s phase).won chair = none) (rnd : Nat) :
    ∃ s', afterHu c s from_ rnd = some s' := by
  unfold afterHu
  split
  · exact ⟨_, rfl⟩
  · obtain ⟨s₁, next⟩ := nextPlayerIndex_isSome phase place seated playing
    exact ⟨_, Option.map_eq_some_iff.2 ⟨s₁, next, rfl⟩⟩

/-- The greatest of some places is a place. -/
theorem foldl_max_place {n : Nat} {chairs : List Nat} (somebody : chairs ≠ [])
    (inside : ∀ chair ∈ chairs, chair ∈ Rotation.places n) :
    chairs.foldl max 0 ∈ Rotation.places n := by
  have from_place : ∀ (chairs : List Nat) (a : Nat), a ∈ Rotation.places n →
      (∀ chair ∈ chairs, chair ∈ Rotation.places n) → chairs.foldl max a ∈ Rotation.places n := by
    intro chairs
    induction chairs with
    | nil => exact fun a here _ => here
    | cons chair chairs ih =>
        intro a here inside
        apply ih _ _ fun i listed => inside i (.tail _ listed)
        have chair_inside := inside chair (.head _)
        cases Nat.le_total a chair with
        | inl le => rwa [Nat.max_eq_right le]
        | inr le => rwa [Nat.max_eq_left le]
  cases chairs with
  | nil => exact absurd rfl somebody
  | cons chair chairs =>
      rw [List.foldl_cons, Nat.zero_max]
      exact from_place chairs chair (inside chair (.head _)) fun i listed => inside i (.tail _ listed)

theorem onActionChuPai_isSome (now : InTurn c (abs s)) (chair tile rnd : Nat) :
    ∃ s', onActionChuPai c s chair tile rnd = some s' := by
  by_cases own : s.chuPaiPlayerIndex = chair
  · subst own
    rw [onActionChuPai_eq]
    split
    · exact ⟨s, rfl⟩
    split
    · have place : (selfPassed c s tile).chuPaiPlayerIndex ∈ Rotation.places c.chairCount := by
        rw [(selfPassed_unseen c s tile).turn]
        exact c.seats_places now.seated
      have won : (view (selfPassed c s tile) .claim).won = (abs s).won := by
        rw [(selfPassed_unseen c s tile).view, view_discarded s tile (phaseOf s)]
        rfl
      obtain ⟨s₁, next⟩ := nextPlayerIndex_isSome .claim place now.seated (won ▸ now.playing)
      exact ⟨_, Option.map_eq_some_iff.2 ⟨s₁, next, rfl⟩⟩
    · exact ⟨_, rfl⟩
  · unfold onActionChuPai
    rw [if_pos (.inl own)]
    exact ⟨s, rfl⟩

theorem doHu_isSome (claim : phaseOf s = .claim) (now : InTurn c (abs s)) {chair tile : Nat}
    {answers : List Waiting} (somebody : (answers.filter fun w => w.answered .hu) ≠ [])
    (free : ∀ w ∈ answers, (abs s).Free c w.chairId) (rnd : Nat) :
    ∃ s', doHu c s chair tile answers rnd = some s' := by
  have here : abs s = view s .claim := by rw [abs, claim]
  have winners : ∀ i ∈ (answers.filter fun w => w.answered .hu).map Waiting.chairId,
      (abs s).Free c i := by
    intro i listed
    obtain ⟨w, answered, rfl⟩ := List.mem_map.1 listed
    exact free w (List.mem_of_mem_filter answered)
  have place : maxChair (answers.filter fun w => w.answered .hu) ∈ Rotation.places c.chairCount := by
    apply foldl_max_place
    · exact fun none_left => somebody (List.map_eq_nil_iff.1 none_left)
    · exact fun i listed => c.seats_places (winners i listed).1
  have playing : (view (checkAllPass c answers
      (claimed c s tile (answers.filter fun w => w.answered .hu))) .claim).won (abs s).turn =
        none := by
    rw [(checkAllPass_unseen c answers _).view, view_claimed, ← here,
      (Game.claimWins_won c (abs s) _ _ _).others _ fun winner => (winners _ winner).2.1 rfl]
    exact now.playing
  obtain ⟨s₁, after⟩ := afterHu_isSome .claim place now.seated playing rnd
  exact ⟨_, Option.map_eq_some_iff.2 ⟨s₁, after, rfl⟩⟩

/-- Somebody has answered when the claims are settled. -/
theorem claimsSettled_done {waiting : List Waiting} (somebody : waiting ≠ [])
    (settled : claimsSettled waiting = true) : ∃ w ∈ waiting, w.done.isSome := by
  unfold claimsSettled at settled
  rw [Bool.or_eq_true] at settled
  cases settled with
  | inl wins =>
      simp only [Bool.not_eq_true', Bool.or_eq_false_iff, decide_eq_false_iff_not] at wins
      obtain ⟨w, listed, answered⟩ :=
        List.countP_pos_iff.1 (Nat.pos_of_ne_zero wins.2)
      refine ⟨w, listed, ?_⟩
      cases answer : w.done with
      | none => simp [Waiting.answered, answer] at answered
      | some act => rfl
  | inr all =>
      obtain ⟨w, listed⟩ := List.exists_mem_of_ne_nil waiting somebody
      exact ⟨w, listed, List.all_eq_true.1 all w listed⟩

theorem resolveClaims_isSome {waiting : List Waiting} {tile session : Nat}
    (claim : phaseOf s = .claim) (now : InTurn c (abs s))
    (asked : Asked (ClaimOffer c (abs s) session tile) waiting)
    (settled : claimsSettled waiting = true) (rnd : Nat) :
    ∃ s', resolveClaims c s waiting rnd = some s' := by
  obtain ⟨w, waits, done⟩ := claimsSettled_done asked.somebody settled
  have answered : ∀ w ∈ sortAnswers (waiting.filter fun w => w.done.isSome),
      w ∈ waiting ∧ w.done.isSome := fun w h => mem_sortAnswers.1 h
  have listed := mem_sortAnswers.2 ⟨waits, done⟩
  unfold resolveClaims
  cases sorted : sortAnswers (waiting.filter fun w => w.done.isSome) with
  | nil =>
      rw [sorted] at listed
      cases listed
  | cons first others =>
      rw [sorted] at answered
      obtain ⟨⟨action, t⟩, answer⟩ := Option.isSome_iff_exists.1 (answered first (.head _)).2
      simp only [answer]
      cases action with
      | hu =>
          apply doHu_isSome claim now
          · intro nobody
            have := List.filter_eq_nil_iff.1 nobody first (.head _)
            simp [Waiting.answered, answer] at this
          · exact fun w h => (asked.each w (answered w h).1).free
      | pass =>
          have here : abs s = view s .claim := by rw [abs, claim]
          have same := (checkAllPass_unseen c (first :: others) s).view .claim
          obtain ⟨s₁, next⟩ := nextPlayerIndex_isSome .claim (c.seats_places now.seated) now.seated
            (show (view (checkAllPass c (first :: others) s) .claim).won (abs s).turn = none by
              rw [same, ← here]
              exact now.playing)
          exact ⟨_, Option.map_eq_some_iff.2 ⟨s₁, next, rfl⟩⟩
      | _ => exact ⟨_, rfl⟩

theorem onZiMo_isSome (now : InTurn c (abs s)) {chair : Nat} (turn : s.chuPaiPlayerIndex = chair)
    (tile rnd : Nat) : ∃ s', onZiMo c s chair tile rnd = some s' := by
  obtain ⟨other, not_here, seated, playing⟩ := now.another
  unfold onZiMo
  dsimp only
  rw [← Option.isSome_iff_exists, Option.isSome_map, Option.isSome_iff_exists]
  apply afterHu_isSome (phaseOf s) (c.seats_places now.seated) seated
  rw [view_setHu _ _ _ _ rfl]
  simp only [Game.winOne]
  refine (alter_of_ne ?_).trans playing
  rw [← turn]
  exact not_here

theorem resolveQiangGang_isSome {waiting : List Waiting} {tile session : Nat}
    (rob : phaseOf s = .rob tile) (now : InTurn c (abs s))
    (asked : Asked (RobOffer c (abs s) session tile) waiting)
    (all_done : (waiting.all fun w => w.done.isSome) = true) (rnd : Nat) :
    ∃ s', resolveQiangGang c s tile waiting rnd = some s' := by
  by_cases pass : (waiting.all fun w => w.answered .pass) = true
  · rw [resolveQiangGang_eq, if_pos pass]
    exact ⟨_, rfl⟩
  · rw [resolveQiangGang_eq, if_neg pass]
    have place : maxChair waiting ∈ Rotation.places c.chairCount := by
      apply foldl_max_place
      · exact fun none_left => asked.somebody (List.map_eq_nil_iff.1 none_left)
      · intro i listed
        obtain ⟨w, waits, rfl⟩ := List.mem_map.1 listed
        exact c.seats_places (asked.each w waits).free.1
    have here : abs s = view s (.rob tile) := by rw [abs, rob]
    apply afterHu_isSome (.rob tile) place now.seated
    rw [view_robbed c s tile (robActions_somebody asked all_done pass), ← here,
      (Game.robWins_won c (abs s) _ _ _).others _ ?_]
    · exact now.playing
    · intro winner
      obtain ⟨w, answered, same⟩ := List.mem_map.1 winner
      exact (asked.each w (List.mem_of_mem_filter answered)).free.2.1 same

/-- No request makes the table search for ever or fail. -/
theorem step_isSome (offers : Offers c s) (ok_s : TurnOk c (abs s)) (r : Request) :
    ∃ s', step c s r = some s' := by
  have turn : ∀ {phase : Phase}, phaseOf s = phase → phase ≠ .over → InTurn c (abs s) := by
    intro phase here not_over
    apply ok_s
    rw [show (abs s).phase = phaseOf s from rfl, here]
    exact not_over
  unfold step
  split
  · exact ⟨s, rfl⟩
  split
  · exact ⟨_, rfl⟩
  · exact ⟨_, rfl⟩
  · rename_i fsm _
    have act : phaseOf s = .act none := by rw [phaseOf, fsm]
    exact onActionChuPai_isSome (turn act (by simp)) _ _ _
  · rename_i waiting action tile session fsm _
    split
    · have act : phaseOf s = .act s.chuPaiPlayer.moPai := by rw [phaseOf, fsm]
      have now : InTurn c (abs s) := turn act (by simp)
      unfold onActionAfterMoPai
      split
      · exact ⟨s, rfl⟩
      split
      · exact ⟨s, rfl⟩
      rename_i own
      split
      · exact ⟨_, rfl⟩
      · exact ⟨_, rfl⟩
      · exact onZiMo_isSome now (not_not.1 own).symm _ _
      · exact ⟨_, rfl⟩
    · exact ⟨s, rfl⟩
  · rename_i waiting action tile session fsm _
    split
    · have claim : phaseOf s = .claim := by rw [phaseOf, fsm]
      have now : InTurn c (abs s) := turn claim (by simp)
      rw [Offers, fsm] at offers
      obtain ⟨discard, _, _, asked⟩ := offers
      rw [onActionAfterChuPai_eq]
      split
      · rename_i settled
        exact resolveClaims_isSome claim now (asked.claimsAfter _ _ _ _) settled _
      · exact ⟨_, rfl⟩
    · exact ⟨s, rfl⟩
  · rename_i robbed waiting action tile session fsm _
    split
    · have rob : phaseOf s = .rob robbed := by rw [phaseOf, fsm]
      have now : InTurn c (abs s) := turn rob (by simp)
      rw [Offers, fsm] at offers
      obtain ⟨_, asked⟩ := offers
      unfold onActionQiangGangHu
      split
      · exact ⟨s, rfl⟩
      · rename_i w accepted
        dsimp only
        split
        · rename_i all_done
          exact resolveQiangGang_isSome rob now (asked.robAnswered accepted) all_done _
        · exact ⟨_, rfl⟩
    · exact ⟨s, rfl⟩
  · exact ⟨s, rfl⟩

/-! ### Runs -/

/-- Everybody who is offered an action. -/
def State.waiting (s : State) : List Waiting :=
  match s.fsm with
  | .waitActionAfterMoPai w => [w]
  | .waitActionAfterChuPai waiting | .waitQiangGangHu _ waiting => waiting
  | _ => []

theorem waiting_playing (offers : Offers c s) (now : InTurn c (abs s)) :
    ∀ w ∈ s.waiting, (abs s).won w.chairId = none := by
  intro w listed
  unfold State.waiting at listed
  unfold Offers at offers
  split at listed
  · rename_i own fsm
    rw [fsm] at offers
    rw [List.mem_singleton.1 listed, offers.own]
    exact now.playing
  · rename_i waiting fsm
    rw [fsm] at offers
    obtain ⟨_, _, _, asked⟩ := offers
    exact (asked.each w listed).free.2.2
  · rename_i tile waiting fsm
    rw [fsm] at offers
    exact (offers.2.each w listed).free.2.2
  · cases listed

theorem Reachable.turnOk (reached : Reachable c s) : TurnOk c (abs s) ∧ Offers c s :=
  reached.round.keeps (fun _ dealt => dealt.turnOk) fun _ _ _ inv move => move.turnOk inv

/-- Until the settlement two players are left, one of them is on turn, no winner is
offered anything or draws, and the search for the next player always ends. -/
theorem winners_stay_out (reached : Reachable c s)
    (running : ∀ scores zhuang, s.fsm ≠ .over scores zhuang) :
    2 ≤ (c.seats.countP fun chair => (s.player chair).hu.isNone) ∧
    (s.chuPaiPlayerIndex ∈ c.seats ∧ s.chuPaiPlayer.hu = none) ∧
    (∀ w ∈ s.waiting, (s.player w.chairId).hu = none) ∧
    (∀ from_, 1 ≤ from_ → from_ ≤ c.chairCount → ∃ chair ∈ c.seats,
      nextChair c s from_ = some chair ∧ (s.player chair).hu = none) ∧
    ∀ r, ∃ s', step c s r = some s' ∧ ∀ i,
      ((s.player i).hu.isSome → (s'.player i).hu.isSome) ∧
      ((s'.player i).hu.isSome → (s'.player i).pai.shouPai = (s.player i).pai.shouPai) := by
  obtain ⟨ok_s, offers⟩ := reached.turnOk
  have not_over : (abs s).phase ≠ .over := by
    intro ended
    change phaseOf s = .over at ended
    unfold phaseOf at ended
    split at ended <;> first | exact running _ _ ‹_› | cases ended
  have now := ok_s not_over
  have unwon : ∀ i, (abs s).won i = none → (s.player i).hu = none :=
    fun i h => Option.map_eq_none_iff.1 h
  refine ⟨?_, ⟨now.seated, unwon _ now.playing⟩, ?_, ?_, ?_⟩
  · have two := now.unfinished
    simpa only [Game.unfinished, abs, view, Option.isNone_map] using two
  · exact fun w listed => unwon _ (waiting_playing offers now w listed)
  · intro from_ low high
    obtain ⟨chair, found⟩ := Game.nextSeat_isSome ⟨low, high⟩ now.seated now.playing
    obtain ⟨seated, playing⟩ := Game.nextSeat_eq_some found
    exact ⟨chair, seated, (nextChair_eq c s from_ _).trans found, unwon _ playing⟩
  · intro r
    obtain ⟨s', next⟩ := step_isSome offers ok_s r
    have burst := (step_burst offers (StepOk.any s r) next).1
    refine ⟨s', next, fun i => ⟨?_, ?_⟩⟩
    · intro won
      obtain ⟨hu, won⟩ := Option.isSome_iff_exists.1 won
      have before : (abs s).won i = some hu.toWin := congrArg (Option.map Hu.toWin) won
      have after : ((abs s').won i).isSome := by rw [burst.won_keep ok_s before]; rfl
      simpa [abs, view] using after
    · intro won
      apply burst.winner_hand ok_s
      simpa [abs, view] using won

/-- Two players with the tiles of one suit. -/
def twoPlayers : Conf where
  chairCount := 2
  seats := [1, 2]
  zhuang := 1
  playOption := some .erRenYiFang
  play :=
    { siDui := false, guoZhuangHu := true, guoShouPeng := true, dghDianPao := true,
      ziMoJiaDi := true, ziMoJiaFan := false, tianDiHu := true, huAtLeast2 := false,
      daDuiZiFan2 := false, jiaXin5 := false, kaErTiao := false, yaoJiu := true, menQing := true,
      kaWuTiao := false, yiTiaoLong := false, chaDaJiao := true, chaXiaoJiao := false,
      qingYiSeFan := some 2, tileCount := 7, tileMen := some 1 }
  huan := some ⟨3, 1⟩
  maxFan := some 4
  pairs := id
  chairs_le := Conf.chairs_le_two
  seats_nodup := Conf.seats_nodup_two
  seats_in := Conf.seats_in_two
  two_seats := Conf.two_seats_two
  zhuang_in := Conf.zhuang_in_two
  pairs_perm := List.Perm.refl
  enough := by decide

/-- Four players with seven tiles each, of two suits. -/
def fourPlayers : Conf where
  chairCount := 4
  seats := [1, 2, 3, 4]
  zhuang := 1
  playOption := some .siRenLiangFang
  play := { twoPlayers.play with tileMen := none }
  huan := none
  maxFan := some 4
  pairs := id
  chairs_le := Nat.le_refl 4
  seats_nodup := by decide
  seats_in := by decide
  two_seats := by decide
  zhuang_in := by decide
  pairs_perm := List.Perm.refl
  enough := by decide

/-- The dealer declares the hand it was dealt, and the next player's discard is claimed. -/
def firstWin : List Request :=
  [⟨1, .doAction .ziMo 11 1, 0⟩, ⟨2, .chuPai 25, 0⟩, ⟨3, .doAction .peng 25 2, 0⟩]

theorem first_win_reached {ok : State → Request → Prop} (fair : ∀ s, ∀ r ∈ firstWin, ok s r) :
    ∃ s, Runs.Reaches (Started fourPlayers) (Steps fourPlayers) ok s ∧ s.fsm matches .waitChuPai ∧
      (s.player 1).hu.isSome ∧ (s.player 3).pai.mingPai.map Section.tile = [25] := by
  have played : ((onStarted fourPlayers id (fun n => [17, 17, 35, 0, 18, 36, 1, 2, 3, 5, 7, 5, 2,
      12, 30, 36, 5, 4, 3, 1, 0, 20, 12, 7, 8, 10, 12, 0, 5].getD (72 - n) 0) 0).any fun s =>
        (firstWin.foldlM (step fourPlayers) s).any fun s' => s'.fsm matches .waitChuPai &&
          (s'.player 1).hu.isSome && (s'.player 3).pai.mingPai.map Section.tile = [25]) = true := by
    decide +kernel
  obtain ⟨s, started, played⟩ := (Option.any_eq_true _ _).1 played
  obtain ⟨s', run, now⟩ := (Option.any_eq_true _ _).1 played
  simp only [Bool.and_eq_true, decide_eq_true_eq] at now
  have reached := Runs.foldlM_invariant (fun rest s => rest ⊆ firstWin ∧
    Runs.Reaches (Started fourPlayers) (Steps fourPlayers) ok s) (fun r rest s s' inv next =>
      ⟨fun _ inside => inv.1 (.tail _ inside), .next r inv.2 (fair s r (inv.1 (.head _))) next⟩)
    ⟨fun _ => id, .start ⟨_, _, _, started⟩⟩ run
  exact ⟨s', reached.2, now.1.1, now.1.2, now.2⟩

theorem first_winner_stays : ∃ s, Reachable fourPlayers s ∧ (s.player 1).hu.isSome ∧
    ∀ r, ∃ s', step fourPlayers s r = some s' ∧
      (s'.player 1).pai.shouPai = (s.player 1).pai.shouPai := by
  obtain ⟨s, reached, acting, won, -⟩ := first_win_reached fun _ _ _ => trivial
  have stays := winners_stay_out reached fun scores zhuang ended => by
    rw [ended] at acting
    cases acting
  refine ⟨s, reached, won, fun r => ?_⟩
  obtain ⟨s', next, kept⟩ := stays.2.2.2.2 r
  exact ⟨s', next, (kept 1).2 ((kept 1).1 won)⟩

end FkServer.MaajanXuezhan
