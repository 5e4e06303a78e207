import FkServer.Library.Runs
import FkServer.MaajanNanchong.Rounds

/-!
The start of a round. Everybody gets the hand of the game from the wall, and the dealer
one tile more; what the table waits for then fits the table, and every request keeps it so.
-/
namespace FkServer.MaajanNanchong

variable {c : Conf} {s s' : State}

/-- A player who has done nothing yet. -/
structure Player.Fresh (p : Player) : Prop where
  mingPai : p.pai.mingPai = []
  baoting : p.baoting = none
  baipai : p.baipai = false
  gzh : ∀ t, p.gzh t = none

/-- The table while tiles are dealt: who has how many. -/
structure Dealing (c : Conf) (dealt : Nat → Nat) (s : State) : Prop where
  nonneg : ∀ i t, 0 ≤ (s.player i).pai.shouPai t
  deck : ∀ t, ∑ i ∈ c.seats.toFinset, (s.player i).pai.shouPai t + s.dealer.wall.count t ≤
    c.tiles.count t
  size : ∀ i, totalCount (s.player i).pai.shouPai = dealt i
  fresh : ∀ i, (s.player i).Fresh
  turn : s.chuPaiPlayerIndex = c.zhuang

theorem Dealing.one {dealt : Nat → Nat} (dealing : Dealing c dealt s) {chair tile rnd : Nat}
    {dealer : MaajanTileDealer} {f : Player → Player} (seated : chair ∈ c.seats)
    (deal : s.dealer.dealOne rnd = some (tile, dealer)) (moPaiCount : Nat)
    (hand : (f (s.player chair)).pai = ((s.player chair).incr tile).pai)
    (baoting : (f (s.player chair)).baoting = (s.player chair).baoting)
    (baipai : (f (s.player chair)).baipai = (s.player chair).baipai)
    (gzh : (f (s.player chair)).gzh = (s.player chair).gzh) :
    Dealing c (alter dealt chair (· + 1))
      ({ s with dealer := dealer, moPaiCount := moPaiCount }.update chair f) := by
  obtain ⟨nonneg, deck, size⟩ := Sound.dealt dealing.nonneg dealing.deck seated deal
    (congrArg (fun pai : Pai => pai.shouPai) hand)
  refine ⟨nonneg, deck, ?_, ?_, dealing.turn⟩
  · intro i
    by_cases here : i = chair
    · subst here
      rw [State.update_self, alter_self, size, dealing.size i]
      rfl
    · rw [State.update_of_ne here, alter_of_ne here]
      exact dealing.size i
  · intro i
    by_cases here : i = chair
    · subst here
      have old := dealing.fresh i
      rw [State.update_self]
      refine ⟨?_, baoting.trans old.baoting, baipai.trans old.baipai, fun t => ?_⟩
      · exact (congrArg (fun pai : Pai => pai.mingPai) hand).trans old.mingPai
      · exact (congrFun gzh t).trans (old.gzh t)
    · rw [State.update_of_ne here]
      exact dealing.fresh i

theorem dealTiles_dealing {dealt : Nat → Nat} (dealing : Dealing c dealt s) {rnd : Nat → Nat}
    {chair n : Nat} (seated : chair ∈ c.seats) (h : dealTiles rnd chair n s = some s') :
    Dealing c (alter dealt chair (· + n)) s' := by
  induction n generalizing dealt s with
  | zero =>
      cases h
      rw [alter_add_zero]
      exact dealing
  | succ n ih =>
      unfold dealTiles at h
      split at h
      · cases h
      · rename_i tile dealer deal
        have first := dealing.one (f := fun p => p.incr tile) seated deal s.moPaiCount
          rfl rfl rfl rfl
        have rest := ih first h
        rw [← alter_add_add]
        exact rest

/-- The number of tiles everybody is dealt. -/
def dealt (c : Conf) (i : Nat) : Nat :=
  if i ∈ c.seats then c.gameTileCount + (if i = c.zhuang then 1 else 0) else 0

theorem dealSeats_dealing {rnd : Nat → Nat} {chairs : List Nat} {before : Nat → Nat}
    (dealing : Dealing c before s) (nodup : chairs.Nodup) (inside : chairs ⊆ c.seats)
    (h : chairs.foldlM (fun s chair => dealTiles rnd chair c.gameTileCount s) s = some s') :
    Dealing c (fun i => before i + if i ∈ chairs then c.gameTileCount else 0) s' := by
  induction chairs generalizing before s with
  | nil =>
      cases h
      simpa using dealing
  | cons chair chairs ih =>
      rw [List.foldlM_cons] at h
      obtain ⟨s₁, first, rest⟩ := Option.bind_eq_some_iff.1 h
      obtain ⟨fresh, nodup⟩ := List.nodup_cons.1 nodup
      have one := dealTiles_dealing dealing (inside (.head _)) first
      have all := ih one nodup (fun i h => inside (.tail _ h)) rest
      have sum : (fun i => alter before chair (· + c.gameTileCount) i +
          if i ∈ chairs then c.gameTileCount else 0) =
            fun i => before i + if i ∈ chair :: chairs then c.gameTileCount else 0 := by
        funext i
        by_cases here : i = chair
        · subst here
          simp [fresh]
        · simp [alter, here]
      rw [← sum]
      exact all

/-- The dealer's last tile is the one that counts as drawn. -/
theorem prepareTiles_dealing {rnd : Nat → Nat} (dealing : Dealing c (fun _ => 0) s)
    (h : prepareTiles c rnd s = some s') : Dealing c (dealt c) s' := by
  obtain ⟨s₁, hands, faked⟩ := Option.bind_eq_some_iff.1 h
  have all := dealSeats_dealing dealing c.seats_nodup (fun _ h => h) hands
  unfold fakeMoPai at faked
  split at faked
  · cases faked
  · rename_i tile dealer deal
    cases faked
    have last := all.one (f := fun p =>
      { p.incr tile with moPai := some tile, moPaiCount := p.moPaiCount + 1 })
      c.zhuang_in deal (s₁.moPaiCount + 1) rfl rfl rfl rfl
    rw [← all.turn] at last
    have sum : alter (fun i => 0 + if i ∈ c.seats then c.gameTileCount else 0) c.zhuang (· + 1) =
        dealt c := by
      funext i
      unfold dealt
      by_cases here : i = c.zhuang
      · subst here
        simp [c.zhuang_in]
      · simp [alter, here]
    rw [← sum, ← all.turn]
    exact last

theorem Dealing.sound (dealing : Dealing c (dealt c) s) : Sound c 1 s := by
  refine ⟨dealing.turn ▸ c.zhuang_in, dealing.nonneg, dealing.deck, ?_⟩
  intro i seated
  rw [(dealing.fresh i).mingPai, dealing.size, dealing.turn, dealt, if_pos seated]
  split <;> simp

/-- The dealt table before anybody is asked. -/
theorem started_dealing (start : Started c s) :
    ∃ s₀ rnd, Dealing c (dealt c) s₀ ∧
      s = if c.play.baoJiao then baoting c s₀
        else actionAfterDingQue c (jumpToPlayerIndex s₀ c.zhuang) rnd := by
  obtain ⟨shuffleRnd, dealRnd, rnd, h⟩ := start
  obtain ⟨s₀, prepared, rfl⟩ := Option.map_eq_some_iff.1 h
  refine ⟨s₀, rnd, prepareTiles_dealing ?_ prepared, rfl⟩
  refine ⟨fun _ _ => Int.le_refl 0, ?_, ?_, fun _ => ⟨rfl, rfl, rfl, fun _ => rfl⟩, rfl⟩
  · intro t
    simp [newPlayer, MaajanTileDealer.wall_shuffle]
  · intro i
    simp [newPlayer, totalCount]

theorem started_offers (start : Started c s) : Offers c s := by
  obtain ⟨s₀, rnd, dealing, rfl⟩ := started_dealing start
  split
  · have open_ : OwnTurn c { s₀ with fsm := .waitBaoTing } := ⟨trivial, dealing.turn⟩
    exact (ownTurn_tips open_ c.seats).offers
  · exact (ownTurn_firstTurn _).offers

/-- The states of rounds whose requests all meet a guard. -/
abbrev Round (c : Conf) (ok : State → Request → Prop) : State → Prop :=
  Runs.Reaches (Started c) (Steps c) ok

theorem Round.offers {ok : State → Request → Prop} (reached : Round c ok s) : Offers c s := by
  apply Runs.Reaches.invariant reached
  · exact fun s start => started_offers start
  · intro s r s' offers _ next
    exact next ▸ (step_outcome offers r).offers offers

end FkServer.MaajanNanchong
