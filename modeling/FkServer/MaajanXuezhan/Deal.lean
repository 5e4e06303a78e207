import FkServer.Library.Ledger
import FkServer.MaajanXuezhan.Refinement
import Mathlib.Algebra.Order.BigOperators.Group.Finset

/-!
The start of a round. The deal takes all tiles from the wall, and the dealer has one
more than the others; from then on every run of the table is a run of the game.
-/
namespace FkServer.MaajanXuezhan

variable {c : Conf} {ok : Guard} {s s' : State}

/-! ### The deck -/

theorem Conf.tiles_eq (c : Conf) :
    ∃ mens ∈ [[0], [1], [2], [1, 2], [0, 1, 2]], c.tiles = suitTiles mens := by
  have all : ∀ n, ∃ mens ∈ [[0], [1], [2], [1, 2], [0, 1, 2]], allTiles n = suitTiles mens := by
    intro n
    unfold allTiles
    split
    · exact ⟨[1, 2], by simp, rfl⟩
    · exact ⟨[0, 1, 2], by simp, rfl⟩
  unfold Conf.tiles
  cases c.playOption with
  | none => exact all _
  | some opt =>
      unfold Option.elim getAllTiles
      cases opt with
      | erRenSanFang => exact ⟨[0, 1, 2], by simp, rfl⟩
      | erRenYiFang =>
          dsimp only
          split
          · exact ⟨[0], by simp, rfl⟩
          · exact ⟨[1], by simp, rfl⟩
          · exact ⟨[2], by simp, rfl⟩
          · exact all 2
      | _ => exact ⟨[1, 2], by simp, rfl⟩

/-- The deck has four copies of each of its tiles, and they are suit tiles. -/
theorem Conf.count_tiles (c : Conf) {t : Nat} (mem : t ∈ c.tiles) :
    c.tiles.count t = 4 ∧ SuitTile t := by
  have decks : ∀ mens ∈ [[0], [1], [2], [1, 2], [0, 1, 2]], ∀ t ∈ suitTiles mens,
      (suitTiles mens).count t = 4 ∧ SuitTile t := by decide +kernel
  obtain ⟨mens, listed, same⟩ := c.tiles_eq
  rw [same] at mem ⊢
  exact decks mens listed t mem

/-! ### Dealing -/

/-- A player who has done nothing yet. -/
structure Player.Fresh (p : Player) : Prop where
  mingPai : p.pai.mingPai = []
  deskTiles : p.pai.deskTiles = []
  huan : p.pai.huan = none
  hu : p.hu = none
  firstMultiPao : p.firstMultiPao = false

/-- The table while tiles are dealt: who has how many. -/
structure Dealing (c : Conf) (dealt : Nat → Nat) (s : State) : Prop where
  nonneg : ∀ i t, 0 ≤ (s.player i).pai.shouPai t
  size : ∀ i, totalCount (s.player i).pai.shouPai = dealt i
  deck : ∀ t, ∑ i ∈ c.seats.toFinset, (s.player i).pai.shouPai t + s.dealer.wall.count t =
    c.tiles.count t
  fresh : ∀ i, (s.player i).Fresh
  turn : s.chuPaiPlayerIndex = c.zhuang
  taken : s.taken = []
  fsm : s.fsm = .huanPai

theorem Dealing.one {dealt : Nat → Nat} (dealing : Dealing c dealt s) {chair tile rnd : Nat}
    {dealer : MaajanTileDealer} (seated : chair ∈ c.seats)
    (deal : s.dealer.dealOne rnd = some (tile, dealer)) (moPaiCount count : Nat) :
    Dealing c (alter dealt chair (· + 1))
      ({ s with dealer := dealer, moPaiCount := moPaiCount }.update chair fun p =>
        { p.withShouPai fun counts => incr counts tile 1 with moPaiCount := p.moPaiCount + count }) := by
  have taken := (MaajanTileDealer.dealOne_wall deal).1
  have in_deck : tile ∈ c.tiles := by
    have copies := dealing.deck tile
    have held : 0 ≤ ∑ i ∈ c.seats.toFinset, (s.player i).pai.shouPai tile :=
      Finset.sum_nonneg fun i _ => dealing.nonneg i tile
    rw [taken, Multiset.count_cons_self] at copies
    have some_copy : 0 < c.tiles.count tile := by omega
    exact List.count_pos_iff.1 some_copy
  have inside := (c.count_tiles in_deck).2.mem_range
  refine ⟨?_, ?_, ?_, ?_, dealing.turn, dealing.taken, dealing.fsm⟩
  · intro i t
    have old := dealing.nonneg i t
    by_cases here : i = chair
    · subst here
      simp only [State.update_self, Player.withShouPai, incr_apply]
      split <;> omega
    · rw [State.update_of_ne here]
      exact old
  · intro i
    have old := dealing.size i
    by_cases here : i = chair
    · subst here
      simp only [State.update_self, Player.withShouPai, alter_self]
      rw [totalCount_incr _ inside, old]
      rfl
    · rw [State.update_of_ne here, alter_of_ne here]
      exact old
  · intro t
    have old := dealing.deck t
    rw [Ledger.sum_change (List.mem_toFinset.2 seated) (fun i here => by rw [State.update_of_ne here])]
    simp only [State.update_self, Player.withShouPai, incr_apply]
    rw [taken, Multiset.count_cons] at old
    simp only [State.update]
    by_cases here : t = tile
    · subst here
      simp only [if_true] at old ⊢
      omega
    · simp only [here, if_false] at old ⊢
      omega
  · intro i
    have old := dealing.fresh i
    by_cases here : i = chair
    · subst here
      rw [State.update_self]
      exact ⟨old.mingPai, old.deskTiles, old.huan, old.hu, old.firstMultiPao⟩
    · rw [State.update_of_ne here]
      exact old

theorem dealTiles_dealing {dealt : Nat → Nat} (dealing : Dealing c dealt s) {rnd : Nat → Nat}
    {chair n : Nat} (seated : chair ∈ c.seats) (h : dealTiles rnd chair n s = some s') :
    Dealing c (alter dealt chair (· + n)) s' := by
  induction n generalizing dealt s with
  | zero =>
      cases h
      rw [alter_add_zero]
      exact dealing
  | succ n ih =>
      unfold dealTiles at h
      split at h
      · cases h
      · rename_i tile dealer deal
        have first : Dealing c (alter dealt chair (· + 1))
            ({ s with dealer := dealer }.update chair fun p =>
              p.withShouPai fun counts => incr counts tile 1) :=
          dealing.one seated deal s.moPaiCount 0
        have rest := ih first h
        rw [← alter_add_add]
        exact rest

/-- Everybody gets `game_tile_count` tiles. -/
theorem prepareTiles_dealing {rnd : Nat → Nat} (dealing : Dealing c (fun _ => 0) s)
    (h : prepareTiles c rnd s = some s') :
    Dealing c (fun i => if i ∈ c.seats then c.gameTileCount + (if i = c.zhuang then 1 else 0) else 0)
      s' := by
  have seats : ∀ (chairs : List Nat) (dealt : Nat → Nat) (s s₁ : State), chairs.Nodup →
      chairs ⊆ c.seats → Dealing c dealt s →
      chairs.foldlM (fun s chair => dealTiles rnd chair c.gameTileCount s) s = some s₁ →
      Dealing c (fun i => dealt i + if i ∈ chairs then c.gameTileCount else 0) s₁ := by
    intro chairs
    induction chairs with
    | nil =>
        intro dealt s s₁ _ _ dealing h
        cases h
        simpa using dealing
    | cons chair chairs ih =>
        intro dealt s s₁ nodup inside dealing h
        rw [List.foldlM_cons] at h
        obtain ⟨s₂, first, rest⟩ := Option.bind_eq_some_iff.1 h
        obtain ⟨fresh, nodup⟩ := List.nodup_cons.1 nodup
        have one := dealTiles_dealing dealing (inside (.head _)) first
        have all := ih _ s₂ s₁ nodup (fun i h => inside (.tail _ h)) one rest
        have sum : (fun i => alter dealt chair (· + c.gameTileCount) i +
            if i ∈ chairs then c.gameTileCount else 0) =
              fun i => dealt i + if i ∈ chair :: chairs then c.gameTileCount else 0 := by
          funext i
          by_cases here : i = chair
          · subst here
            simp [fresh]
          · simp [alter, here]
        rw [← sum]
        exact all
  obtain ⟨s₁, dealt, faked⟩ := Option.bind_eq_some_iff.1 h
  have all := seats c.seats _ s s₁ c.seats_nodup (fun _ h => h) dealing dealt
  unfold fakeMoPai at faked
  split at faked
  · cases faked
  · rename_i tile dealer deal
    cases faked
    have last := all.one c.zhuang_in deal (s₁.moPaiCount + 1) 1
    rw [← all.turn] at last
    have sum : alter (fun i => 0 + if i ∈ c.seats then c.gameTileCount else 0) c.zhuang (· + 1) =
        fun i => if i ∈ c.seats then c.gameTileCount + (if i = c.zhuang then 1 else 0) else 0 := by
      funext i
      by_cases here : i = c.zhuang
      · subst here
        simp [c.zhuang_in]
      · simp [alter, here]
    rw [← sum, ← all.turn]
    exact last

/-! ### Runs -/

/-- The game after the deal. -/
structure Dealt (c : Conf) (g : Game) : Prop where
  nonneg : ∀ i t, 0 ≤ g.hand i t
  size : ∀ i ∈ c.seats,
    totalCount (g.hand i) = c.gameTileCount + if i = c.zhuang then 1 else 0
  deck : ∀ t, ∑ i ∈ c.seats.toFinset, g.hand i t + g.wall.count t = c.tiles.count t
  melds : ∀ i, g.melds i = []
  desk : ∀ i, g.desk i = []
  given : ∀ i, g.given i = none
  won : ∀ i, g.won i = none
  multi : ∀ i, g.multi i = false
  turn : g.turn = c.zhuang
  taken : g.taken = []
  phase : g.phase = .exchange ∨ g.phase = .act none

theorem Dealing.dealt
    (dealing : Dealing c
      (fun i => if i ∈ c.seats then c.gameTileCount + (if i = c.zhuang then 1 else 0) else 0) s)
    {phase : Phase} (start : phase = .exchange ∨ phase = .act none) : Dealt c (view s phase) where
  nonneg := dealing.nonneg
  size i seated := by
    have size := dealing.size i
    rw [if_pos seated] at size
    refine size.trans ?_
    split <;> simp
  deck := dealing.deck
  melds i := (dealing.fresh i).mingPai
  desk i := (dealing.fresh i).deskTiles
  given i := (dealing.fresh i).huan
  won i := congrArg (Option.map Hu.toWin) (dealing.fresh i).hu
  multi i := (dealing.fresh i).firstMultiPao
  turn := dealing.turn
  taken := dealing.taken
  phase := start

theorem started_dealt (ok : Guard) (start : Started c s) :
    ∃ g, Dealt c g ∧ Quiet c ok g (abs s) ∧ Offers c s := by
  obtain ⟨shuffleRnd, dealRnd, rnd, h⟩ := start
  obtain ⟨s₁, prepared, rfl⟩ := Option.map_eq_some_iff.1 h
  have dealing : Dealing c
      (fun i => if i ∈ c.seats then c.gameTileCount + (if i = c.zhuang then 1 else 0) else 0) s₁ := by
    refine prepareTiles_dealing ?_ prepared
    refine ⟨fun _ _ => Int.le_refl 0, ?_, ?_, fun _ => ⟨rfl, rfl, rfl, rfl, rfl⟩, rfl, rfl, rfl⟩
    · intro i
      simp [newPlayer, totalCount]
    · intro t
      simp [newPlayer, MaajanTileDealer.wall_shuffle]
  cases huan : c.huan with
  | none =>
      refine ⟨view s₁ (.act none), dealing.dealt (.inr rfl), ?_, ?_⟩
      · exact dingQue_quiet ok dealing.turn rnd
      · exact dingQue_offers dealing.turn rnd
  | some conf =>
      refine ⟨view s₁ .exchange, dealing.dealt (.inl rfl), ?_, ?_⟩
      · have seen : abs s₁ = view s₁ .exchange := by rw [abs, phaseOf, dealing.fsm]
        rw [if_neg (by simp), seen]
      · rw [if_neg (by simp), Offers, dealing.fsm]
        exact dealing.turn

/-- No condition on moves. -/
def Guard.any : Guard := ⟨fun _ _ _ => True, fun _ _ _ => True⟩

theorem StepOk.any (s : State) (r : Request) : StepOk .any s r :=
  ⟨fun _ _ => trivial, fun _ _ _ => trivial⟩

/-- States of rounds in which all requests meet the guard. -/
abbrev Round (c : Conf) (ok : Guard) : State → Prop :=
  Runs.Reaches (Started c) (Steps c) (StepOk ok)

theorem Reachable.round (reached : Reachable c s) : Round c .any s :=
  reached.mono fun s r _ => StepOk.any s r

/-- What the deal makes true and every move keeps is true of the game in every state
of a round. -/
theorem Round.keeps {Inv : Game → Prop} (start : ∀ g, Dealt c g → Inv g)
    (keep : ∀ win g g', Inv g → Move c ok win g g' → Inv g') (reached : Round c ok s) :
    Inv (abs s) ∧ Offers c s := by
  refine @Runs.Reaches.invariant _ _ _ _ _ (fun s => Inv (abs s) ∧ Offers c s) _ reached ?_ ?_
  · intro s started
    obtain ⟨g, dealt, quiet, offers⟩ := started_dealt ok started
    exact ⟨(Burst.of_quiet quiet).keep keep (start g dealt), offers⟩
  · intro s r s' inv fair next
    obtain ⟨burst, offers⟩ := step_burst inv.2 fair next
    exact ⟨burst.keep keep inv.1, offers⟩

end FkServer.MaajanXuezhan
