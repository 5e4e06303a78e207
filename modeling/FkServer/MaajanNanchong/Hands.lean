import FkServer.Library.Ledger
import FkServer.MaajanNanchong.Handlers
import Mathlib.Algebra.Order.BigOperators.Group.Finset

/-!
The hands of a round. What passed wins and triplets block are marks which no hand depends
on; `core` forgets them. `Sound` says that the hands and the wall are made
of the deck and that every hand is one tile short of melds and a pair, but for the one
tile that the player on turn may hold besides.
-/
namespace FkServer.MaajanNanchong

open MaajanXuezhan (Action Section SectionType SuitTile Waiting suitTiles)

variable {c : Conf} {s s' : State}

/-! ### Marks -/

/-- The player without what passed wins and triplets block. -/
def Player.core (p : Player) : Player :=
  { p with gzh := fun _ => none, gsp := fun _ => false, lastPenghu := none }

def State.core (s : State) : State := { s with player := fun i => (s.player i).core }

theorem turn_of_core (same : s'.core = s.core) : s'.chuPaiPlayerIndex = s.chuPaiPlayerIndex := by
  have turn := congrArg State.chuPaiPlayerIndex same
  exact turn

theorem dealer_of_core (same : s'.core = s.core) : s'.dealer = s.dealer := by
  have dealer := congrArg State.dealer same
  exact dealer

theorem player_of_core (same : s'.core = s.core) (i : Nat) :
    (s'.player i).core = (s.player i).core := by
  have player := congrArg (fun s : State => s.player i) same
  exact player

theorem pai_of_core (same : s'.core = s.core) (i : Nat) : (s'.player i).pai = (s.player i).pai := by
  have pai := congrArg (fun s : State => (s.player i).pai) same
  exact pai

theorem core_update_marks {f : Player → Player} (chair : Nat) (marks : ∀ p, (f p).core = p.core) :
    (s.update chair f).core = s.core := by
  have players : ∀ i, ((s.update chair f).player i).core = (s.player i).core := by
    intro i
    by_cases here : i = chair
    · subst here
      rw [State.update_self]
      exact marks _
    · rw [State.update_of_ne here]
  simp only [State.core, players]
  rfl

@[simp] theorem core_cleanGzh (chair : Nat) : (cleanGzh s chair).core = s.core :=
  core_update_marks chair fun _ => rfl

@[simp] theorem core_cleanGsp (chair : Nat) : (cleanGsp s chair).core = s.core :=
  core_update_marks chair fun _ => rfl

@[simp] theorem core_setGspOnPass (chair tile : Nat) :
    (setGspOnPass s chair tile).core = s.core :=
  core_update_marks chair fun _ => rfl

@[simp] theorem core_setGzhOnPass (chair tile : Nat) :
    (setGzhOnPass c s chair tile).core = s.core := by
  unfold setGzhOnPass
  dsimp only
  split
  · rfl
  · exact core_update_marks chair fun _ => rfl

@[simp] theorem core_checkPass (offered : Action) (withPeng : Bool) (tile : Nat) (w : Waiting) :
    (checkPass c offered withPeng tile s w).core = s.core := by
  unfold checkPass
  split
  · split <;> split <;> simp
  · rfl

@[simp] theorem core_checkPasses (offered : Action) (withPeng : Bool) (tile : Nat)
    (answers : List Waiting) :
    (answers.foldl (checkPass c offered withPeng tile) s).core = s.core := by
  induction answers generalizing s with
  | nil => rfl
  | cons w answers ih => rw [List.foldl_cons, ih, core_checkPass]

@[simp] theorem core_checkAllPass (answers : List Waiting) :
    (checkAllPass c answers s).core = s.core := by
  unfold checkAllPass
  split
  · rfl
  · exact core_checkPasses _ _ _ answers

@[simp] theorem core_getSelfActionsAndSetPass (chair tile : Nat) :
    (getSelfActionsAndSetPass c s chair tile).core = s.core := by
  have gsp : ∀ (s₁ : State) (b : Prop) [Decidable b], s₁.core = s.core →
      (if b then setGspOnPass s₁ chair tile else s₁).core = s.core := by
    intro s₁ b _ same
    split
    · rw [core_setGspOnPass, same]
    · exact same
  unfold getSelfActionsAndSetPass
  dsimp only
  split
  · apply gsp
    split
    · split
      · exact core_setGzhOnPass chair tile
      · rw [core_update_marks, core_setGzhOnPass]
        exact fun _ => rfl
    · rfl
  · rfl

@[simp] theorem core_lastActionIsCanPenghu (chair tile : Nat) (answers : List Waiting) :
    (lastActionIsCanPenghu c s chair tile answers).core = s.core := by
  unfold lastActionIsCanPenghu
  dsimp only
  split
  · rw [core_update_marks, core_update_marks] <;> exact fun _ => rfl
  · rw [core_update_marks]
    exact fun _ => rfl

@[simp] theorem core_selfPassed (tile : Nat) : (selfPassed c s tile).core = s.core := by
  rw [selfPassed, core_update_marks, core_getSelfActionsAndSetPass]
  exact fun _ => rfl

/-- Marks are set on one player, so the others are what they were. -/
theorem others_setGzhOnPass {i chair : Nat} (other : i ≠ chair) (tile : Nat) :
    (setGzhOnPass c s chair tile).player i = s.player i := by
  unfold setGzhOnPass
  dsimp only
  split
  · rfl
  · exact State.update_of_ne other

theorem others_setGspOnPass {i chair : Nat} (other : i ≠ chair) (tile : Nat) :
    (setGspOnPass s chair tile).player i = s.player i :=
  State.update_of_ne other

theorem others_selfPassed {i : Nat} (other : i ≠ s.chuPaiPlayerIndex) (tile : Nat) :
    (selfPassed c s tile).player i = s.player i := by
  have gsp : ∀ (s₁ : State) (b : Prop) [Decidable b], s₁.player i = s.player i →
      (if b then setGspOnPass s₁ s.chuPaiPlayerIndex tile else s₁).player i = s.player i := by
    intro s₁ b _ same
    split
    · rw [others_setGspOnPass other, same]
    · exact same
  unfold selfPassed
  rw [State.update_of_ne other]
  unfold getSelfActionsAndSetPass
  dsimp only
  split
  · apply gsp
    split
    · split
      · exact others_setGzhOnPass other tile
      · rw [State.update_of_ne other, others_setGzhOnPass other]
    · rfl
  · rfl

/-! ### The deck -/

theorem Conf.tiles_eq (c : Conf) :
    ∃ mens ∈ [[0], [1], [2], [0, 1, 2]], c.tiles = suitTiles mens := by
  unfold Conf.tiles
  cases c.playOption with
  | none => exact ⟨[0, 1, 2], by simp, rfl⟩
  | some opt =>
      unfold Option.elim getAllTiles
      dsimp only
      split
      · exact ⟨[0], by simp, rfl⟩
      · exact ⟨[1], by simp, rfl⟩
      · exact ⟨[2], by simp, rfl⟩
      · exact ⟨[0, 1, 2], by simp, rfl⟩

/-- The deck has four copies of each of its tiles, and they are suit tiles. -/
theorem Conf.count_tiles (c : Conf) {t : Nat} (mem : t ∈ c.tiles) :
    c.tiles.count t = 4 ∧ SuitTile t := by
  have decks : ∀ mens ∈ [[0], [1], [2], [0, 1, 2]], ∀ t ∈ suitTiles mens,
      (suitTiles mens).count t = 4 ∧ SuitTile t := by decide +kernel
  obtain ⟨mens, listed, same⟩ := c.tiles_eq
  rw [same] at mem ⊢
  exact decks mens listed t mem

/-! ### Sound tables -/

/-- The hands are dealt from the deck, and the player on turn has `own` tiles more than
the others, a meld counting as three. -/
structure Sound (c : Conf) (own : Int) (s : State) : Prop where
  seated : s.chuPaiPlayerIndex ∈ c.seats
  nonneg : ∀ i t, 0 ≤ (s.player i).pai.shouPai t
  deck : ∀ t, ∑ i ∈ c.seats.toFinset, (s.player i).pai.shouPai t + s.dealer.wall.count t ≤
    c.tiles.count t
  size : ∀ i ∈ c.seats, totalCount (s.player i).pai.shouPai +
    3 * ((s.player i).pai.mingPai.length : Int) =
      c.gameTileCount + if i = s.chuPaiPlayerIndex then own else 0

variable {own own' : Int}

theorem Sound.of_core (sound : Sound c own s) (same : s'.core = s.core) : Sound c own s' := by
  have core : Sound c own s.core := ⟨sound.seated, sound.nonneg, sound.deck, sound.size⟩
  rw [← same] at core
  exact ⟨core.seated, core.nonneg, core.deck, core.size⟩

theorem Sound.in_deck (sound : Sound c own s) {i t : Nat} (seated : i ∈ c.seats)
    (held : 0 < (s.player i).pai.shouPai t) : t ∈ c.tiles := by
  have others : (s.player i).pai.shouPai t ≤ ∑ i ∈ c.seats.toFinset, (s.player i).pai.shouPai t :=
    Finset.single_le_sum (f := fun i => (s.player i).pai.shouPai t)
      (fun i _ => sound.nonneg i t) (List.mem_toFinset.2 seated)
  have deck := sound.deck t
  exact List.count_pos_iff.1 (by omega)

theorem Sound.suit (sound : Sound c own s) {i t : Nat} (seated : i ∈ c.seats)
    (held : 0 < (s.player i).pai.shouPai t) : SuitTile t :=
  (c.count_tiles (sound.in_deck seated held)).2

theorem Sound.le_four (sound : Sound c own s) {i : Nat} (seated : i ∈ c.seats) (t : Nat) :
    (s.player i).pai.shouPai t ≤ 4 := by
  have others : (s.player i).pai.shouPai t ≤ ∑ i ∈ c.seats.toFinset, (s.player i).pai.shouPai t :=
    Finset.single_le_sum (f := fun i => (s.player i).pai.shouPai t)
      (fun i _ => sound.nonneg i t) (List.mem_toFinset.2 seated)
  have deck := sound.deck t
  by_cases listed : t ∈ c.tiles
  · have := (c.count_tiles listed).1
    omega
  · rw [List.count_eq_zero_of_not_mem listed] at deck
    omega

theorem Sound.mod (sound : Sound c own s) {i : Nat} (seated : i ∈ c.seats) :
    totalCount (s.player i).pai.shouPai % 3 = (1 + if i = s.chuPaiPlayerIndex then own else 0) % 3 := by
  have size := sound.size i seated
  have hand := c.gameTileCount_size.1
  omega

/-- Tiles leave a hand on turn, or a hand takes the turn with a discard. -/
theorem Sound.take {chair tile : Nat} {n : Int} {f : Player → Player} (sound : Sound c own s)
    (seated : chair ∈ c.seats) (whose : chair = s.chuPaiPlayerIndex ∨ own = 0) (pos : 0 < n)
    (held : n ≤ (s.player chair).pai.shouPai tile)
    (hand : (f (s.player chair)).pai.shouPai = decr (s.player chair).pai.shouPai tile n)
    (melds : 3 * ((f (s.player chair)).pai.mingPai.length : Int) +
        (if chair = s.chuPaiPlayerIndex then own else 0) =
      3 * ((s.player chair).pai.mingPai.length : Int) + n + own') :
    Sound c own' (jumpToPlayerIndex (s.update chair f) chair) := by
  have inside := (sound.suit seated (show 0 < (s.player chair).pai.shouPai tile by omega)).mem_range
  refine ⟨seated, ?_, ?_, ?_⟩
  · intro i t
    have old := sound.nonneg i t
    by_cases here : i = chair
    · subst here
      simp only [jumpToPlayerIndex, State.update_self, hand, decr_apply]
      split
      · rename_i same
        subst same
        omega
      · omega
    · simp only [jumpToPlayerIndex, State.update_of_ne here]
      exact old
  · intro t
    have old := sound.deck t
    simp only [jumpToPlayerIndex]
    rw [Ledger.sum_change (List.mem_toFinset.2 seated) (fun i here => by rw [State.update_of_ne here])]
    simp only [State.update_self, hand, decr_apply]
    split <;> simp only [State.update] <;> omega
  · intro i listed
    have old := sound.size i listed
    by_cases here : i = chair
    · subst here
      simp only [jumpToPlayerIndex, State.update_self, hand, if_true]
      rw [totalCount_decr _ inside]
      omega
    · have others : (if i = s.chuPaiPlayerIndex then own else 0) = 0 := by
        cases whose with
        | inl turn => exact if_neg (turn ▸ here)
        | inr none_more => simp [none_more]
      simp only [jumpToPlayerIndex, State.update_of_ne here, old, others, here, if_false]

/-- A tile of the wall comes into a hand. -/
theorem Sound.dealt {chair tile rnd : Nat} {dealer : MaajanTileDealer} {f : Player → Player}
    (nonneg : ∀ i t, 0 ≤ (s.player i).pai.shouPai t)
    (deck : ∀ t, ∑ i ∈ c.seats.toFinset, (s.player i).pai.shouPai t + s.dealer.wall.count t ≤
      c.tiles.count t)
    (seated : chair ∈ c.seats) (deal : s.dealer.dealOne rnd = some (tile, dealer))
    (hand : (f (s.player chair)).pai.shouPai = incr (s.player chair).pai.shouPai tile 1) :
    (∀ i t, 0 ≤ ((s.update chair f).player i).pai.shouPai t) ∧
    (∀ t, ∑ i ∈ c.seats.toFinset, ((s.update chair f).player i).pai.shouPai t +
      dealer.wall.count t ≤ c.tiles.count t) ∧
    totalCount (f (s.player chair)).pai.shouPai = totalCount (s.player chair).pai.shouPai + 1 := by
  have taken := (MaajanTileDealer.dealOne_wall deal).1
  have in_deck : tile ∈ c.tiles := by
    have copies := deck tile
    have held : 0 ≤ ∑ i ∈ c.seats.toFinset, (s.player i).pai.shouPai tile :=
      Finset.sum_nonneg fun i _ => nonneg i tile
    rw [taken, Multiset.count_cons_self] at copies
    exact List.count_pos_iff.1 (by omega)
  refine ⟨?_, ?_, ?_⟩
  · intro i t
    have old := nonneg i t
    by_cases here : i = chair
    · subst here
      rw [State.update_self, hand, incr_apply]
      split <;> omega
    · rw [State.update_of_ne here]
      exact old
  · intro t
    have old := deck t
    rw [Ledger.sum_change (List.mem_toFinset.2 seated) (fun i here => by rw [State.update_of_ne here])]
    rw [taken, Multiset.count_cons] at old
    rw [State.update_self, hand, incr_apply]
    by_cases here : t = tile
    · subst here
      simp only [if_true] at old ⊢
      omega
    · simp only [here, if_false] at old ⊢
      omega
  · rw [hand, totalCount_incr _ (c.count_tiles in_deck).2.mem_range]

/-- Only hands, melds, the wall and the turn matter. -/
theorem Sound.congr (sound : Sound c own s)
    (turn : s'.chuPaiPlayerIndex = s.chuPaiPlayerIndex) (dealer : s'.dealer = s.dealer)
    (hand : ∀ i, (s'.player i).pai.shouPai = (s.player i).pai.shouPai)
    (melds : ∀ i, (s'.player i).pai.mingPai = (s.player i).pai.mingPai) : Sound c own s' where
  seated := turn ▸ sound.seated
  nonneg i t := hand i ▸ sound.nonneg i t
  deck t := by
    simp only [hand, dealer]
    exact sound.deck t
  size i seated := by
    rw [hand, melds, turn]
    exact sound.size i seated

theorem Sound.fsm (sound : Sound c own s) (fsm : FSM) : Sound c own { s with fsm := fsm } :=
  sound.congr rfl rfl (fun _ => rfl) fun _ => rfl

theorem Sound.jump (sound : Sound c 0 s) {chair : Nat} (seated : chair ∈ c.seats) :
    Sound c 0 (jumpToPlayerIndex s chair) := by
  refine ⟨seated, sound.nonneg, sound.deck, ?_⟩
  intro i listed
  have size := sound.size i listed
  simp only [ite_self] at size ⊢
  exact size

/-! ### Pieces of the handlers -/

theorem draw_own (s : State) (tile : Nat) (dealer : MaajanTileDealer) :
    (draw s tile dealer).chuPaiPlayer =
      { s.chuPaiPlayer.incr tile with
        moPai := some tile
        moPaiCount := s.chuPaiPlayer.moPaiCount + 1
        canDiscards := if s.chuPaiPlayer.baipai then some [tile] else s.chuPaiPlayer.canDiscards } := by
  simp [draw, onMoPai, State.chuPaiPlayer, State.update, alter_self, Player.incr]
  rfl

theorem draw_others {i : Nat} (other : i ≠ s.chuPaiPlayerIndex) (tile : Nat)
    (dealer : MaajanTileDealer) :
    (draw s tile dealer).player i = { s.player i with moPai := none } := by
  simp [draw, onMoPai, State.update, alter_of_ne other, other]

theorem discard_own (s : State) (tile : Nat) :
    (discard s tile).chuPaiPlayer =
      { s.chuPaiPlayer.decr tile 1 with
        chuPai := some tile
        chuPaiCount := s.chuPaiPlayer.chuPaiCount + 1
        canDiscards := none
        pai := { (s.chuPaiPlayer.decr tile 1).pai with
          deskTiles := s.chuPaiPlayer.pai.deskTiles ++ [tile] } } := by
  simp [discard, onChuPai, State.chuPaiPlayer, State.update, alter_self, Player.decr]

theorem discard_others {i : Nat} (other : i ≠ s.chuPaiPlayerIndex) (tile : Nat) :
    (discard s tile).player i = { s.player i with chuPai := none } := by
  simp [discard, onChuPai, State.update, alter_of_ne other, other]

theorem player_draw (s : State) (tile : Nat) (dealer : MaajanTileDealer) (i : Nat) :
    ((draw s tile dealer).player i).pai =
      ((s.update s.chuPaiPlayerIndex fun p => p.incr tile).player i).pai := by
  by_cases here : i = s.chuPaiPlayerIndex
  · subst here
    have own := congrArg Player.pai (draw_own s tile dealer)
    rw [State.update_self]
    exact own
  · rw [draw_others here, State.update_of_ne here]

/-- The drawn tile is in the hand. -/
theorem draw_held (nonneg : ∀ i t, 0 ≤ (s.player i).pai.shouPai t) (tile : Nat)
    (dealer : MaajanTileDealer) : 0 < (draw s tile dealer).chuPaiPlayer.pai.shouPai tile := by
  have pai := congrArg (fun pai : Pai => pai.shouPai tile)
    (player_draw s tile dealer s.chuPaiPlayerIndex)
  have old := nonneg s.chuPaiPlayerIndex tile
  rw [State.update_self] at pai
  refine lt_of_lt_of_eq ?_ pai.symm
  simp only [Player.incr, incr_apply, if_true]
  omega

theorem player_discard (s : State) (tile i : Nat) :
    ((discard s tile).player i).pai.shouPai =
        ((s.update s.chuPaiPlayerIndex fun p => p.decr tile 1).player i).pai.shouPai ∧
      ((discard s tile).player i).pai.mingPai =
        ((s.update s.chuPaiPlayerIndex fun p => p.decr tile 1).player i).pai.mingPai := by
  by_cases here : i = s.chuPaiPlayerIndex
  · subst here
    have hand := congrArg (fun p : Player => p.pai.shouPai) (discard_own s tile)
    have melds := congrArg (fun p : Player => p.pai.mingPai) (discard_own s tile)
    rw [State.update_self]
    exact ⟨hand, melds⟩
  · rw [discard_others here, State.update_of_ne here]
    exact ⟨rfl, rfl⟩

theorem player_popDesk (s : State) (i : Nat) :
    ((popDesk s).player i).pai.shouPai = (s.player i).pai.shouPai ∧
      ((popDesk s).player i).pai.mingPai = (s.player i).pai.mingPai := by
  unfold popDesk
  by_cases here : i = s.chuPaiPlayerIndex
  · subst here
    simp
  · simp [State.update_of_ne here]

theorem Sound.draw {tile rnd : Nat} {dealer : MaajanTileDealer} (sound : Sound c 0 s)
    (deal : s.dealer.dealOne rnd = some (tile, dealer)) : Sound c 1 (draw s tile dealer) := by
  obtain ⟨nonneg, deck, size⟩ := Sound.dealt (f := fun p => p.incr tile) sound.nonneg sound.deck
    sound.seated deal rfl
  have drawn : Sound c 1
      { s.update s.chuPaiPlayerIndex fun p => p.incr tile with dealer := dealer } := by
    refine ⟨sound.seated, nonneg, deck, ?_⟩
    intro i listed
    have old := sound.size i listed
    dsimp only
    by_cases here : i = s.chuPaiPlayerIndex
    · subst here
      rw [State.update_self, size]
      simp only [Player.incr, State.update, if_true] at old ⊢
      omega
    · rw [State.update_of_ne here]
      simpa [State.update, here] using old
  exact drawn.congr rfl rfl (fun i => congrArg (fun pai : Pai => pai.shouPai) (player_draw s tile dealer i))
    fun i => congrArg (fun pai : Pai => pai.mingPai) (player_draw s tile dealer i)

theorem Sound.discard (sound : Sound c 1 s) {tile : Nat}
    (held : 0 < s.chuPaiPlayer.pai.shouPai tile) : Sound c 0 (discard s tile) := by
  have taken : Sound c 0 (jumpToPlayerIndex
      (s.update s.chuPaiPlayerIndex fun p => p.decr tile 1) s.chuPaiPlayerIndex) :=
    sound.take sound.seated (.inl rfl) (by decide) held rfl (by simp [Player.decr])
  exact taken.congr rfl rfl (fun i => (player_discard s tile i).1) fun i => (player_discard s tile i).2

theorem nextChair_seated (c : Conf) {chair : Nat} (seated : chair ∈ c.seats) :
    nextChair c chair ∈ c.seats := by
  unfold nextChair
  cases found : Rotation.seek (Rotation.forward c.chairCount) c.seats.contains c.chairCount chair with
  | none => exact seated
  | some next =>
      obtain ⟨_, _, _, stops, _⟩ := Rotation.seek_eq_some found
      exact List.contains_iff_mem.1 stops

theorem Sound.done (sound : Sound c own s) (chair : Nat) (action : Option (Action × Nat)) :
    Sound c own (doneLastAction s chair action) :=
  sound.congr rfl rfl (fun _ => rfl) fun _ => rfl

theorem Sound.next (sound : Sound c 0 s) : Sound c 0 (nextPlayerIndex c s) :=
  (sound.done _ none).jump (nextChair_seated c sound.seated)

end FkServer.MaajanNanchong
