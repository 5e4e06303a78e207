import FkServer.MaajanXuezhan.Turn

/-!
No tile is lost or made up in a round: the hands, the melds, the discards, the tiles that winners
have taken and the wall are the deck, and everybody holds as many tiles as the melds and the turn
leave. The exchange is the only request that can break it, with more copies of a tile than are held.
-/
namespace FkServer.MaajanXuezhan

variable {c : Conf} {ok : Guard} {win : Bool} {g g' : Game} {s s' : State}

/-- The tiles that a meld lies with. -/
def Section.copies (sec : Section) (tile : Nat) : Int :=
  if sec.tile = tile then (if isSectionGang sec.type then 4 else 3) else 0

/-- Whether the player on turn has one tile more than the others. -/
def Phase.acting : Phase → Bool
  | .exchange | .act _ | .rob _ => true
  | .claim | .draw | .over => false

namespace Game

def laid (g : Game) (i tile : Nat) : Int := ((g.melds i).map fun sec => sec.copies tile).sum

/-- The tiles before a player. -/
def held (g : Game) (i tile : Nat) : Int := g.hand i tile + g.laid i tile + (g.desk i).count tile

/-- All tiles. -/
def total (g : Game) (c : Conf) (tile : Nat) : Int :=
  ∑ i ∈ c.seats.toFinset, g.held i tile + g.wall.count tile + g.taken.count tile

/-- A winner keeps the tile it has drawn. -/
def kept (g : Game) (i : Nat) : Int := if (g.won i).any Win.drawn then 1 else 0

/-- The tiles a player has to hold beyond those it was dealt. -/
def extra (g : Game) (i : Nat) : Int :=
  if i = g.turn ∧ (g.won i).isNone ∧ g.phase.acting then 1 else g.kept i

/-- Every tile of the deck is somewhere. -/
structure Stock (c : Conf) (g : Game) : Prop where
  nonneg : ∀ i t, 0 ≤ g.hand i t
  deck : ∀ t, g.total c t = c.tiles.count t

/-- And everybody holds the right number. -/
structure Conserved (c : Conf) (g : Game) : Prop where
  stock : g.Stock c
  size : ∀ i ∈ c.seats,
    totalCount (g.hand i) + 3 * ((g.melds i).length : Int) = c.gameTileCount + g.extra i
  given : g.phase = .exchange → ∀ i tiles, g.given i = some tiles →
    (∀ t, (tiles.count t : Int) ≤ g.hand i t) ∧
      ∃ huan, c.huan = some huan ∧ tiles.length = huan.count
  drawn : ∀ t, g.phase = .act (some t) ∨ g.phase = .rob t → 0 < g.hand g.turn t

/-! ### Sums -/

/-- What one player has more, all have more. -/
theorem total_change (g g' : Game) {i : Nat} (seated : i ∈ c.seats) (wall : g'.wall = g.wall)
    (taken : g'.taken = g.taken) {t : Nat} (others : ∀ j, j ≠ i → g'.held j t = g.held j t) :
    g'.total c t = g.total c t + (g'.held i t - g.held i t) := by
  rw [total, total, wall, taken, Ledger.sum_change (List.mem_toFinset.2 seated) others]
  omega

theorem count_dropLast {tiles : List Nat} {tile : Nat} (top : tiles.getLast? = some tile)
    (t : Nat) :
    (tiles.dropLast.count t : Int) = tiles.count t - if t = tile then 1 else 0 := by
  obtain ⟨front, rfl⟩ := List.getLast?_eq_some_iff.1 top
  rw [List.dropLast_concat, List.count_append, List.count_singleton]
  by_cases here : t = tile
  · simp [here]
  · simp [here, Ne.symm here]

theorem total_popDesk (seated : g.turn ∈ c.seats) {tile : Nat}
    (top : (g.desk g.turn).getLast? = some tile) (t : Nat) :
    g.popDesk.total c t = g.total c t - if t = tile then 1 else 0 := by
  have others : ∀ j, j ≠ g.turn → g.popDesk.held j t = g.held j t := by
    intro j other
    simp only [held, popDesk, laid, alter_of_ne other]
  rw [total_change g g.popDesk seated rfl rfl others]
  simp only [held, popDesk, laid, alter_self]
  rw [count_dropLast top]
  omega

theorem total_lay {chair : Nat} (seated : chair ∈ c.seats) (tile : Nat) (n : Int) (sec : Section)
    (t : Nat) : (g.lay chair tile n sec).total c t =
      g.total c t - (if t = tile then n else 0) + sec.copies t := by
  have others : ∀ j, j ≠ chair → (g.lay chair tile n sec).held j t = g.held j t := by
    intro j other
    simp only [held, lay, laid, alter_of_ne other]
  rw [total_change g (g.lay chair tile n sec) seated rfl rfl others]
  simp only [held, lay, laid, alter_self, decr_apply, List.map_append, List.sum_append,
    List.map_singleton, List.sum_singleton]
  omega

theorem hand_le_held (g : Game) (i t : Nat) : g.hand i t ≤ g.held i t := by
  have laid : 0 ≤ g.laid i t := by
    refine List.sum_nonneg fun n mem => ?_
    obtain ⟨sec, -, rfl⟩ := List.mem_map.1 mem
    unfold Section.copies
    split
    · split <;> decide
    · exact le_rfl
  unfold held
  omega

/-- A tile that somebody holds, or that is in the wall, is a tile of the deck. -/
theorem Stock.in_deck (h : g.Stock c) {t : Nat}
    (some : (∃ i ∈ c.seats, 0 < g.hand i t) ∨ t ∈ g.wall) : t ∈ c.tiles := by
  have nonneg : ∀ i ∈ c.seats.toFinset, 0 ≤ g.held i t :=
    fun i _ => (h.nonneg i t).trans (g.hand_le_held i t)
  have deck := h.deck t
  have sum := Finset.sum_nonneg nonneg
  unfold total at deck
  refine List.count_pos_iff.1 ?_
  cases some with
  | inl held =>
      obtain ⟨i, seated, one⟩ := held
      have mine := Finset.single_le_sum nonneg (List.mem_toFinset.2 seated)
      have le := g.hand_le_held i t
      omega
  | inr left =>
      have copies := Multiset.count_pos.2 left
      omega

theorem Stock.in_range (h : g.Stock c) {i t : Nat} (seated : i ∈ c.seats) (some : 0 < g.hand i t) :
    t ∈ List.range' 1 50 :=
  (c.count_tiles (h.in_deck (.inl ⟨i, seated, some⟩))).2.mem_range

/-! ### Moves -/

/-- In a phase in which nobody acts, only winners have one tile more. -/
theorem extra_of_not_acting (quiet : g.phase.acting = false) (i : Nat) : g.extra i = g.kept i := by
  rw [extra, if_neg]
  rw [quiet]
  exact fun both => Bool.noConfusion both.2.2

theorem extra_turn (playing : g.won g.turn = none) (acting : g.phase.acting = true) :
    g.extra g.turn = 1 := if_pos ⟨rfl, by rw [playing]; rfl, acting⟩

theorem extra_of_ne {i : Nat} (other : i ≠ g.turn) : g.extra i = g.kept i :=
  if_neg fun both => other both.1

theorem kept_of_none {i : Nat} (playing : g.won i = none) : g.kept i = 0 := by
  rw [kept, playing]
  rfl

theorem extra_congr (won : g'.won = g.won) (turn : g'.turn = g.turn)
    (acting : g'.phase.acting = g.phase.acting) (i : Nat) : g'.extra i = g.extra i := by
  rw [extra, extra, kept, kept, won, turn, acting]

/-- Hands, melds and discards are as they were, and so are the winners. -/
theorem Conserved.same (h : g.Conserved c) (hand : g'.hand = g.hand) (melds : g'.melds = g.melds)
    (desk : g'.desk = g.desk) (wall : g'.wall = g.wall) (taken : g'.taken = g.taken)
    (extra : ∀ i ∈ c.seats, g'.extra i = g.extra i) (phase : g'.phase ≠ .exchange)
    (drawn : ∀ t, g'.phase = .act (some t) ∨ g'.phase = .rob t → 0 < g'.hand g'.turn t) :
    g'.Conserved c where
  stock :=
    { nonneg := by rw [hand]; exact h.stock.nonneg
      deck := fun t => by
        have deck := h.stock.deck t
        simp only [total, held, laid] at deck ⊢
        rw [hand, melds, desk, wall, taken]
        exact deck }
  size i seated := by rw [hand, melds, extra i seated]; exact h.size i seated
  given start := absurd start phase
  drawn := drawn

/-- A player gives one tile of its hand away or to the table. -/
theorem Stock.nonneg_decr (h : g.Stock c) {i tile : Nat} {n : Int} (enough : n ≤ g.hand i tile)
    (j t : Nat) : 0 ≤ alter g.hand i (fun counts => decr counts tile n) j t := by
  have old := h.nonneg j t
  by_cases here : j = i
  · subst here
    rw [alter_self, decr_apply]
    split
    · rename_i same
      subst same
      omega
    · omega
  · rwa [alter_of_ne here]

theorem Conserved.discard (h : g.Conserved c) (now : InTurn c g) {tile : Nat}
    (acting : g.phase.acting = true) (held : 0 < g.hand g.turn tile) :
    (g.discard tile).Conserved c := by
  have inside := h.stock.in_range now.seated held
  refine ⟨⟨h.stock.nonneg_decr (by omega), fun t => ?_⟩, fun i seated => ?_, nofun, nofun⟩
  · have others : ∀ j, j ≠ g.turn → (g.discard tile).held j t = g.held j t := by
      intro j other
      simp only [Game.held, Game.discard, laid, alter_of_ne other]
    rw [total_change g (g.discard tile) now.seated rfl rfl others, h.stock.deck]
    simp only [Game.held, Game.discard, laid, alter_self, decr_apply, List.count_append,
      List.count_singleton]
    by_cases here : t = tile
    · simp [here]
      omega
    · simp [here, Ne.symm here]
  · have old := h.size i seated
    rw [extra_of_not_acting rfl]
    by_cases here : i = g.turn
    · subst here
      rw [extra_turn now.playing acting] at old
      rw [kept_of_none (show (g.discard tile).won g.turn = none from now.playing)]
      simp only [Game.discard, alter_self, totalCount_decr _ inside]
      omega
    · rw [extra_of_ne here] at old
      simp only [Game.discard, alter_of_ne here]
      exact old

/-- A meld is laid out of a hand and, for `n` tiles less than it has, of the discard. -/
theorem size_lay (g : Game) (chair : Nat) {tile : Nat} (n : Int) (sec : Section) (h : ∀ i ∈ c.seats,
      totalCount (g.hand i) + 3 * ((g.melds i).length : Int) = c.gameTileCount + g.extra i)
    (inside : tile ∈ List.range' 1 50) {i : Nat}
    (seated : i ∈ c.seats) :
    totalCount ((g.lay chair tile n sec).hand i) +
        3 * (((g.lay chair tile n sec).melds i).length : Int) =
      c.gameTileCount + g.extra i + if i = chair then 3 - n else 0 := by
  have old := h i seated
  by_cases here : i = chair
  · subst here
    simp only [lay, alter_self, totalCount_decr _ inside, List.length_append,
      List.length_singleton, if_true]
    push_cast
    omega
  · simp only [lay, alter_of_ne here, if_neg here]
    omega

/-- A meld of the discard and `n` tiles of a hand. -/
theorem Conserved.claimed (h : g.Conserved c) (now : InTurn c g) (claim : g.phase = .claim)
    {chair tile : Nat} (free : g.Free c chair) (top : (g.desk g.turn).getLast? = some tile)
    {n : Int} (pos : 0 < n) (enough : n ≤ g.hand chair tile) {sec : Section}
    (copies : ∀ t, sec.copies t = if t = tile then n + 1 else 0)
    (next : g' = { g.popDesk.lay chair tile n sec with turn := chair, phase := g'.phase })
    (quiet : g'.phase ≠ .exchange)
    (drawn : ∀ t, g'.phase ≠ .act (some t) ∧ g'.phase ≠ .rob t)
    (acting : (if g'.phase.acting then 1 else 0) = 3 - n) : g'.Conserved c := by
  have inside := h.stock.in_range free.1 (pos.trans_le enough)
  obtain ⟨seated, other, playing⟩ := free
  refine ⟨⟨?_, fun t => ?_⟩, fun i seated_i => ?_, fun start => absurd start quiet,
    fun t one => absurd one (by simp [drawn])⟩
  · rw [next]
    exact h.stock.nonneg_decr (g := g) enough
  · have all : g'.total c t = (g.popDesk.lay chair tile n sec).total c t := by
      rw [next]
      rfl
    rw [all, total_lay seated, total_popDesk now.seated top, h.stock.deck, copies]
    split <;> omega
  · have size := size_lay g.popDesk chair n sec h.size inside seated_i
    have kept : g.popDesk.extra i = g.kept i := extra_of_not_acting (by rw [popDesk, claim]; rfl) i
    have kept' : g'.kept i = g.kept i := by
      rw [next]
      rfl
    have turn : g'.turn = chair := by rw [next]
    have won : g'.won = g.won := by
      rw [next]
      rfl
    have same : totalCount (g'.hand i) + 3 * ((g'.melds i).length : Int) =
        totalCount ((g.popDesk.lay chair tile n sec).hand i) +
          3 * (((g.popDesk.lay chair tile n sec).melds i).length : Int) := by
      rw [next]
    rw [same, size, kept]
    by_cases here : i = chair
    · subst here
      rw [if_pos rfl, kept_of_none playing, extra, turn, won, playing, kept', kept_of_none playing]
      cases on : g'.phase.acting <;> simp [on] at acting ⊢ <;> omega
    · rw [if_neg here, extra_of_ne (by rw [turn]; exact here), kept']
      omega

theorem Conserved.anGang (h : g.Conserved c) (now : InTurn c g) (acting : g.phase.acting = true)
    {tile : Nat} (four : g.hand g.turn tile = 4) : (g.anGang tile).Conserved c := by
  have inside := h.stock.in_range now.seated (show 0 < g.hand g.turn tile by omega)
  refine ⟨⟨h.stock.nonneg_decr (by omega), fun t => ?_⟩, fun i seated => ?_, nofun, nofun⟩
  · have all := total_lay (g := g) now.seated tile 4
      ⟨.anGang, tile, none, some g.clock, none, g.clock⟩ t
    refine all.trans ?_
    rw [h.stock.deck, Section.copies]
    by_cases here : t = tile
    · simp [here, isSectionGang]
    · simp [here, Ne.symm here]
  · have size := size_lay g g.turn 4 ⟨.anGang, tile, none, some g.clock, none, g.clock⟩ h.size
      inside seated
    refine size.trans ?_
    rw [extra_of_not_acting (g := g.anGang tile) rfl]
    have kept : (g.anGang tile).kept i = g.kept i := rfl
    by_cases here : i = g.turn
    · subst here
      rw [kept, extra_turn now.playing acting, kept_of_none now.playing, if_pos rfl]
      omega
    · rw [kept, extra_of_ne here, if_neg here]
      omega

theorem copies_eraseP {secs : List Section} {tile : Nat} {old : Section}
    (found : secs.find? (Section.isPeng tile) = some old) (new : Section)
    (gang : new.tile = tile ∧ isSectionGang new.type = true) (t : Nat) :
    ((secs.eraseP (Section.isPeng tile) ++ [new]).map fun sec => sec.copies t).sum =
        (secs.map fun sec => sec.copies t).sum + (if t = tile then 1 else 0) ∧
      (secs.eraseP (Section.isPeng tile) ++ [new]).length = secs.length := by
  obtain ⟨isPeng, before, after, rfl, none⟩ := List.find?_eq_some_iff_append.1 found
  have erased : (before ++ old :: after).eraseP (Section.isPeng tile) = before ++ after := by
    rw [List.eraseP_append_right _ fun sec mem => by simpa using none sec mem,
      List.eraseP_cons_of_pos isPeng]
  have old_copies : old.copies t = if t = tile then 3 else 0 := by
    simp only [Section.isPeng, decide_eq_true_eq] at isPeng
    rw [Section.copies, isPeng.1, isPeng.2]
    simp [isSectionGang, eq_comm]
  have new_copies : new.copies t = if t = tile then 4 else 0 := by
    rw [Section.copies, gang.1, gang.2]
    simp [eq_comm]
  rw [erased]
  constructor
  · simp only [List.map_append, List.map_cons, List.map_nil, List.sum_append, List.sum_cons,
      List.sum_nil, old_copies, new_copies]
    split <;> omega
  · simp only [List.length_append, List.length_cons, List.length_nil]
    omega

/-- A triplet becomes a gang. -/
theorem Conserved.baGang (h : g.Conserved c) (now : InTurn c g) (acting : g.phase.acting = true)
    {tile : Nat} (one : 0 < g.hand g.turn tile) {old : Section}
    (found : (g.melds g.turn).find? (Section.isPeng tile) = some old) :
    (g.baGang tile old).Conserved c := by
  have inside := h.stock.in_range now.seated one
  have grown := copies_eraseP found ⟨.baGang, tile, old.whoee, some g.clock, none, g.clock⟩
    ⟨rfl, rfl⟩
  refine ⟨⟨h.stock.nonneg_decr (by omega), fun t => ?_⟩, fun i seated => ?_, nofun, nofun⟩
  · have others : ∀ j, j ≠ g.turn → (g.baGang tile old).held j t = g.held j t := by
      intro j other
      simp only [held, Game.baGang, laid, alter_of_ne other]
    rw [total_change g (g.baGang tile old) now.seated rfl rfl others, h.stock.deck]
    simp only [held, Game.baGang, laid, alter_self, decr_apply, (grown t).1]
    split <;> omega
  · have size := h.size i seated
    rw [extra_of_not_acting (g := g.baGang tile old) rfl]
    have kept : (g.baGang tile old).kept i = g.kept i := rfl
    by_cases here : i = g.turn
    · subst here
      rw [extra_turn now.playing acting] at size
      rw [kept, kept_of_none now.playing]
      simp only [Game.baGang, alter_self, totalCount_decr _ inside, (grown 0).2]
      omega
    · rw [extra_of_ne here] at size
      rw [kept]
      simp only [Game.baGang, alter_of_ne here]
      exact size

theorem Conserved.drawTile (h : g.Conserved c) (now : InTurn c g) (draw : g.phase = .draw)
    {tile : Nat} {rest : Multiset Nat} (wall : g.wall = tile ::ₘ rest) :
    (g.drawTile tile rest).Conserved c := by
  have in_deck : tile ∈ c.tiles :=
    h.stock.in_deck (.inr (by rw [wall]; exact Multiset.mem_cons_self _ _))
  have inside := (c.count_tiles in_deck).2.mem_range
  refine ⟨⟨fun i t => ?_, fun t => ?_⟩, fun i seated => ?_, nofun, fun t one => ?_⟩
  · have old := h.stock.nonneg i t
    by_cases here : i = g.turn
    · subst here
      simp only [Game.drawTile, alter_self, incr_apply]
      split <;> omega
    · simp only [Game.drawTile, alter_of_ne here]
      exact old
  · have deck := h.stock.deck t
    have others : ∀ j, j ≠ g.turn → (g.drawTile tile rest).held j t = g.held j t := by
      intro j other
      simp only [held, Game.drawTile, laid, alter_of_ne other]
    have moved := Ledger.sum_change (List.mem_toFinset.2 now.seated) others
    simp only [held, Game.drawTile, laid, alter_self, incr_apply] at moved
    rw [total, wall, Multiset.count_cons] at deck
    simp only [total, held, Game.drawTile, laid] at deck ⊢
    rw [moved]
    by_cases here : t = tile
    · simp only [here, if_true] at deck ⊢
      push_cast at deck
      omega
    · simp only [here, if_false] at deck ⊢
      push_cast at deck
      omega
  · have size := h.size i seated
    rw [extra_of_not_acting (by rw [draw]; rfl)] at size
    have kept : (g.drawTile tile rest).kept i = g.kept i := rfl
    by_cases here : i = g.turn
    · subst here
      have playing : (g.drawTile tile rest).won (g.drawTile tile rest).turn = none := now.playing
      rw [kept_of_none now.playing] at size
      refine Eq.trans ?_ (congrArg _ (extra_turn playing rfl).symm)
      simp only [Game.drawTile, alter_self, totalCount_incr _ inside]
      omega
    · rw [extra_of_ne (show i ≠ (g.drawTile tile rest).turn from here), kept]
      simp only [Game.drawTile, alter_of_ne here]
      exact size
  · have old := h.stock.nonneg g.turn t
    have same : t = tile := by
      cases one with
      | inl act => cases act; rfl
      | inr rob => cases rob
    simp only [Game.drawTile, alter_self, incr_apply, same]
    subst same
    simp only [if_true]
    omega

/-! ### Wins -/

theorem Conserved.afterWin {from_ : Nat} (stock : g.Stock c)
    (size : ∀ i ∈ c.seats,
      totalCount (g.hand i) + 3 * ((g.melds i).length : Int) = c.gameTileCount + g.kept i)
    (after : AfterWin c g from_ g') : g'.Conserved c := by
  have same := after.same
  have quiet : g'.phase = .over ∨ g'.phase = .draw := by
    cases after with
    | settled _ => exact .inl rfl
    | goesOn _ _ => exact .inr rfl
  have acting : g'.phase.acting = false := by
    cases quiet with
    | inl ended => rw [ended]; rfl
    | inr draw => rw [draw]; rfl
  refine ⟨?_, fun i seated => ?_, fun start => ?_, fun t one => ?_⟩
  · rw [same]
    exact ⟨stock.nonneg, stock.deck⟩
  · rw [extra_of_not_acting acting, same]
    exact size i seated
  · rw [start] at acting
    cases acting
  · cases one with
    | inl act => rw [act] at acting; cases acting
    | inr rob => rw [rob] at acting; cases acting

/-- Winners who have not drawn the tile keep nothing of it. -/
theorem Won.kept {winners : List Nat} {tile : Nat} (won : Won g winners tile g')
    (nodup : winners.Nodup) (free : ∀ chair ∈ winners, g.Free c chair) (i : Nat) :
    g'.kept i = g.kept i := by
  by_cases winner : i ∈ winners
  · obtain ⟨k, -, here⟩ := won.winners nodup i winner
    rw [kept_of_none (free i winner).2.2, Game.kept, here]
    rfl
  · rw [Game.kept, won.others i winner, Game.kept]

theorem claimWins_total (seated : g.turn ∈ c.seats) (gang : Option Nat) (winners : List Nat)
    {tile : Nat} (top : (g.desk g.turn).getLast? = some tile) (t : Nat) :
    (g.claimWins c gang winners tile).total c t = g.total c t := by
  have laid : ∀ i, (g.claimWins c gang winners tile).laid i t = g.laid i t := by
    intro i
    obtain ⟨credit, melds, either⟩ := g.claimWins_melds c gang winners tile i
    rw [Game.laid, melds, List.map_map, Game.laid]
    congr 1
    refine List.map_congr_left fun sec _ => ?_
    show (credit sec).copies t = sec.copies t
    cases either sec with
    | inl same => rw [same]
    | inr credited =>
        obtain ⟨who, -, -, same⟩ := credited
        rw [same]
        rfl
  have won := g.claimWins_won c gang winners tile
  have desk : (g.claimWins c gang winners tile).desk = g.popDesk.desk := by
    unfold claimWins popDesk
    dsimp only
    rw [(writes_mark gang (some g.turn)).foldl]
  have held : ∀ i, (g.claimWins c gang winners tile).held i t = g.popDesk.held i t := by
    intro i
    rw [Game.held, laid, g.claimWins_hand, desk]
    rfl
  have popped := total_popDesk seated top t
  rw [total] at popped ⊢
  rw [Finset.sum_congr rfl fun i _ => held i, won.wall, won.taken, List.count_cons]
  have wall : g.popDesk.wall = g.wall := rfl
  have taken : g.popDesk.taken = g.taken := rfl
  rw [wall, taken] at popped
  by_cases here : t = tile
  · simp only [here, if_true, beq_self_eq_true] at popped ⊢
    push_cast
    omega
  · simp only [here, Ne.symm here, if_false, beq_iff_eq] at popped ⊢
    push_cast
    omega

theorem Conserved.claimWins (h : g.Conserved c) (now : InTurn c g) (claim : g.phase = .claim)
    {winners : List Nat} (nodup : winners.Nodup) (free : ∀ chair ∈ winners, g.Free c chair)
    {tile : Nat} (top : (g.desk g.turn).getLast? = some tile) {gang : Option Nat} {from_ : Nat}
    (after : AfterWin c (g.claimWins c gang winners tile) from_ g') : g'.Conserved c := by
  refine .afterWin ⟨?_, fun t => ?_⟩ (fun i seated => ?_) after
  · rw [g.claimWins_hand]
    exact h.stock.nonneg
  · rw [claimWins_total now.seated gang winners top, h.stock.deck]
  · obtain ⟨credit, melds, -⟩ := g.claimWins_melds c gang winners tile i
    have size := h.size i seated
    rw [extra_of_not_acting (by rw [claim]; rfl)] at size
    rw [g.claimWins_hand, melds, List.length_map,
      (g.claimWins_won c gang winners tile).kept nodup free]
    exact size

theorem Conserved.robWins (h : g.Conserved c) (now : InTurn c g) {tile : Nat}
    (rob : g.phase = .rob tile) {winners : List Nat} (nodup : winners.Nodup)
    (free : ∀ chair ∈ winners, g.Free c chair) {offered from_ : Nat}
    (after : AfterWin c (g.robWins c winners offered tile) from_ g') : g'.Conserved c := by
  have one := h.drawn tile (.inr rob)
  have inside := h.stock.in_range now.seated one
  have won := g.robWins_won c winners offered tile
  obtain ⟨hand, melds, desk, -⟩ := g.robWins_rest c winners offered tile
  refine .afterWin ⟨?_, fun t => ?_⟩ (fun i seated => ?_) after
  · rw [hand]
    exact h.stock.nonneg_decr (by omega)
  · have others : ∀ j, j ≠ g.turn →
        (g.robWins c winners offered tile).held j t = g.held j t := by
      intro j other
      simp only [held, laid, hand, melds, desk, alter_of_ne other]
    have moved := Ledger.sum_change (List.mem_toFinset.2 now.seated) others
    simp only [held, laid, hand, melds, desk, alter_self, decr_apply] at moved
    have deck := h.stock.deck t
    simp only [total, held, laid, hand, melds, desk] at deck ⊢
    rw [moved, won.wall, won.taken, List.count_cons]
    by_cases here : t = tile
    · simp only [here, if_true, beq_self_eq_true] at deck ⊢
      push_cast
      omega
    · simp only [here, Ne.symm here, if_false, beq_iff_eq] at deck ⊢
      push_cast
      omega
  · have size := h.size i seated
    rw [won.kept nodup free, hand, melds]
    by_cases here : i = g.turn
    · subst here
      rw [extra_turn now.playing (by rw [rob]; rfl)] at size
      rw [alter_self, totalCount_decr _ inside, kept_of_none now.playing]
      omega
    · rw [extra_of_ne here] at size
      rw [alter_of_ne here]
      exact size

/-- The winner keeps the tile it has drawn. -/
theorem Conserved.selfDraw (h : g.Conserved c) (now : InTurn c g) (acting : g.phase.acting = true)
    {ziMo : Option Bool} (drawn : ziMo ≠ some false) {whoee : Option Nat} {from_ : Nat}
    (after : AfterWin c (g.winOne ziMo whoee g.turn) from_ g') : g'.Conserved c := by
  refine .afterWin (g := g.winOne ziMo whoee g.turn) ⟨h.stock.nonneg, h.stock.deck⟩
    (fun i seated => ?_) after
  have size := h.size i seated
  by_cases here : i = g.turn
  · subst here
    rw [extra_turn now.playing acting] at size
    have kept : (g.winOne ziMo whoee g.turn).kept g.turn = 1 := by
      simp [Game.kept, winOne, Win.drawn, drawn]
    rw [kept]
    exact size
  · rw [extra_of_ne here] at size
    have kept : (g.winOne ziMo whoee g.turn).kept i = g.kept i := by
      simp only [Game.kept, winOne, alter_of_ne here]
    rw [kept]
    exact size

/-! ### The exchange -/

/-- Nobody gives away more copies of a tile than it holds, which the table does not look at. -/
def Honest : Guard where
  give g chair tiles := g.phase = .exchange → g.given chair = none →
    ∀ t, (tiles.count t : Int) ≤ g.hand chair t
  rob _ _ _ := True

/-- What goes to the members of a set arrives there. -/
theorem sum_targets {group : Finset Nat} {target : Nat → Nat} (senders : List Nat)
    (inside : ∀ i ∈ senders, target i ∈ group) (f : Nat → Int) :
    ∑ j ∈ group, ((senders.filter fun i => target i = j).map f).sum = (senders.map f).sum := by
  induction senders with
  | nil => simp
  | cons i senders ih =>
      have first : ∀ j, (((i :: senders).filter fun i => target i = j).map f).sum =
          (if target i = j then f i else 0) +
            ((senders.filter fun i => target i = j).map f).sum := by
        intro j
        by_cases here : target i = j
        · simp [here]
        · simp [here]
      rw [Finset.sum_congr rfl fun j _ => first j, Finset.sum_add_distrib,
        Finset.sum_ite_eq, if_pos (inside i (.head _)), ih fun i mem => inside i (.tail _ mem),
        List.map_cons, List.sum_cons]

theorem totalCount_add (counts counts' : Counts) :
    totalCount (fun t => counts t + counts' t) = totalCount counts + totalCount counts' :=
  List.sum_map_add

theorem totalCount_sub (counts counts' : Counts) :
    totalCount (fun t => counts t - counts' t) = totalCount counts - totalCount counts' := by
  have parts : (fun t => counts t - counts' t + counts' t) = counts :=
    funext fun t => Int.sub_add_cancel _ _
  have split := totalCount_add (fun t => counts t - counts' t) counts'
  rw [parts] at split
  omega

/-- The tiles of a list, counted. -/
theorem totalCount_count {tiles : List Nat} (inside : ∀ t ∈ tiles, t ∈ List.range' 1 50) :
    totalCount (fun t => (tiles.count t : Int)) = tiles.length := by
  induction tiles with
  | nil => rfl
  | cons tile tiles ih =>
      have one : (fun t => (((tile :: tiles).count t : Nat) : Int)) =
          incr (fun t => (tiles.count t : Int)) tile 1 := by
        funext t
        rw [incr_apply, List.count_cons]
        by_cases here : t = tile
        · simp [here]
        · simp [here, Ne.symm here]
      rw [one, totalCount_incr _ (inside tile (.head _)), ih fun t mem => inside t (.tail _ mem),
        List.length_cons]
      rfl

/-- One player sends to each chair. -/
theorem sender_unique {target : Nat → Nat} (perm : (c.seats.map target).Perm c.seats) {chair : Nat}
    (seated : chair ∈ c.seats) :
    ∃ i ∈ c.seats, (c.seats.filter fun i => target i = chair) = [i] := by
  have once : (c.seats.filter fun i => target i = chair).length = 1 := by
    have count : (c.seats.map target).count chair = 1 := by
      rw [perm.count_eq, List.count_eq_one_of_mem c.seats_nodup seated]
    rw [← count, List.count_eq_countP, List.countP_map, List.countP_eq_length_filter]
    congr 1
  obtain ⟨i, one⟩ := List.length_eq_one_iff.1 once
  have mem : i ∈ c.seats.filter fun i => target i = chair := by
    rw [one]
    exact List.mem_singleton_self i
  exact ⟨i, (List.mem_filter.1 mem).1, one⟩

theorem Conserved.exchange (h : g.Conserved c) (start : g.phase = .exchange)
    (ready : ∀ chair ∈ c.seats, (g.given chair).isSome) {target : Nat → Nat}
    (perm : (c.seats.map target).Perm c.seats) : (g.exchange c target).Conserved c := by
  have gave : ∀ i ∈ c.seats, ∃ tiles : List Nat, (∀ t, g.gave i t = tiles.count t) ∧
      (∀ t, (tiles.count t : Int) ≤ g.hand i t) ∧ totalCount (g.gave i) = tiles.length ∧
      ∃ huan, c.huan = some huan ∧ tiles.length = huan.count := by
    intro i seated
    obtain ⟨tiles, given⟩ := Option.isSome_iff_exists.1 (ready i seated)
    obtain ⟨held, huan⟩ := h.given start i tiles given
    have gave : ∀ t, g.gave i t = tiles.count t := fun t => by rw [Game.gave, given]; rfl
    refine ⟨tiles, gave, held, ?_, huan⟩
    rw [show g.gave i = fun t => (tiles.count t : Int) from funext gave]
    refine totalCount_count fun t mem => h.stock.in_range seated ?_
    have copies := List.count_pos_iff.2 mem
    have enough := held t
    omega
  have sent : ∀ t, ∑ j ∈ c.seats.toFinset,
      ((c.seats.filter fun i => target i = j).map fun i => g.gave i t).sum =
        ∑ j ∈ c.seats.toFinset, g.gave j t := by
    intro t
    rw [sum_targets c.seats (fun i seated => List.mem_toFinset.2 (perm.mem_iff.1
      (List.mem_map_of_mem seated))), List.sum_toFinset _ c.seats_nodup]
  refine ⟨⟨fun i t => ?_, fun t => ?_⟩, fun i seated => ?_, nofun, nofun⟩
  · have old := h.stock.nonneg i t
    have arrives : 0 ≤ ((c.seats.filter fun j => target j = i).map fun j => g.gave j t).sum := by
      refine List.sum_nonneg fun n mem => ?_
      obtain ⟨j, -, rfl⟩ := List.mem_map.1 mem
      exact Int.natCast_nonneg _
    simp only [Game.exchange]
    split
    · rename_i seated
      obtain ⟨tiles, same, held, -⟩ := gave i seated
      have enough := held t
      rw [same]
      omega
    · omega
  · have deck := h.stock.deck t
    have moved : ∑ i ∈ c.seats.toFinset, (g.exchange c target).held i t =
        ∑ i ∈ c.seats.toFinset, (g.held i t - g.gave i t +
          ((c.seats.filter fun j => target j = i).map fun j => g.gave j t).sum) := by
      refine Finset.sum_congr rfl fun i mem => ?_
      simp only [held, laid, Game.exchange, if_pos (List.mem_toFinset.1 mem)]
      omega
    rw [Finset.sum_add_distrib, Finset.sum_sub_distrib, sent] at moved
    rw [total, moved]
    simp only [Game.exchange]
    rw [total] at deck
    omega
  · obtain ⟨tiles, -, -, size, huan, conf, length⟩ := gave i seated
    obtain ⟨j, sender, only⟩ := sender_unique perm seated
    obtain ⟨tiles', -, -, size', huan', conf', length'⟩ := gave j sender
    rw [conf] at conf'
    cases conf'
    have hand : (g.exchange c target).hand i = fun t => g.hand i t - g.gave i t + g.gave j t := by
      funext t
      simp only [Game.exchange, if_pos seated, only, List.map_singleton, List.sum_singleton]
    have old := h.size i seated
    have extra : (g.exchange c target).extra i = g.extra i :=
      extra_congr (by rfl) (by rfl) (by rw [start]; rfl) i
    rw [hand, totalCount_add, totalCount_sub, size, size', extra]
    simp only [Game.exchange]
    omega

end Game

/-! ### Runs -/

/-- Every move keeps the tiles. -/
theorem Move.conserved (h : g.Conserved c) (now : TurnOk c g) (move : Move c Game.Honest win g g') :
    g'.Conserved c := by
  have turn : ∀ {phase : Phase}, g.phase = phase → phase ≠ .over → InTurn c g :=
    fun here not_over => now (by rw [here]; exact not_over)
  cases move with
  | give phase seated none held size honest =>
      rename_i chair tiles
      refine ⟨⟨h.stock.nonneg, h.stock.deck⟩, h.size, fun start i tiles' given => ?_,
        fun t one => ?_⟩
      · by_cases here : i = chair
        · subst here
          simp only [Game.give, alter_self, Option.some.injEq] at given
          subst given
          exact ⟨honest phase none, size⟩
        · simp only [Game.give, alter_of_ne here] at given
          exact h.given start i tiles' given
      · exact h.drawn t one
  | exchange phase ready perm => exact h.exchange phase ready perm
  | look phase drawn =>
      refine h.same rfl rfl rfl rfl rfl
        (fun i _ => Game.extra_congr (by rfl) (by rfl) (by rw [phase]; rfl) i) (by simp) fun t one => ?_
      · cases one with
        | inl act => cases act; exact drawn t rfl
        | inr rob => cases rob
  | discard phase some =>
      refine h.discard (turn phase (by simp)) (by rw [phase]; rfl) ?_
      exact (h.stock.nonneg _ _).lt_of_ne (Ne.symm some)
  | unclaimed phase next =>
      refine h.same rfl rfl rfl rfl rfl (fun i _ => ?_) (by simp) (by simp)
      rw [Game.extra_of_not_acting rfl, Game.extra_of_not_acting (by rw [phase]; rfl)]
      rfl
  | peng phase free top two =>
      refine h.claimed (turn phase (by simp)) phase free top (by decide) two (fun t => ?_) rfl
        (by simp [Game.peng]) (fun _ => by simp [Game.peng]) rfl
      rw [Section.copies]
      simp [isSectionGang, eq_comm]
  | mingGang phase free top three =>
      refine h.claimed (turn phase (by simp)) phase free top (n := 3) (by decide) three.ge (fun t => ?_)
        rfl (by simp [Game.mingGang]) (fun _ => by simp [Game.mingGang]) rfl
      rw [Section.copies]
      simp [isSectionGang, eq_comm]
  | claimWins phase _ nodup free top after =>
      exact h.claimWins (turn phase (by simp)) phase nodup free top after
  | drawTile phase wall => exact h.drawTile (turn phase (by simp)) phase wall
  | exhausted phase _ =>
      refine h.same rfl rfl rfl rfl rfl (fun i _ => ?_) (by simp) (by simp)
      rw [Game.extra_of_not_acting rfl, Game.extra_of_not_acting (by rw [phase]; rfl)]
      rfl
  | anGang phase four => exact h.anGang (turn phase (by simp)) (by rw [phase]; rfl) four
  | baGang phase held found =>
      refine h.baGang (turn phase (by simp)) (by rw [phase]; rfl) ?_ found
      exact held.elim id fun drawn => h.drawn _ (.inl (phase.trans (congrArg _ drawn)))
  | declare phase held =>
      refine h.same rfl rfl rfl rfl rfl
        (fun i _ => Game.extra_congr (by rfl) (by rfl) (by rw [phase]; rfl) i) (by simp) fun t one => ?_
      · cases one with
        | inl act => cases act
        | inr rob =>
            cases rob
            exact held.elim id fun drawn => h.drawn _ (.inl (phase.trans (congrArg _ drawn)))
  | unrobbed phase found =>
      exact h.baGang (turn phase (by simp)) (by rw [phase]; rfl) (h.drawn _ (.inr phase)) found
  | robWins phase _ nodup free _ after => exact h.robWins (turn phase (by simp)) phase nodup free after
  | selfDraw phase drawn after =>
      exact h.selfDraw (turn phase (by simp)) (by rw [phase]; rfl) drawn after

theorem Dealt.conserved (dealt : Dealt c g) : g.Conserved c := by
  have acting : g.phase.acting = true := by
    cases dealt.phase with
    | inl start => rw [start]; rfl
    | inr act => rw [act]; rfl
  refine ⟨⟨dealt.nonneg, fun t => ?_⟩, fun i seated => ?_, fun _ i tiles given => ?_,
    fun t one => ?_⟩
  · have held : ∀ i, g.held i t = g.hand i t := by
      intro i
      simp [Game.held, Game.laid, dealt.melds, dealt.desk]
    rw [Game.total, Finset.sum_congr rfl fun i _ => held i, dealt.taken]
    simpa using dealt.deck t
  · have size := dealt.size i seated
    rw [dealt.melds]
    by_cases here : i = g.turn
    · subst here
      rw [Game.extra_turn (dealt.won _) acting]
      rw [if_pos dealt.turn] at size
      simpa using size
    · rw [Game.extra_of_ne here, Game.kept_of_none (dealt.won i)]
      rw [dealt.turn] at here
      rw [if_neg here] at size
      simpa using size
  · rw [dealt.given] at given
    cases given
  · cases dealt.phase with
    | inl start => rw [start] at one; simp at one
    | inr act => rw [act] at one; simp at one

/-- In every state of a round in which nobody gives away tiles that it does not hold, no hand has
less than no tile, the deck is in the hands, the melds, the discards, the tiles taken by winners and
the wall, and a player has the tiles it was dealt, three of them in each meld, and one more while it
is on turn and when it has won with a tile of its own. -/
theorem tiles_conserved (reached : Round c Game.Honest s) :
    (∀ i t, 0 ≤ (s.player i).pai.shouPai t) ∧
      (∀ t, ∑ i ∈ c.seats.toFinset, ((s.player i).pai.shouPai t +
            ((s.player i).pai.mingPai.map fun sec => sec.copies t).sum +
            (s.player i).pai.deskTiles.count t) + s.dealer.wall.count t + s.taken.count t =
          c.tiles.count t) ∧
      ∀ i ∈ c.seats, totalCount (s.player i).pai.shouPai +
          3 * ((s.player i).pai.mingPai.length : Int) = c.gameTileCount +
          if i = s.chuPaiPlayerIndex ∧ (s.player i).hu.isNone ∧ (phaseOf s).acting then 1
          else if (s.player i).hu.any fun hu => hu.ziMo ≠ some false then 1 else 0 := by
  obtain ⟨⟨-, kept⟩, -⟩ := @Round.keeps _ _ _ (fun g => TurnOk c g ∧ g.Conserved c)
    (fun _ dealt => ⟨dealt.turnOk, dealt.conserved⟩)
    (fun _ _ _ inv move => ⟨move.turnOk inv.1, move.conserved inv.2 inv.1⟩) reached
  refine ⟨kept.stock.nonneg, kept.stock.deck, fun i seated => (kept.size i seated).trans ?_⟩
  congr 1
  have won : ((abs s).won i).isNone = (s.player i).hu.isNone := Option.isNone_map
  have drawn : ((abs s).won i).any Win.drawn =
      (s.player i).hu.any fun hu => hu.ziMo ≠ some false := by
    show ((s.player i).hu.map Hu.toWin).any Win.drawn = _
    cases (s.player i).hu <;> rfl
  rw [Game.extra, won, Game.kept, drawn]
  rfl

theorem claimed_tiles_conserved : ∃ s, Round fourPlayers Game.Honest s ∧
    (s.player 3).pai.mingPai.map Section.tile = [25] ∧ ∀ t, ∑ i ∈ fourPlayers.seats.toFinset,
      ((s.player i).pai.shouPai t + ((s.player i).pai.mingPai.map fun sec => sec.copies t).sum +
        (s.player i).pai.deskTiles.count t) + s.dealer.wall.count t + s.taken.count t =
      fourPlayers.tiles.count t := by
  have fair : ∀ s, ∀ r ∈ firstWin, StepOk Game.Honest s r := by
    refine fun s r inside => ⟨fun tiles same => ?_, fun _ _ _ => trivial⟩
    simp only [firstWin, List.mem_cons, List.not_mem_nil, or_false] at inside
    rcases inside with rfl | rfl | rfl <;> cases same
  obtain ⟨s, reached, -, -, claimed⟩ := first_win_reached fair
  exact ⟨s, reached, claimed, (tiles_conserved reached).2.1⟩

end FkServer.MaajanXuezhan
