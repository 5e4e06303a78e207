import FkServer.MaajanXuezhan.Deal

/-!
What a win by several players leaves behind: the winners have consecutive times, in
the order in which they are written down, and nobody else has won.
-/
namespace FkServer.MaajanXuezhan

variable {c : Conf}

namespace Game

/-! ### Winners one after another -/

/-- One more winner of a tile that `whoee` has lost. -/
def Writes (whoee : Option Nat) (write : Game → Nat → Game) : Prop :=
  ∀ g chair, write g chair =
    { g with
      won := alter g.won chair fun _ => some ⟨g.clock, some false, whoee⟩
      melds := (write g chair).melds
      clock := g.clock + 1 }

section Writes

variable {whoee : Option Nat} {write : Game → Nat → Game} {winners : List Nat}

/-- Only winners and melds change. -/
theorem Writes.foldl (writes : Writes whoee write) (g : Game) :
    winners.foldl write g =
      { g with
        won := (winners.foldl write g).won
        melds := (winners.foldl write g).melds
        clock := g.clock + winners.length } := by
  induction winners generalizing g with
  | nil => rfl
  | cons chair winners ih =>
      rw [List.foldl_cons, ih, writes]
      simp only [List.length_cons, Nat.add_assoc, Nat.add_comm 1]

theorem Writes.won (writes : Writes whoee write) (g : Game) (chair : Nat) :
    (write g chair).won = alter g.won chair fun _ => some ⟨g.clock, some false, whoee⟩ := by
  rw [writes]

theorem Writes.clock (writes : Writes whoee write) (g : Game) (chair : Nat) :
    (write g chair).clock = g.clock + 1 := by
  rw [writes]

theorem Writes.won_of_not_mem (writes : Writes whoee write) (g : Game) {i : Nat}
    (other : i ∉ winners) : (winners.foldl write g).won i = g.won i := by
  induction winners generalizing g with
  | nil => rfl
  | cons chair winners ih =>
      rw [List.mem_cons, not_or] at other
      rw [List.foldl_cons, ih _ other.2, writes.won, alter_of_ne other.1]

theorem Writes.won_of_mem (writes : Writes whoee write) (g : Game) {i : Nat}
    (nodup : winners.Nodup) (winner : i ∈ winners) :
    ∃ k, k < winners.length ∧
      (winners.foldl write g).won i = some ⟨g.clock + k, some false, whoee⟩ := by
  induction winners generalizing g with
  | nil => cases winner
  | cons chair winners ih =>
      obtain ⟨fresh, nodup⟩ := List.nodup_cons.1 nodup
      rw [List.foldl_cons]
      cases List.mem_cons.1 winner with
      | inl here =>
          subst here
          refine ⟨0, Nat.succ_pos _, ?_⟩
          rw [writes.won_of_not_mem _ fresh, writes.won, alter_self]
          rfl
      | inr later =>
          obtain ⟨k, within, won⟩ := ih (write g chair) nodup later
          refine ⟨k + 1, Nat.succ_lt_succ within, ?_⟩
          rw [won, writes.clock, Nat.add_assoc, Nat.add_comm 1 k]

end Writes

/-- The winners of one tile, and everything else as it was. -/
structure Won (g : Game) (winners : List Nat) (tile : Nat) (g' : Game) : Prop where
  given : g'.given = g.given
  wall : g'.wall = g.wall
  taken : g'.taken = tile :: g.taken
  turn : g'.turn = g.turn
  phase : g'.phase = g.phase
  clock : g'.clock = g.clock + winners.length
  others : ∀ i, i ∉ winners → g'.won i = g.won i
  winners : winners.Nodup → ∀ i ∈ winners, ∃ k, k < winners.length ∧
    g'.won i = some ⟨g.clock + k, some false, some g.turn⟩

theorem writes_mark (gang : Option Nat) (whoee : Option Nat) :
    Writes whoee fun g chair => (g.winOne (some false) whoee chair).mark gang chair :=
  fun _ _ => rfl

theorem writes_winOne (whoee : Option Nat) :
    Writes whoee fun g chair => g.winOne (some false) whoee chair :=
  fun _ _ => rfl

theorem claimWins_won (c : Conf) (g : Game) (gang : Option Nat) (winners : List Nat) (tile : Nat) :
    Won g winners tile (g.claimWins c gang winners tile) := by
  have writes := writes_mark gang (some g.turn)
  unfold claimWins popDesk
  dsimp only
  refine ⟨?_, ?_, ?_, ?_, ?_, ?_, fun i other => writes.won_of_not_mem _ other,
    fun nodup i winner => writes.won_of_mem _ nodup winner⟩ <;> rw [writes.foldl]

theorem claimWins_hand (c : Conf) (g : Game) (gang : Option Nat) (winners : List Nat) (tile : Nat) :
    (g.claimWins c gang winners tile).hand = g.hand := by
  unfold claimWins popDesk
  dsimp only
  rw [(writes_mark gang (some g.turn)).foldl]

/-- A winner of the discard may be credited with the gang before it. -/
theorem claimWins_melds (c : Conf) (g : Game) (gang : Option Nat) (winners : List Nat)
    (tile i : Nat) :
    ∃ credit : Section → Section, (g.claimWins c gang winners tile).melds i =
        (g.melds i).map credit ∧
      ∀ sec, credit sec = sec ∨
        ∃ who ∈ winners, isSectionGang sec.type ∧ credit sec = { sec with dianPao := some who } := by
  have fold : ∀ (winners : List Nat) (g₁ : Game),
      ∃ credit : Section → Section,
        (winners.foldl (fun g' chair =>
          (g'.winOne (some false) (some g.turn) chair).mark gang chair) g₁).melds i =
            (g₁.melds i).map credit ∧
        ∀ sec, credit sec = sec ∨
          ∃ who ∈ winners, isSectionGang sec.type ∧ credit sec = { sec with dianPao := some who } := by
    intro winners
    induction winners with
    | nil => exact fun g₁ => ⟨id, (List.map_id _).symm, fun _ => .inl rfl⟩
    | cons chair winners ih =>
        intro g₁
        rw [List.foldl_cons]
        obtain ⟨credit, melds, either⟩ :=
          ih ((g₁.winOne (some false) (some g.turn) chair).mark gang chair)
        by_cases here : i = g₁.turn
        · refine ⟨fun sec => credit (if some sec.tile = gang ∧ isSectionGang sec.type then
              { sec with dianPao := some chair } else sec), ?_, ?_⟩
          · rw [melds, mark]
            dsimp only [winOne]
            rw [here, alter_self, List.map_map]
            rfl
          · intro sec
            dsimp only
            split
            · rename_i credited
              cases either { sec with dianPao := some chair } with
              | inl same => exact .inr ⟨chair, .head _, credited.2, same⟩
              | inr other =>
                  obtain ⟨who, winner, is_gang, same⟩ := other
                  exact .inr ⟨who, .tail _ winner, is_gang, same⟩
            · cases either sec with
              | inl same => exact .inl same
              | inr other =>
                  obtain ⟨who, winner, is_gang, same⟩ := other
                  exact .inr ⟨who, .tail _ winner, is_gang, same⟩
        · refine ⟨credit, ?_, ?_⟩
          · rw [melds, mark]
            dsimp only [winOne]
            rw [alter_of_ne here]
          · intro sec
            cases either sec with
            | inl same => exact .inl same
            | inr other =>
                obtain ⟨who, winner, is_gang, same⟩ := other
                exact .inr ⟨who, .tail _ winner, is_gang, same⟩
  exact fold winners _

theorem robWins_won (c : Conf) (g : Game) (winners : List Nat) (offered tile : Nat) :
    Won g winners tile (g.robWins c winners offered tile) := by
  have writes := writes_winOne (some g.turn)
  unfold robWins takeRobbed
  dsimp only
  refine ⟨?_, ?_, ?_, ?_, ?_, ?_, fun i other => writes.won_of_not_mem _ other,
    fun nodup i winner => writes.won_of_mem _ nodup winner⟩ <;> rw [writes.foldl]

theorem foldl_melds (whoee : Option Nat) (winners : List Nat) (g : Game) :
    (winners.foldl (fun g' chair => g'.winOne (some false) whoee chair) g).melds = g.melds := by
  induction winners generalizing g with
  | nil => rfl
  | cons chair winners ih => exact ih (g.winOne (some false) whoee chair)

/-- The rest of a robbed hand is as it was, and so is everything on the table. -/
theorem robWins_rest (c : Conf) (g : Game) (winners : List Nat) (offered tile : Nat) :
    (g.robWins c winners offered tile).hand =
        (alter g.hand g.turn fun counts => decr counts tile 1) ∧
      (g.robWins c winners offered tile).melds = g.melds ∧
      (g.robWins c winners offered tile).desk = g.desk ∧
      (g.robWins c winners offered tile).multi =
        alter g.multi g.turn fun _ => decide (g.winCount c = 0 ∧ 1 < offered) := by
  unfold robWins takeRobbed
  dsimp only
  refine ⟨?_, ?_, ?_, ?_⟩
  · rw [(writes_winOne (some g.turn)).foldl]
  · exact foldl_melds _ _ _
  · rw [(writes_winOne (some g.turn)).foldl]
  · rw [(writes_winOne (some g.turn)).foldl]

/-! ### The end of a win -/

/-- Only the turn and the phase change. -/
theorem AfterWin.same {g g' : Game} {from_ : Nat} (h : AfterWin c g from_ g') :
    g' = { g with turn := g'.turn, phase := g'.phase } := by
  cases h <;> rfl

theorem nextSeat_eq_some {g : Game} {from_ chair : Nat} (h : g.nextSeat c from_ = some chair) :
    chair ∈ c.seats ∧ g.won chair = none := by
  obtain ⟨_, _, _, stops, _⟩ := Rotation.seek_eq_some h
  simpa using stops

/-- From every place the search finds somebody while one player is left. -/
theorem nextSeat_isSome {g : Game} {from_ chair : Nat} (place : from_ ∈ Rotation.places c.chairCount)
    (seated : chair ∈ c.seats) (playing : g.won chair = none) :
    ∃ found, g.nextSeat c from_ = some found := by
  obtain ⟨k, within, there⟩ := Rotation.forward_reaches place (c.seats_places seated)
  apply Rotation.seek_isSome within
  rw [there, playing]
  simp [seated]

end Game

end FkServer.MaajanXuezhan
