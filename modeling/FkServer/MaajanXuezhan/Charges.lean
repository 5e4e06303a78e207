import FkServer.MaajanXuezhan.Conservation
import Mathlib.Algebra.Order.Group.Int

/-!
Who is charged in the end: whoever shot a win or gave the tile of a gang was in the game then and
had not won before. The game does not know why a self-drawn win is charged to one player, which
the table takes from the last action of the winner; that is followed through the handlers.
-/
namespace FkServer.MaajanXuezhan

variable {c : Conf} {ok : Guard} {wins : Bool} {g g' : Game} {s s' : State}

namespace Game

/-- A player is named who is seated and had not won by then. -/
def Charged (c : Conf) (g : Game) (time : Nat) (whoee : Option Nat) : Prop :=
  ∃ who ∈ c.seats, whoee = some who ∧ ∀ own, g.won who = some own → time ≤ own.time

/-- Time goes on, winners stay, and new wins are later than what was before. -/
def Later (g g' : Game) : Prop :=
  g.clock ≤ g'.clock ∧ ∀ i, g'.won i = g.won i ∨
    g.won i = none ∧ ∀ w, g'.won i = some w → g.clock ≤ w.time ∧ w.time < g'.clock

theorem Later.of_won (clock : g.clock ≤ g'.clock) (won : g'.won = g.won) : Later g g' :=
  ⟨clock, fun i => .inl (by rw [won])⟩

theorem Charged.later {time : Nat} {whoee : Option Nat} (h : g.Charged c time whoee)
    (later : Later g g') (past : time ≤ g.clock) : g'.Charged c time whoee := by
  obtain ⟨who, seated, same, before⟩ := h
  refine ⟨who, seated, same, fun own won => ?_⟩
  obtain old | ⟨-, new⟩ := later.2 who
  · exact before own (old ▸ won)
  · exact past.trans (new own won).1

/-- What is written down on a meld. -/
structure Booked (c : Conf) (g : Game) (sec : Section) : Prop where
  laid : sec.laid < g.clock
  giver : sec.type = .mingGang → g.Charged c sec.laid sec.whoee
  timed : sec.type = .anGang ∨ sec.type = .baGang → sec.time = some sec.laid
  transferred : ∀ who, sec.dianPao = some who → who ∈ c.seats

theorem Booked.later {sec : Section} (h : g.Booked c sec) (later : Later g g') :
    g'.Booked c sec where
  laid := h.laid.trans_le later.1
  giver gang := (h.giver gang).later later h.laid.le
  timed := h.timed
  transferred := h.transferred

/-- What the game has written down when the settlement reads it. -/
structure Books (c : Conf) (g : Game) : Prop where
  time : ∀ i w, g.won i = some w → w.time < g.clock
  shot : ∀ i w, g.won i = some w → w.ziMo = some false → g.Charged c w.time w.whoee
  melds : ∀ i, ∀ sec ∈ g.melds i, g.Booked c sec

/-- Nobody wins; the melds may be new. -/
theorem Books.later (h : g.Books c) (clock : g.clock ≤ g'.clock) (won : g'.won = g.won)
    (melds : ∀ i, ∀ sec ∈ g'.melds i, sec ∈ g.melds i ∨ g'.Booked c sec) : g'.Books c := by
  have later := Later.of_won clock won
  refine ⟨fun i w here => ?_, fun i w here shot => ?_, fun i sec mem => ?_⟩
  · rw [won] at here
    exact (h.time i w here).trans_le clock
  · rw [won] at here
    exact (h.shot i w here shot).later later (h.time i w here).le
  · exact (melds i sec mem).elim (fun old => (h.melds i sec old).later later) id

/-- Somebody wins, and the melds may be credited to winners. -/
theorem Books.win (h : g.Books c) (later : Later g g')
    (shot : ∀ i w, g.won i = none → g'.won i = some w → w.ziMo = some false →
      g'.Charged c w.time w.whoee)
    (melds : ∀ i, ∀ sec ∈ g'.melds i, ∃ old ∈ g.melds i, sec = old ∨
      ∃ who ∈ c.seats, sec = { old with dianPao := some who }) : g'.Books c := by
  refine ⟨fun i w here => ?_, fun i w here gave => ?_, fun i sec mem => ?_⟩
  · obtain old | ⟨-, new⟩ := later.2 i
    · exact (h.time i w (old ▸ here)).trans_le later.1
    · exact (new w here).2
  · obtain old | ⟨playing, -⟩ := later.2 i
    · exact (h.shot i w (old ▸ here) gave).later later (h.time i w (old ▸ here)).le
    · exact shot i w playing here gave
  · obtain ⟨old, mem_old, same⟩ := melds i sec mem
    have booked := (h.melds i old mem_old).later later
    obtain rfl | ⟨who, seated, rfl⟩ := same
    · exact booked
    · refine ⟨booked.laid, booked.giver, booked.timed, fun other credited => ?_⟩
      cases credited
      exact seated

theorem Won.later {winners : List Nat} {tile : Nat} (won : Won g winners tile g')
    (nodup : winners.Nodup) (free : ∀ chair ∈ winners, g.Free c chair) : Later g g' := by
  refine ⟨by rw [won.clock]; exact Nat.le_add_right _ _, fun i => ?_⟩
  by_cases winner : i ∈ winners
  · obtain ⟨k, within, here⟩ := won.winners nodup i winner
    refine .inr ⟨(free i winner).2.2, fun w same => ?_⟩
    rw [here] at same
    cases same
    rw [won.clock]
    exact ⟨Nat.le_add_right _ _, Nat.add_lt_add_left within _⟩
  · exact .inl (won.others i winner)

/-- Who is on turn shoots the wins of others. -/
theorem Won.charged {winners : List Nat} {tile : Nat} (won : Won g winners tile g')
    (now : InTurn c g) (nodup : winners.Nodup) (free : ∀ chair ∈ winners, g.Free c chair) {i : Nat}
    {w : Win} (playing : g.won i = none) (here : g'.won i = some w) :
    g'.Charged c w.time w.whoee := by
  have winner : i ∈ winners := by
    by_contra other
    rw [won.others i other, playing] at here
    cases here
  obtain ⟨k, -, same⟩ := won.winners nodup i winner
  rw [same] at here
  cases here
  refine ⟨g.turn, now.seated, rfl, fun own lost => ?_⟩
  rw [won.others g.turn fun mem => (free g.turn mem).2.1 rfl, now.playing] at lost
  cases lost

theorem AfterWin.books {from_ : Nat} (after : AfterWin c g from_ g') (h : g.Books c) :
    g'.Books c := by
  rw [after.same]
  exact ⟨h.time, h.shot, fun i sec mem => (h.melds i sec mem).later ⟨le_rfl, fun _ => .inl rfl⟩⟩

/-- A meld that is laid now, by or from the player on turn. -/
theorem Booked.new (now : InTurn c g) {sec : Section} (laid : sec.laid = g.clock)
    (clock : g'.clock = g.clock + 1) (won : g'.won = g.won)
    (giver : sec.type = .mingGang → sec.whoee = some g.turn)
    (timed : sec.type = .anGang ∨ sec.type = .baGang → sec.time = some g.clock)
    (fresh : sec.dianPao = none) : g'.Booked c sec where
  laid := by omega
  giver gang := ⟨g.turn, now.seated, giver gang, fun own lost => by
    rw [won, now.playing] at lost
    cases lost⟩
  timed kind := by rw [timed kind, laid]
  transferred who credited := by
    rw [fresh] at credited
    cases credited

/-- A player gets a meld. -/
theorem Books.lay (h : g.Books c) {chair : Nat} {sec : Section} {f : List Section → List Section}
    (melds : g'.melds = alter g.melds chair f)
    (mine : ∀ old ∈ f (g.melds chair), old ∈ g.melds chair ∨ old = sec)
    (clock : g'.clock = g.clock + 1) (won : g'.won = g.won) (new : g'.Booked c sec) : g'.Books c := by
  refine h.later (by omega) won fun i old mem => ?_
  rw [melds] at mem
  by_cases here : i = chair
  · subst here
    rw [alter_self] at mem
    refine (mine old mem).imp id fun same => ?_
    rw [same]
    exact new
  · rw [alter_of_ne here] at mem
    exact .inl mem

theorem winOne_later (now : InTurn c g) (ziMo : Option Bool) (whoee : Option Nat) :
    Later g (g.winOne ziMo whoee g.turn) := by
  refine ⟨Nat.le_succ _, fun i => ?_⟩
  by_cases here : i = g.turn
  · subst here
    refine .inr ⟨now.playing, fun w won => ?_⟩
    simp only [winOne, alter_self, Option.some.injEq] at won
    subst won
    exact ⟨le_rfl, Nat.lt_succ_self _⟩
  · refine .inl ?_
    simp only [winOne]
    exact alter_of_ne here

theorem mem_snoc {secs : List Section} {sec old : Section} (mem : old ∈ secs ++ [sec]) :
    old ∈ secs ∨ old = sec := (List.mem_append.1 mem).imp id List.mem_singleton.1

end Game

theorem Move.books (h : g.Books c) (ok_g : TurnOk c g) (move : Move c ok wins g g') :
    g'.Books c := by
  have turn : ∀ {phase : Phase}, g.phase = phase → phase ≠ .over → InTurn c g :=
    fun here not_over => ok_g (by rw [here]; exact not_over)
  have same : ∀ {g' : Game}, g'.clock = g.clock → g'.won = g.won → g'.melds = g.melds →
      g'.Books c := fun clock won melds =>
    h.later clock.ge won fun i sec mem => .inl (melds ▸ mem)
  have baGang : ∀ (tile : Nat) (old : Section), InTurn c g → (g.baGang tile old).Books c := by
    intro tile old now
    have melds : (g.baGang tile old).melds = alter g.melds g.turn fun secs =>
      secs.eraseP (Section.isPeng tile) ++
        [⟨.baGang, tile, old.whoee, some g.clock, none, g.clock⟩] := rfl
    exact h.lay melds (fun _ mem => (Game.mem_snoc mem).imp List.mem_of_mem_eraseP id) rfl rfl
      (.new now rfl rfl rfl nofun (fun _ => rfl) rfl)
  cases move with
  | give | exchange | look | discard | unclaimed | drawTile | exhausted | declare =>
      exact same rfl rfl rfl
  | peng phase free top two =>
      rename_i chair tile
      have melds : (g.peng chair tile).melds = alter g.melds chair fun secs =>
        secs ++ [⟨.peng, tile, some g.turn, none, none, g.clock⟩] := rfl
      exact h.lay melds (fun _ => Game.mem_snoc) rfl rfl
        (.new (turn phase nofun) rfl rfl rfl nofun (fun kind => by simp at kind) rfl)
  | mingGang phase free top three =>
      rename_i chair tile
      have melds : (g.mingGang chair tile).melds = alter g.melds chair fun secs =>
        secs ++ [⟨.mingGang, tile, some g.turn, none, none, g.clock⟩] := rfl
      exact h.lay melds (fun _ => Game.mem_snoc) rfl rfl
        (.new (turn phase nofun) rfl rfl rfl (fun _ => rfl) (fun kind => by simp at kind) rfl)
  | anGang phase four =>
      rename_i drawn tile
      have melds : (g.anGang tile).melds = alter g.melds g.turn fun secs =>
        secs ++ [⟨.anGang, tile, none, some g.clock, none, g.clock⟩] := rfl
      exact h.lay melds (fun _ => Game.mem_snoc) rfl rfl
        (.new (turn phase nofun) rfl rfl rfl nofun (fun _ => rfl) rfl)
  | baGang phase | unrobbed phase => exact baGang _ _ (turn phase nofun)
  | claimWins phase some nodup free top after =>
      rename_i winners tile gang
      have won := Game.claimWins_won c g gang winners tile
      refine after.books (h.win (won.later nodup free)
        (fun i w playing here _ => won.charged (turn phase nofun) nodup free playing here)
        fun i sec mem => ?_)
      obtain ⟨credit, melds, either⟩ := g.claimWins_melds c gang winners tile i
      rw [melds] at mem
      obtain ⟨old, mem_old, rfl⟩ := List.mem_map.1 mem
      refine ⟨old, mem_old, (either old).imp id ?_⟩
      rintro ⟨who, winner, -, same⟩
      exact ⟨who, (free who winner).1, same⟩
  | robWins phase some nodup free asked after =>
      rename_i winners offered from_ tile
      have won := Game.robWins_won c g winners offered tile
      refine after.books (h.win (won.later nodup free)
        (fun i w playing here _ => won.charged (turn phase nofun) nodup free playing here)
        fun i sec mem => ?_)
      rw [(g.robWins_rest c winners offered tile).2.1] at mem
      exact ⟨sec, mem, .inl rfl⟩
  | selfDraw phase drawn after =>
      rename_i drawn' whoee ziMo
      have others : ∀ i, i ≠ g.turn → (g.winOne ziMo whoee g.turn).won i = g.won i := by
        intro i other
        simp only [Game.winOne]
        exact alter_of_ne other
      have now := turn phase nofun
      refine after.books (h.win (Game.winOne_later now ziMo whoee) (fun i w playing here shot => ?_)
        fun i sec mem => ⟨sec, mem, .inl rfl⟩)
      by_cases own : i = g.turn
      · subst own
        simp only [Game.winOne, alter_self, Option.some.injEq] at here
        subst here
        exact absurd shot drawn
      · rw [others i own, playing] at here
        cases here

theorem Dealt.books (dealt : Dealt c g) : g.Books c where
  time i w won := by
    rw [dealt.won] at won
    cases won
  shot i w won := by
    rw [dealt.won] at won
    cases won
  melds i sec mem := by
    rw [dealt.melds] at mem
    cases mem

theorem Game.Later.trans {g₁ g₂ g₃ : Game} (h : Later g₁ g₂) (h' : Later g₂ g₃) : Later g₁ g₃ := by
  refine ⟨h.1.trans h'.1, fun i => ?_⟩
  obtain same' | ⟨playing', new'⟩ := h'.2 i
  · rw [same']
    refine (h.2 i).imp id fun ⟨playing, new⟩ => ⟨playing, fun w won => ?_⟩
    exact ⟨(new w won).1, (new w won).2.trans_le h'.1⟩
  · refine .inr ⟨?_, fun w won => ⟨h.1.trans (new' w won).1, (new' w won).2⟩⟩
    obtain same | ⟨playing, -⟩ := h.2 i
    · rw [← same, playing']
    · exact playing

theorem Move.later (ok_g : TurnOk c g) (move : Move c ok wins g g') : Game.Later g g' := by
  have after : ∀ {g₁ : Game} {from_ : Nat}, Game.Later g g₁ → Game.AfterWin c g₁ from_ g' →
      Game.Later g g' := by
    intro g₁ from_ later after
    rw [after.same]
    exact later
  cases move with
  | claimWins _ _ nodup free _ ended =>
      exact after ((Game.claimWins_won c g _ _ _).later nodup free) ended
  | robWins _ _ nodup free _ ended =>
      exact after ((Game.robWins_won c g _ _ _).later nodup free) ended
  | selfDraw phase _ ended => exact after (Game.winOne_later (ok_g (by rw [phase]; nofun)) _ _) ended
  | peng | mingGang | anGang | baGang | unrobbed => exact .of_won (Nat.le_succ _) rfl
  | _ => exact .of_won le_rfl rfl

theorem Burst.later (now : TurnOk c g) (burst : Burst c ok g g') : Game.Later g g' := by
  have kept := @Burst.keep c ok (fun x => TurnOk c x ∧ Game.Later g x)
    (fun _ _ _ inv move => ⟨move.turnOk inv.1, inv.2.trans (move.later inv.1)⟩) g g'
    ⟨now, .of_won le_rfl rfl⟩ burst
  exact kept.2

/-- From a claim or a robbed gang nobody wins with a tile of its own. -/
theorem Burst.shot {tile : Nat} (phase : g.phase = .claim ∨ g.phase = .rob tile)
    (burst : Burst c ok g g') {i : Nat} {w : Win} (won : g'.won i = some w) (drawn : w.ziMo = none) :
    g.won i = some w := by
  have given : ∀ {winners : List Nat} {t : Nat} {g₁ : Game}, Game.Won g winners t g₁ →
      winners.Nodup → g₁.won i = some w → g.won i = some w := by
    intro winners t g₁ all nodup won
    by_cases winner : i ∈ winners
    · obtain ⟨k, -, same⟩ := all.winners nodup i winner
      rw [same] at won
      cases won
      cases drawn
    · rwa [all.others i winner] at won
  cases burst with
  | inl same => rwa [same]
  | inr moves =>
      obtain ⟨win, g₁, first, rest⟩ := moves
      have quiet : g'.won = g₁.won := by
        clear first won
        induction rest with
        | refl => rfl
        | tail _ last ih => exact last.won_of_quiet.trans ih
      rw [quiet] at won
      cases first with
      | claimWins claim somebody nodup free top after =>
          rename_i winners tile gang
          rw [after.same] at won
          exact given (Game.claimWins_won c g gang winners tile) nodup won
      | robWins rob somebody nodup free asked after =>
          rename_i winners offered from_ tile
          rw [after.same] at won
          exact given (Game.robWins_won c g winners offered tile) nodup won
      | selfDraw act => simp [act] at phase
      | _ => exact won

/-! ### The last action -/

/-- The handlers of the table leave melds, wins and last actions alone. -/
structure Kept (s s' : State) : Prop where
  lastAction : ∀ i, (s'.player i).lastAction = (s.player i).lastAction
  mingPai : ∀ i, (s'.player i).pai.mingPai = (s.player i).pai.mingPai
  hu : ∀ i, (s'.player i).hu = (s.player i).hu

theorem Kept.refl (s : State) : Kept s s := ⟨fun _ => rfl, fun _ => rfl, fun _ => rfl⟩

theorem Kept.trans {s₁ s₂ s₃ : State} (h : Kept s₁ s₂) (h' : Kept s₂ s₃) : Kept s₁ s₃ where
  lastAction i := (h'.lastAction i).trans (h.lastAction i)
  mingPai i := (h'.mingPai i).trans (h.mingPai i)
  hu i := (h'.hu i).trans (h.hu i)

theorem Kept.update {chair : Nat} {f : Player → Player}
    (lastAction : ∀ p, (f p).lastAction = p.lastAction)
    (mingPai : ∀ p, (f p).pai.mingPai = p.pai.mingPai) (hu : ∀ p, (f p).hu = p.hu) :
    Kept s (s.update chair f) := by
  refine ⟨fun i => ?_, fun i => ?_, fun i => ?_⟩ <;> by_cases here : i = chair
  · subst here
    rw [State.update_self, lastAction]
  · rw [State.update_of_ne here]
  · subst here
    rw [State.update_self, mingPai]
  · rw [State.update_of_ne here]
  · subst here
    rw [State.update_self, hu]
  · rw [State.update_of_ne here]

theorem cleanGzh_kept (s : State) (chair : Nat) : Kept s (cleanGzh s chair) :=
  .update (fun _ => rfl) (fun _ => rfl) fun _ => rfl

theorem cleaned_kept (s : State) (chair : Nat) : Kept s (cleanGsp (cleanGzh s chair) chair) :=
  (cleanGzh_kept s chair).trans (.update (fun _ => rfl) (fun _ => rfl) fun _ => rfl)

theorem drawn_kept (s : State) (tile : Nat) (dealer : MaajanTileDealer) :
    Kept s (drawn s tile dealer) := by
  refine (cleaned_kept s s.chuPaiPlayerIndex).trans ⟨fun i => ?_, fun i => ?_, fun i => ?_⟩ <;>
    simp only [drawn, onMoPai, State.update, alter, Player.withShouPai] <;> split <;> rfl

theorem moPai_kept (c : Conf) (s : State) (rnd : Nat) : Kept s (moPai c s rnd) := by
  rw [moPai_eq]
  split
  · have kept := cleaned_kept s s.chuPaiPlayerIndex
    exact ⟨kept.lastAction, kept.mingPai, kept.hu⟩
  · rename_i tile dealer _
    have kept := drawn_kept s tile dealer
    simp only
    split <;> exact ⟨kept.lastAction, kept.mingPai, kept.hu⟩

/-- After an open gang the player who gave its tile is still in the game. -/
def GangDue (c : Conf) (s : State) : Prop :=
  ∀ i tile, (s.player i).lastAction = some (.mingGang, tile) →
    ∃ who ∈ c.seats, gangGiver (s.player i) = some who ∧ (s.player who).hu = none

/-- No last action is an open gang. -/
def NoGang (s : State) : Prop := ∀ i tile, (s.player i).lastAction ≠ some (.mingGang, tile)

theorem NoGang.due (h : NoGang s) : GangDue c s := fun i tile last => absurd last (h i tile)

theorem NoGang.kept (h : NoGang s) (kept : Kept s s') : NoGang s' := by
  intro i tile
  rw [kept.lastAction]
  exact h i tile

theorem GangDue.kept (h : GangDue c s) (kept : Kept s s') : GangDue c s' := by
  intro i tile last
  rw [kept.lastAction] at last
  obtain ⟨who, seated, giver, playing⟩ := h i tile last
  refine ⟨who, seated, ?_, by rw [kept.hu]; exact playing⟩
  rw [← giver, gangGiver, gangGiver, kept.lastAction, kept.mingPai]

theorem noGang_doneLastAction (s : State) (chair : Nat) {action : Option (Action × Nat)}
    (other : ∀ tile, action ≠ some (.mingGang, tile)) : NoGang (doneLastAction s chair action) := by
  intro i tile
  simp only [doneLastAction]
  split
  · exact other tile
  · nofun

theorem noGang_done (s : State) (chair tile : Nat) {action : Action} (other : action ≠ .mingGang) :
    NoGang (doneLastAction s chair (some (action, tile))) := by
  refine noGang_doneLastAction s chair fun t same => ?_
  cases same
  exact other rfl

/-- The scores of the settlement and the next dealer are those of the table that it leaves. -/
def Scored (c : Conf) (s : State) : Prop :=
  ∀ scores zhuang, s.fsm = .over scores zhuang →
    scores = gameBalance c s ∧ zhuang = (dingZhuang c s).getD c.zhuang

theorem Scored.doneLastAction (h : Scored c s) (chair : Nat) (action : Option (Action × Nat)) :
    Scored c (doneLastAction s chair action) := h

theorem scored_doBalance (c : Conf) (s : State) : Scored c (doBalance c s) := by
  intro scores zhuang ended
  cases ended
  exact ⟨rfl, rfl⟩

theorem scored_moPai (c : Conf) (s : State) (rnd : Nat) : Scored c (moPai c s rnd) := by
  rw [moPai_eq]
  split
  · exact scored_doBalance c _
  · simp only
    split <;> exact fun _ _ ended => nomatch ended

theorem afterHu_kept {from_ rnd : Nat} (h : afterHu c s from_ rnd = some s') :
    Scored c s' ∧ (∀ i, (s'.player i).hu = (s.player i).hu) ∧
      ((∀ i, (s'.player i).lastAction = (s.player i).lastAction) ∨ NoGang s') := by
  unfold afterHu at h
  split at h
  · cases h
    exact ⟨scored_doBalance c s, fun _ => rfl, .inl fun _ => rfl⟩
  · obtain ⟨s₁, moved, rfl⟩ := Option.map_eq_some_iff.1 h
    obtain ⟨chair, -, rfl⟩ := Option.map_eq_some_iff.1 moved
    have kept := moPai_kept c { doneLastAction s s.chuPaiPlayerIndex none with
      chuPaiPlayerIndex := chair } rnd
    refine ⟨scored_moPai c _ rnd, fun i => (kept.hu i).trans rfl, .inr (NoGang.kept ?_ kept)⟩
    exact noGang_doneLastAction s _ nofun

/-- What the settlement needs to know of a step. -/
structure Follows (c : Conf) (s s' : State) : Prop where
  gangs : (abs s).Stock c → GangDue c s → GangDue c s'
  scores : Scored c s'
  drawn : ∀ i w, (abs s').won i = some w → w.ziMo = none → (abs s).won i = some w ∨
    ∃ tile, (s.player i).lastAction = some (.mingGang, tile) ∧
      w.whoee = gangGiver (s.player i) ∧ w.time = s.clock

theorem Follows.of_hu (gangs : GangDue c s → GangDue c s') (scores : Scored c s')
    (hu : ∀ i, (s'.player i).hu = (s.player i).hu) : Follows c s s' := by
  refine ⟨fun _ => gangs, scores, fun i w won _ => .inl ?_⟩
  have same : (abs s').won i = (abs s).won i := congrArg (Option.map Hu.toWin) (hu i)
  exact same ▸ won

theorem Follows.of_kept (kept : Kept s s') (scores : Scored c s') : Follows c s s' :=
  .of_hu (fun gangs => gangs.kept kept) scores kept.hu

theorem Follows.refl (scores : Scored c s) : Follows c s s := .of_kept (.refl s) scores

theorem foldl_kept {α : Type} {f : State → α → State} (each : ∀ s a, Kept s (f s a)) (l : List α)
    (s : State) : Kept s (l.foldl f s) := by
  induction l generalizing s with
  | nil => exact .refl s
  | cons a l ih => exact (each s a).trans (ih (f s a))

theorem Scored.of_phase (going_on : phaseOf s ≠ .over) : Scored c s := by
  intro scores zhuang ended
  rw [phaseOf, ended] at going_on
  exact absurd rfl going_on

theorem actionAfterDingQue_kept (c : Conf) (s : State) (rnd : Nat) :
    Kept s (actionAfterDingQue c s rnd) ∧ Scored c (actionAfterDingQue c s rnd) := by
  have kept : Kept s (looked s rnd) := .update (fun _ => rfl) (fun _ => rfl) fun _ => rfl
  rw [actionAfterDingQue_eq]
  dsimp only
  split
  · exact ⟨⟨kept.lastAction, kept.mingPai, kept.hu⟩, .of_phase nofun⟩
  · exact ⟨⟨kept.lastAction, kept.mingPai, kept.hu⟩, .of_phase nofun⟩

theorem dingQue_kept (c : Conf) (s : State) (rnd : Nat) :
    Kept s (dingQue c s rnd) ∧ Scored c (dingQue c s rnd) := by
  unfold dingQue
  split
  · obtain ⟨kept, scores⟩ := actionAfterDingQue_kept c (jumpToPlayerIndex s c.zhuang) rnd
    exact ⟨⟨kept.lastAction, kept.mingPai, kept.hu⟩, scores⟩
  · exact ⟨⟨fun _ => rfl, fun _ => rfl, fun _ => rfl⟩, .of_phase nofun⟩

theorem onDingQue_kept (scores : Scored c s) (chair men rnd : Nat) :
    Kept s (onDingQue c s chair men rnd) ∧
      (s.fsm = .dingQue → Scored c (onDingQue c s chair men rnd)) := by
  unfold onDingQue
  split
  · exact ⟨.refl s, fun _ => scores⟩
  · have chosen : Kept s (s.update chair fun p => { p with que := some men }) :=
      .update (fun _ => rfl) (fun _ => rfl) fun _ => rfl
    dsimp only
    split
    · obtain ⟨kept, scores⟩ := actionAfterDingQue_kept c
        (jumpToPlayerIndex (s.update chair fun p => { p with que := some men }) c.zhuang) rnd
      exact ⟨chosen.trans ⟨kept.lastAction, kept.mingPai, kept.hu⟩, fun _ => scores⟩
    · refine ⟨chosen, fun fsm => .of_phase ?_⟩
      rw [phaseOf, show (s.update chair fun p => { p with que := some men }).fsm = s.fsm from rfl,
        fsm]
      simp

theorem doHuanPai_kept (c : Conf) (s : State) (rnd : Nat) : Kept s (doHuanPai c s rnd) := by
  have hand : ∀ (s : State) (chair : Nat) (f : Counts → Counts),
      Kept s (s.update chair fun p => p.withShouPai f) :=
    fun _ _ _ => .update (fun _ => rfl) (fun _ => rfl) fun _ => rfl
  unfold doHuanPai
  exact (foldl_kept (fun s chair => hand s chair _) c.seats s).trans
    (foldl_kept (fun s chair => hand s _ _) c.seats _)

theorem onHuanPai_kept (scores : Scored c s) (fsm : s.fsm = .huanPai) (huan : HuanConf) (chair : Nat)
    (tiles : List Nat) (rnd : Nat) :
    Kept s (onHuanPai c s huan chair tiles rnd) ∧
      Scored c (onHuanPai c s huan chair tiles rnd) := by
  unfold onHuanPai
  split
  · exact ⟨.refl s, scores⟩
  split
  · exact ⟨.refl s, scores⟩
  split
  · exact ⟨.refl s, scores⟩
  split
  · exact ⟨.refl s, scores⟩
  have given : Kept s (s.update chair fun p => { p with pai := { p.pai with huan := some tiles } }) :=
    .update (fun _ => rfl) (fun _ => rfl) fun _ => rfl
  have same_fsm : (s.update chair fun p =>
      { p with pai := { p.pai with huan := some tiles } }).fsm = .huanPai := fsm
  dsimp only
  generalize (s.update chair fun p => { p with pai := { p.pai with huan := some tiles } }) = s₁
    at given same_fsm ⊢
  split
  · obtain ⟨kept, scores⟩ := dingQue_kept c (doHuanPai c s₁ rnd) (rnd / 3)
    exact ⟨(given.trans (doHuanPai_kept c s₁ rnd)).trans kept, scores⟩
  · refine ⟨given, .of_phase ?_⟩
    rw [phaseOf, same_fsm]
    simp

/-! ### Steps -/

theorem setGzhOnPass_kept (c : Conf) (s : State) (chair tile : Nat) :
    Kept s (setGzhOnPass c s chair tile) := by
  unfold setGzhOnPass
  dsimp only
  split
  · exact .refl s
  · exact .update (fun _ => rfl) (fun _ => rfl) fun _ => rfl

theorem getSelfActionsAndSetPass_kept (c : Conf) (s : State) (chair tile : Nat) :
    Kept s (getSelfActionsAndSetPass c s chair tile) := by
  have gsp : ∀ s, Kept s (setGspOnPass s chair tile) :=
    fun s => .update (fun _ => rfl) (fun _ => rfl) fun _ => rfl
  unfold getSelfActionsAndSetPass
  split
  · dsimp only
    split
    on_goal 1 => refine .trans ?_ (gsp _)
    all_goals
      split
      · have set := setGzhOnPass_kept c s chair tile
        split
        · exact set
        · exact set.trans (.update (fun _ => rfl) (fun _ => rfl) fun _ => rfl)
      · exact .refl s
  · exact .refl s

theorem selfPassed_kept (c : Conf) (s : State) (tile : Nat) : Kept s (selfPassed c s tile) := by
  have laid : Kept s (discarded s tile) := by
    have shown : ∀ s : State, Kept s (onChuPai s tile) := by
      intro s
      refine ⟨fun i => ?_, fun i => ?_, fun i => ?_⟩ <;> unfold onChuPai <;> dsimp only <;>
        split <;> rfl
    refine .trans (.trans ?_ (shown _)) (.update (fun _ => rfl) (fun _ => rfl) fun _ => rfl)
    exact .update (fun _ => rfl) (fun _ => rfl) fun _ => rfl
  have passed := getSelfActionsAndSetPass_kept c (discarded s tile) s.chuPaiPlayerIndex tile
  refine (laid.trans passed).trans ?_
  exact .update (fun _ => rfl) (fun _ => rfl) fun _ => rfl

theorem nextPlayerIndex_noGang {from_ : Nat} (h : nextPlayerIndex c s from_ = some s') :
    NoGang s' ∧ ∀ i, (s'.player i).hu = (s.player i).hu := by
  obtain ⟨chair, -, rfl⟩ := Option.map_eq_some_iff.1 h
  exact ⟨noGang_doneLastAction s s.chuPaiPlayerIndex nofun, fun _ => rfl⟩

theorem moPai_noGang (none_open : NoGang s) (c : Conf) (rnd : Nat) : NoGang (moPai c s rnd) :=
  none_open.kept (moPai_kept c s rnd)

theorem onActionChuPai_follows (scores : Scored c s) {chair tile rnd : Nat}
    (h : onActionChuPai c s chair tile rnd = some s') : Follows c s s' := by
  by_cases own : s.chuPaiPlayerIndex = chair
  · subst own
    have passed := selfPassed_kept c s tile
    rw [onActionChuPai_eq] at h
    split at h
    · cases h
      exact .refl scores
    split at h
    · obtain ⟨s₁, next, rfl⟩ := Option.map_eq_some_iff.1 h
      obtain ⟨none_open, hu⟩ := nextPlayerIndex_noGang next
      have kept := moPai_kept c s₁ rnd
      exact .of_hu (fun _ => (none_open.kept kept).due) (scored_moPai c s₁ rnd)
        fun i => (kept.hu i).trans ((hu i).trans (passed.hu i))
    · cases h
      exact .of_kept ⟨passed.lastAction, passed.mingPai, passed.hu⟩ (.of_phase nofun)
  · unfold onActionChuPai at h
    rw [if_pos (.inl own)] at h
    cases h
    exact .refl scores

/-- A player has no gang of a tile of which more are in its hand. -/
theorem Game.Stock.gang_alone {g : Game} (h : g.Stock c) {chair tile : Nat} (seated : chair ∈ c.seats)
    (held : 0 < g.hand chair tile) {sec : Section} (laid : sec ∈ g.melds chair)
    (same : sec.tile = tile) : isSectionGang sec.type = false := by
  by_contra gang
  have four : sec.copies tile = 4 := by simp [Section.copies, same, gang]
  have copies : ∀ n ∈ (g.melds chair).map fun sec => sec.copies tile, 0 ≤ n := by
    intro n mem
    obtain ⟨sec, -, rfl⟩ := List.mem_map.1 mem
    unfold Section.copies
    split
    · split <;> decide
    · exact le_rfl
  have among := List.single_le_sum copies _ (List.mem_map_of_mem laid)
  have mine : 5 ≤ g.held chair tile := by
    rw [Game.held, Game.laid]
    omega
  have nonneg : ∀ i ∈ c.seats.toFinset, 0 ≤ g.held i tile :=
    fun i _ => (h.nonneg i tile).trans (g.hand_le_held i tile)
  have all := Finset.single_le_sum nonneg (List.mem_toFinset.2 seated)
  have deck := h.deck tile
  rw [(c.count_tiles (h.in_deck (.inl ⟨chair, seated, held⟩))).1, Game.total] at deck
  omega

theorem doMingGang_gangs {chair tile : Nat} (now : InTurn c (abs s)) (stock : (abs s).Stock c)
    (free : (abs s).Free c chair) (three : (abs s).hand chair tile = 3) (answers : List Waiting)
    (rnd : Nat) : GangDue c (doMingGang c s chair tile answers rnd) := by
  obtain ⟨seated, other, playing⟩ := free
  unfold doMingGang
  dsimp only
  -- the table before the tile that follows the gang is drawn
  have laid : view (adjustShouPai (popDesk (cleanGzh s chair)) chair .mingGang tile) .draw =
      (view (cleanGzh s chair) .draw).popDesk.lay chair tile 3
        ⟨.mingGang, tile, some s.chuPaiPlayerIndex, none, none, s.clock⟩ := by
    rw [← view_popDesk]
    exact view_lay _ _ _ _ _ _
  have mine : ((adjustShouPai (popDesk (cleanGzh s chair)) chair .mingGang tile).player
      chair).pai.mingPai = (s.player chair).pai.mingPai ++
        [⟨.mingGang, tile, some s.chuPaiPlayerIndex, none, none, s.clock⟩] := by
    have melds := congrFun (congrArg Game.melds laid) chair
    simp only [Game.lay, Game.popDesk, alter_self] at melds
    exact melds.trans (congrArg (· ++ _) ((cleanGzh_kept s chair).mingPai chair))
  have hu : ∀ i, ((adjustShouPai (popDesk (cleanGzh s chair)) chair .mingGang tile).player i).hu =
      (s.player i).hu := by
    have popped : Kept (cleanGzh s chair) (popDesk (cleanGzh s chair)) :=
      .update (fun _ => rfl) (fun _ => rfl) fun _ => rfl
    refine fun i => Eq.trans ?_ (((cleanGzh_kept s chair).trans popped).hu i)
    show (alter (popDesk (cleanGzh s chair)).player chair _ i).hu = _
    by_cases here : i = chair
    · subst here
      rw [alter_self]
    · rw [alter_of_ne here]
  generalize adjustShouPai (popDesk (cleanGzh s chair)) chair .mingGang tile = s₁ at mine hu ⊢
  clear laid
  have checked := checkAllPass_unseen c answers s₁
  have kept := moPai_kept c (jumpToPlayerIndex (checkAllPass c answers s₁) chair) rnd
  have found : ((moPai c (jumpToPlayerIndex (checkAllPass c answers s₁) chair) rnd).player
      chair).pai.mingPai.find? (fun sec => sec.tile = tile ∧ sec.type = .mingGang) =
        some ⟨.mingGang, tile, some s.chuPaiPlayerIndex, none, none, s.clock⟩ := by
    rw [(kept.mingPai chair).trans (congrArg Pai.mingPai (checked.pai chair)), mine,
      List.find?_append, List.find?_eq_none.2, Option.none_or]
    · simp
    · intro sec mem match_
      simp only [decide_eq_true_eq] at match_
      have alone := stock.gang_alone seated (show 0 < (abs s).hand chair tile by omega) mem match_.1
      rw [match_.2] at alone
      cases alone
  intro i tile' last
  by_cases here : i = chair
  · subst here
    simp only [doneLastAction, if_true, Option.some.injEq, Prod.mk.injEq, true_and] at last
    subst last
    refine ⟨s.chuPaiPlayerIndex, now.seated, ?_, ?_⟩
    · simp only [gangGiver, doneLastAction, if_true]
      rw [found]
      rfl
    · refine (kept.hu _).trans ((checked.hu _).trans ((hu _).trans ?_))
      exact Option.map_eq_none_iff.1 now.playing
  · simp only [doneLastAction, if_neg here] at last
    cases last

theorem resolveClaims_gangs {waiting : List Waiting} {tile session rnd : Nat}
    (claim : phaseOf s = .claim) (now : InTurn c (abs s))
    (asked : Asked (ClaimOffer c (abs s) session tile) waiting)
    (h : resolveClaims c s waiting rnd = some s') :
    ((abs s).Stock c → GangDue c s') ∧ Scored c s' := by
  unfold resolveClaims at h
  cases sorted : sortAnswers (waiting.filter fun w => w.done.isSome) with
  | nil =>
      rw [sorted] at h
      cases h
  | cons first others =>
      have listed : first ∈ sortAnswers (waiting.filter fun w => w.done.isSome) := by
        rw [sorted]
        exact .head _
      have offer := asked.each first (mem_sortAnswers.1 listed).1
      simp only [sorted] at h
      cases answer : first.done with
      | none =>
          rw [answer] at h
          cases h
      | some act =>
          obtain ⟨action, t⟩ := act
          rw [answer] at h
          cases action with
          | mingGang =>
              have offered := (offer.done _ answer).resolve_left (by simp)
              have is_tile : t = tile := offer.actions _ offered
              have three := offer.mingGang _ offered rfl
              cases h
              exact ⟨fun stock => doMingGang_gangs now stock offer.free (is_tile ▸ three) _ rnd,
                .doneLastAction (scored_moPai c _ rnd) _ _⟩
          | hu =>
              obtain ⟨s₁, after, rfl⟩ := Option.map_eq_some_iff.1 h
              exact ⟨fun _ => (noGang_done s₁ _ _ (by decide)).due,
                .doneLastAction (afterHu_kept after).1 _ _⟩
          | pass =>
              obtain ⟨s₁, next, rfl⟩ := Option.map_eq_some_iff.1 h
              exact ⟨fun _ => (moPai_noGang (nextPlayerIndex_noGang next).1 c rnd).due,
                scored_moPai c s₁ rnd⟩
          | peng =>
              cases h
              exact ⟨fun _ => (noGang_done _ _ _ (by decide)).due, .of_phase nofun⟩
          | _ =>
              cases h
              refine ⟨fun _ => (noGang_done s _ _ (by decide)).due, .doneLastAction (.of_phase ?_) _ _⟩
              rw [claim]
              nofun

theorem onActionAfterChuPai_gangs {waiting : List Waiting} {chair : Nat} {action : Action}
    {tile session rnd : Nat} (fsm : s.fsm = .waitActionAfterChuPai waiting) (offers : Offers c s)
    (now : InTurn c (abs s)) (h : onActionAfterChuPai c s waiting chair action tile session rnd = some s') :
    ((abs s).Stock c → GangDue c s → GangDue c s') ∧ Scored c s' := by
  have claim : phaseOf s = .claim := by rw [phaseOf, fsm]
  rw [Offers, fsm] at offers
  obtain ⟨discard, -, -, asked⟩ := offers
  rw [onActionAfterChuPai_eq] at h
  split at h
  · obtain ⟨gangs, scores⟩ :=
      resolveClaims_gangs claim now (asked.claimsAfter chair action tile session) h
    exact ⟨fun stock _ => gangs stock, scores⟩
  · cases h
    exact ⟨fun _ gangs => gangs.kept ⟨fun _ => rfl, fun _ => rfl, fun _ => rfl⟩,
      .of_phase (by simp [phaseOf])⟩

theorem afterGang_follows {chair tile rnd : Nat} {action : Action} (other : action ≠ .mingGang)
    (hu : ∀ i, (s'.player i).hu = (s.player i).hu) :
    Follows c s (afterGang c s' chair action tile rnd) := by
  have kept := moPai_kept c s' rnd
  exact .of_hu (fun _ => (noGang_done _ chair tile other).due) (.doneLastAction (scored_moPai c s' rnd) _ _)
    fun i => (kept.hu i).trans (hu i)

theorem adjustShouPai_hu (s : State) (chair : Nat) (action : Action) (tile i : Nat) :
    ((adjustShouPai s chair action tile).player i).hu = (s.player i).hu := by
  have lay : ∀ f : Player → Player, (∀ p, (f p).hu = p.hu) →
      (alter s.player chair f i).hu = (s.player i).hu := by
    intro f keep
    by_cases here : i = chair
    · subst here
      rw [alter_self, keep]
    · rw [alter_of_ne here]
  unfold adjustShouPai
  cases action with
  | baGang =>
      dsimp only
      split
      · rfl
      · exact lay _ fun _ => rfl
  | anGang | mingGang | peng => exact lay _ fun _ => rfl
  | _ => rfl

theorem onZiMo_follows {chair tile rnd : Nat} (h : onZiMo c s chair tile rnd = some s') :
    Follows c s s' := by
  obtain ⟨s₁, after, rfl⟩ := Option.map_eq_some_iff.1 h
  obtain ⟨scores, hu, -⟩ := afterHu_kept after
  refine ⟨fun _ _ => (noGang_done s₁ chair tile (by decide)).due, scores.doneLastAction _ _, ?_⟩
  intro i w won drawn
  have here : (abs (doneLastAction s₁ chair (some (.ziMo, tile)))).won i =
      (s₁.player i).hu.map Hu.toWin := rfl
  rw [here, hu i] at won
  by_cases own : i = chair
  · subst own
    right
    rw [show ((setHu s i _).player i).hu = some _ from congrArg Player.hu (State.update_self s i _)]
      at won
    simp only [Option.map_some, Option.some.injEq] at won
    subst won
    simp only [Hu.toWin] at drawn ⊢
    split at drawn
    · rename_i dgh
      obtain ⟨⟨action, last⟩, same, gang⟩ := (Option.any_eq_true _ _).1 dgh.2
      obtain rfl : action = .mingGang := of_decide_eq_true gang
      exact ⟨last, same, if_pos dgh, trivial⟩
    · cases drawn
  · left
    refine Eq.trans ?_ won
    exact (congrArg (Option.map Hu.toWin) (congrArg Player.hu (State.update_of_ne own))).symm

theorem onActionAfterMoPai_follows (scores : Scored c s) {waiting : Waiting}
    {chair : Nat} {action : Action} {tile session rnd : Nat}
    (h : onActionAfterMoPai c s waiting chair action tile session rnd = some s') :
    Follows c s s' := by
  unfold onActionAfterMoPai at h
  split at h
  · cases h
    exact .refl scores
  split at h
  · cases h
    exact .refl scores
  split at h
  · cases h
    rw [onBaGang_eq]
    split
    · refine afterGang_follows (by decide) fun i => ?_
      exact ((cleanGzh_kept _ chair).hu i).trans (adjustShouPai_hu s chair .baGang tile i)
    · exact .of_kept ⟨fun _ => rfl, fun _ => rfl, fun _ => rfl⟩ (.of_phase nofun)
  · cases h
    refine afterGang_follows (by decide) fun i => ?_
    exact (adjustShouPai_hu _ chair .anGang tile i).trans ((cleanGzh_kept s chair).hu i)
  · exact onZiMo_follows h
  · cases h
    exact .of_kept ⟨fun _ => rfl, fun _ => rfl, fun _ => rfl⟩ (.of_phase nofun)

/-- After the last winner of a robbed gang no last action is an open gang. -/
theorem foldl_doQiangGangHu_noGang (c : Conf) (tile : Nat) {winners : List Waiting}
    (somebody : winners ≠ [])
    (answers : ∀ w ∈ winners, ∀ act, w.done = some act → act.1 ≠ .mingGang) (st : State × Bool) :
    NoGang (winners.foldl (doQiangGangHu c tile) st).1 := by
  obtain ⟨front, last, rfl⟩ := List.eq_nil_or_concat winners |>.resolve_left somebody
  rw [List.concat_eq_append, List.foldl_concat]
  refine noGang_doneLastAction _ _ fun t same => ?_
  obtain ⟨act, done, same⟩ := Option.map_eq_some_iff.1 same
  exact answers last (by simp) act done (congrArg Prod.fst same)

theorem resolveQiangGang_gangs {tile session rnd : Nat} {waiting : List Waiting}
    (asked : Asked (RobOffer c (abs s) session tile) waiting)
    (all_done : (waiting.all fun w => w.done.isSome) = true)
    (h : resolveQiangGang c s tile waiting rnd = some s') : GangDue c s' ∧ Scored c s' := by
  rw [resolveQiangGang_eq] at h
  split at h
  · cases h
    exact ⟨(moPai_noGang (noGang_done _ _ tile (by decide)) c rnd).due, scored_moPai c _ rnd⟩
  · rename_i pass
    obtain ⟨scores, -, last⟩ := afterHu_kept h
    refine ⟨NoGang.due ?_, scores⟩
    have none_open : NoGang (robbed c s tile waiting) := by
      refine foldl_doQiangGangHu_noGang c tile (robActions_somebody asked all_done pass) ?_ _
      intro w mem act done gang
      have won := (List.mem_filter.1 mem).2
      simp [Waiting.answered, done, gang] at won
    refine last.elim (fun same i t => ?_) id
    rw [same]
    exact none_open i t

theorem onActionQiangGangHu_gangs {tile : Nat} {waiting : List Waiting} {chair : Nat}
    {action : Action} {answered session rnd : Nat} (fsm : s.fsm = .waitQiangGangHu tile waiting)
    (offers : Offers c s)
    (h : onActionQiangGangHu c s tile waiting chair action answered session rnd = some s') :
    (GangDue c s → GangDue c s') ∧ Scored c s' := by
  rw [Offers, fsm] at offers
  obtain ⟨-, asked⟩ := offers
  unfold onActionQiangGangHu at h
  cases check : checkActionBeforeDo waiting chair action answered session with
  | none =>
      simp only [check] at h
      cases h
      refine ⟨id, .of_phase ?_⟩
      rw [phaseOf, fsm]
      simp
  | some w =>
      simp only [check] at h
      split at h
      · rename_i all_done
        obtain ⟨gangs, scores⟩ := resolveQiangGang_gangs (asked.robAnswered check) all_done h
        exact ⟨fun _ => gangs, scores⟩
      · cases h
        exact ⟨fun gangs => gangs.kept ⟨fun _ => rfl, fun _ => rfl, fun _ => rfl⟩,
          .of_phase (by simp [phaseOf])⟩

/-- What the settlement needs to know of one request. -/
theorem step_follows {r : Request} (now : TurnOk c (abs s)) (offers : Offers c s)
    (scores : Scored c s) (h : step c s r = some s') : Follows c s s' := by
  have stay : some s = some s' → Follows c s s' := by
    intro same
    cases same
    exact .refl scores
  -- the answers to a discard or to a gang: nobody wins with a tile of its own
  have others : ∀ tile, phaseOf s = .claim ∨ phaseOf s = .rob tile →
      ((abs s).Stock c → GangDue c s → GangDue c s') ∧ Scored c s' → Follows c s s' := by
    intro tile phase after
    have burst : Burst c .any (abs s) (abs s') := (step_burst offers (.any s r) h).1
    exact ⟨after.1, after.2, fun i w won drawn => .inl (burst.shot phase won drawn)⟩
  have h' := h
  unfold step at h'
  split at h'
  · exact stay h'
  split at h'
  · rename_i tiles fsm msg
    cases huan : c.huan with
    | none =>
        rw [huan] at h'
        exact stay h'
    | some conf =>
        rw [huan] at h'
        cases h'
        obtain ⟨kept, scores⟩ := onHuanPai_kept scores fsm conf r.chair tiles r.rnd
        exact .of_kept kept scores
  · rename_i men fsm _
    cases h'
    obtain ⟨kept, scores⟩ := onDingQue_kept scores r.chair men r.rnd
    exact .of_kept kept (scores fsm)
  · exact onActionChuPai_follows scores h'
  · split at h'
    · exact onActionAfterMoPai_follows scores h'
    · exact stay h'
  · rename_i fsm _
    split at h'
    · have claim : phaseOf s = .claim := by rw [phaseOf, fsm]
      have turn : InTurn c (abs s) := now (by
        rw [show (abs s).phase = phaseOf s from rfl, claim]
        simp)
      exact others 0 (.inl claim) (onActionAfterChuPai_gangs fsm offers turn h')
    · exact stay h'
  · rename_i tile waiting _ _ _ fsm _
    split at h'
    · have rob : phaseOf s = .rob tile := by rw [phaseOf, fsm]
      obtain ⟨gangs, scores⟩ := onActionQiangGangHu_gangs fsm offers h'
      exact others tile (.inr rob) ⟨fun _ => gangs, scores⟩
    · exact stay h'
  · exact stay h'

/-! ### Runs -/

/-- What is written down in a round. -/
structure Accounts (c : Conf) (s : State) : Prop where
  turn : TurnOk c (abs s)
  tiles : (abs s).Conserved c
  books : (abs s).Books c
  offers : Offers c s
  gangs : GangDue c s
  scores : Scored c s
  drawn : ∀ i w, (abs s).won i = some w → w.ziMo = none → (abs s).Charged c w.time w.whoee

theorem Accounts.step {r : Request} (accounts : Accounts c s) (fair : StepOk Game.Honest s r)
    (h : step c s r = some s') : Accounts c s' := by
  obtain ⟨burst, offers⟩ := step_burst accounts.offers fair h
  have follows := step_follows accounts.turn accounts.offers accounts.scores h
  have kept : TurnOk c (abs s') ∧ (abs s').Conserved c ∧ (abs s').Books c :=
    @Burst.keep c Game.Honest (fun g => TurnOk c g ∧ g.Conserved c ∧ g.Books c)
      (fun _ _ _ inv move => ⟨move.turnOk inv.1, move.conserved inv.2.1 inv.1,
        move.books inv.2.2 inv.1⟩) (abs s) (abs s')
      ⟨accounts.turn, accounts.tiles, accounts.books⟩ burst
  have later := burst.later accounts.turn
  refine ⟨kept.1, kept.2.1, kept.2.2, offers, follows.gangs accounts.tiles.stock accounts.gangs,
    follows.scores, ?_⟩
  intro i w won drawn
  obtain before | ⟨tile, last, whoee, time⟩ := follows.drawn i w won drawn
  · exact (accounts.drawn i w before drawn).later later (accounts.books.time i w before).le
  · obtain ⟨who, seated, giver, playing⟩ := accounts.gangs i tile last
    have charged : (abs s).Charged c w.time w.whoee := by
      refine ⟨who, seated, whoee.trans giver, fun own lost => ?_⟩
      have none_won : (abs s).won who = none := congrArg (Option.map Hu.toWin) playing
      rw [none_won] at lost
      cases lost
    exact charged.later later time.le

theorem dealTiles_kept {rnd : Nat → Nat} {chair n : Nat} (h : dealTiles rnd chair n s = some s') :
    Kept s s' ∧ s'.fsm = s.fsm := by
  induction n generalizing s with
  | zero =>
      cases h
      exact ⟨.refl _, rfl⟩
  | succ n ih =>
      unfold dealTiles at h
      split at h
      · cases h
      · rename_i tile dealer _
        have one : Kept { s with dealer := dealer } ({ s with dealer := dealer }.update chair fun p =>
            p.withShouPai fun counts => incr counts tile 1) :=
          .update (fun _ => rfl) (fun _ => rfl) fun _ => rfl
        obtain ⟨kept, fsm⟩ := ih h
        exact ⟨Kept.trans ⟨one.lastAction, one.mingPai, one.hu⟩ kept, fsm⟩

theorem prepareTiles_kept {rnd : Nat → Nat} (h : prepareTiles c rnd s = some s') :
    Kept s s' ∧ s'.fsm = s.fsm := by
  obtain ⟨s₁, dealt, faked⟩ := Option.bind_eq_some_iff.1 h
  obtain ⟨all, fsm⟩ : Kept s s₁ ∧ s₁.fsm = s.fsm := by
    refine Runs.foldlM_invariant (fun _ s₁ => Kept s s₁ ∧ s₁.fsm = s.fsm) ?_ ⟨.refl s, rfl⟩ dealt
    intro chair _ s₁ s₂ before one
    obtain ⟨kept, fsm⟩ := dealTiles_kept one
    exact ⟨before.1.trans kept, fsm.trans before.2⟩
  unfold fakeMoPai at faked
  split at faked
  · cases faked
  · rename_i tile dealer _
    cases faked
    have last : Kept { s₁ with dealer := dealer, moPaiCount := s₁.moPaiCount + 1 }
        ({ s₁ with dealer := dealer, moPaiCount := s₁.moPaiCount + 1 }.update s₁.chuPaiPlayerIndex
          fun p => { p.withShouPai fun counts => incr counts tile 1 with
            moPaiCount := p.moPaiCount + 1 }) :=
      .update (fun _ => rfl) (fun _ => rfl) fun _ => rfl
    exact ⟨all.trans ⟨last.lastAction, last.mingPai, last.hu⟩, fsm⟩

/-- Before the first request nobody has done anything. -/
theorem Started.quiet (started : Started c s) :
    (∀ i, (s.player i).lastAction = none ∧ (s.player i).hu = none) ∧ Scored c s := by
  obtain ⟨shuffleRnd, dealRnd, rnd, h⟩ := started
  obtain ⟨s₁, prepared, rfl⟩ := Option.map_eq_some_iff.1 h
  obtain ⟨kept, fsm⟩ := prepareTiles_kept prepared
  split
  · obtain ⟨kept', scores⟩ := dingQue_kept c s₁ rnd
    exact ⟨fun i => ⟨(kept.trans kept').lastAction i, (kept.trans kept').hu i⟩, scores⟩
  · refine ⟨fun i => ⟨kept.lastAction i, kept.hu i⟩, .of_phase ?_⟩
    rw [phaseOf, fsm]
    simp

theorem Accounts.start (started : Started c s) : Accounts c s := by
  obtain ⟨g, dealt, quiet, offers⟩ := started_dealt Game.Honest started
  obtain ⟨untouched, scores⟩ := started.quiet
  have kept : TurnOk c (abs s) ∧ (abs s).Conserved c ∧ (abs s).Books c :=
    @Burst.keep c Game.Honest (fun g => TurnOk c g ∧ g.Conserved c ∧ g.Books c)
      (fun _ _ _ inv move => ⟨move.turnOk inv.1, move.conserved inv.2.1 inv.1,
        move.books inv.2.2 inv.1⟩) g (abs s)
      ⟨dealt.turnOk, dealt.conserved, dealt.books⟩ (.of_quiet quiet)
  refine ⟨kept.1, kept.2.1, kept.2.2, offers, NoGang.due fun i tile => ?_, scores,
    fun i w won => ?_⟩
  · rw [(untouched i).1]
    nofun
  · rw [show (abs s).won i = none from congrArg (Option.map Hu.toWin) (untouched i).2] at won
    cases won

/-- The accounts are what the settlement asks for. -/
theorem Accounts.endState (accounts : Accounts c s) : EndState c s where
  shooter chair _ hu won not_drawn := by
    have here : (abs s).won chair = some hu.toWin := congrArg (Option.map Hu.toWin) won
    have charged : (abs s).Charged c hu.time hu.whoee := by
      cases drawn : hu.ziMo with
      | none => exact accounts.drawn chair hu.toWin here drawn
      | some ziMo =>
          cases ziMo with
          | true => exact absurd drawn not_drawn
          | false => exact accounts.books.shot chair hu.toWin here drawn
    obtain ⟨who, seated, whoee, before⟩ := charged
    exact ⟨who, seated, whoee, fun own lost =>
      before own.toWin (congrArg (Option.map Hu.toWin) lost)⟩
  giver chair _ sec laid gang := by
    obtain ⟨who, seated, whoee, before⟩ := (accounts.books.melds chair sec laid).giver gang
    exact ⟨who, seated, whoee, fun own lost =>
      before own.toWin (congrArg (Option.map Hu.toWin) lost)⟩
  timed chair _ sec laid := (accounts.books.melds chair sec laid).timed
  transferred chair _ sec laid := (accounts.books.melds chair sec laid).transferred

/-- However a round is played, the scores with which it ends sum to zero, and they come from
payments between seated players, each for a win or a gang that is not later than the payer's own
win, or from a player without a ready hand who has not won. -/
theorem settlement_due (reached : Round c Game.Honest s) {scores : Nat → Int} {zhuang : Nat}
    (ended : s.fsm = .over scores zhuang) :
    ∑ chair ∈ c.seats.toFinset, scores chair = 0 ∧ scores = Ledger.balance (balancePays c s) ∧
      ∀ pay ∈ balancePays c s, Due c s pay := by
  have accounts : Accounts c s :=
    reached.invariant (fun _ started => .start started) fun _ _ _ accounts fair next =>
      accounts.step fair next
  have fin := accounts.endState
  have same : scores = gameBalance c s := (accounts.scores scores zhuang ended).1
  rw [same]
  exact ⟨sum_gameBalance fin, rfl, fun _ => balancePays_due fin⟩

/-- Two players who do not exchange tiles. -/
def noExchange : Conf := { twoPlayers with huan := none }

/-- The dealer is dealt a complete hand and declares it. -/
theorem complete_hand : ∃ s s', Started noExchange s ∧ huCount noExchange s = 0 ∧
    robbing s ⟨1, .doAction .ziMo 11 1, 0⟩ = none ∧
    step noExchange s ⟨1, .doAction .ziMo 11 1, 0⟩ = some s' ∧ huCount noExchange s' = 1 ∧
      ∃ scores zhuang, s'.fsm = .over scores zhuang ∧ scores 1 = 17 := by
  have wins : ((onStarted noExchange id
      (fun n => [8, 8, 17, 0, 9, 18, 1, 1, 3, 4, 0, 6, 0, 2, 1].getD (36 - n) 0) 0).filter
        fun s => huCount noExchange s = 0 ∧
          (robbing s ⟨1, .doAction .ziMo 11 1, 0⟩).isNone = true).any
          (fun s => (step noExchange s ⟨1, .doAction .ziMo 11 1, 0⟩).any fun s' =>
            decide (huCount noExchange s' = 1) && match s'.fsm with
              | .over scores _ => decide (scores 1 = 17)
              | _ => false) = true := by decide +kernel
  obtain ⟨s, dealt, wins⟩ := (Option.any_eq_true _ _).1 wins
  obtain ⟨started, quiet⟩ := Option.filter_eq_some_iff.1 dealt
  obtain ⟨nobody, unrobbed⟩ := of_decide_eq_true quiet
  obtain ⟨s', next, ended⟩ := (Option.any_eq_true _ _).1 wins
  obtain ⟨one, ended⟩ := Bool.and_eq_true_iff.1 ended
  refine ⟨s, s', ⟨_, _, _, started⟩, nobody, Option.isNone_iff_eq_none.1 unrobbed, next,
    of_decide_eq_true one, ?_⟩
  cases fsm : s'.fsm with
  | «over» scores zhuang =>
      rw [fsm] at ended
      exact ⟨scores, zhuang, rfl, of_decide_eq_true ended⟩
  | _ =>
      rw [fsm] at ended
      cases ended

/-- The other player pays for it. -/
theorem complete_hand_settled : ∃ (s : State) (scores : Nat → Int) (zhuang : Nat),
    s.fsm = .over scores zhuang ∧ scores 1 = 17 ∧
      ∑ chair ∈ noExchange.seats.toFinset, scores chair = 0 := by
  obtain ⟨s, s', started, -, -, next, -, scores, zhuang, ended, score⟩ := complete_hand
  have reached : Round noExchange Game.Honest s' :=
    .next _ (.start started) ⟨fun _ same => (by cases same), fun _ _ _ => trivial⟩ next
  exact ⟨s', scores, zhuang, ended, score, (settlement_due reached ended).1⟩

end FkServer.MaajanXuezhan
