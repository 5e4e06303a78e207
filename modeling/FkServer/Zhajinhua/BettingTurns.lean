import FkServer.Zhajinhua.BettingBooks
import Mathlib.Data.List.Induction
import Mathlib.Data.List.Perm.Subperm

/-!
The turns of a round: a player who is waited for can always move, until a request is cut short after
the actions of the player are gone.
-/
namespace FkServer.Zhajinhua

variable {c : Round} {lua : LuaSort} {s s' : State} {i j : Nat}

/-! ### Bets and players -/

namespace State

theorem alter_player (s : State) (i : Nat) (f : Player → Player) (j : Nat) :
    (s.alter i f).player j = if j = i then f (s.player i) else s.player j := by
  exact Function.update_apply s.player i _ j

theorem pay_player (s : State) (c : Round) (i : Nat) (score : Int) (j : Nat) :
    (s.pay c i score).player j = if j = i then (s.player i).pay c score else s.player j :=
  s.alter_player i (fun p => p.pay c score) j

@[simp] theorem pay_live (s : State) (c : Round) (i : Nat) (score : Int) (j : Nat) :
    ((s.pay c i score).player j).live = (s.player j).live := by
  rw [pay_player]
  split
  · rename_i same
    rw [same]
    rfl
  · rfl

end State

namespace Round

theorem mem_liveGamers : i ∈ c.liveGamers s ↔ i ∈ c.gamers ∧ (s.player i).live = true :=
  List.mem_filter

theorem liveGamers_nodup (c : Round) (s : State) : (c.liveGamers s).Nodup := c.chairs.filter _

theorem liveGamers_congr (same : ∀ j ∈ c.gamers, (s'.player j).live = (s.player j).live) :
    c.liveGamers s' = c.liveGamers s :=
  List.filter_congr same

@[simp] theorem liveGamers_pay (score : Int) : c.liveGamers (s.pay c i score) = c.liveGamers s :=
  liveGamers_congr fun j _ => s.pay_live c i score j

/-- With a live player out, there is one less. -/
theorem liveGamers_out (live : i ∈ c.liveGamers s) {f : Player → Player}
    (out : ∀ p, (f p).live = false) :
    (c.liveGamers (s.alter i f)).length + 1 = (c.liveGamers s).length := by
  have erased : c.liveGamers (s.alter i f) = (c.liveGamers s).erase i := by
    rw [(c.liveGamers_nodup s).erase_eq_filter, liveGamers, liveGamers, List.filter_filter]
    refine List.filter_congr fun j _ => ?_
    rw [State.alter_player]
    by_cases same : j = i
    · simp [same, out]
    · simp [same]
  rw [erased, List.length_erase_of_mem live]
  have some_live := List.length_pos_of_mem live
  omega

/-! ### The next turn -/

/-- The next chair is a live one, the first on the way round the table. -/
theorem liveAfter_eq_some {chair : Nat} (found : c.liveAfter s i = some chair) :
    chair ≠ i ∧ chair ∈ c.liveGamers s := by
  obtain ⟨search, apart⟩ := Option.filter_eq_some_iff.1 found
  obtain ⟨-, -, -, stops, -⟩ := Rotation.seek_eq_some search
  have apart : chair ≠ i := of_decide_eq_true apart
  refine ⟨apart, mem_liveGamers.2 ?_⟩
  simpa [apart, List.contains_iff_mem] using stops

theorem liveAfter_isSome (inside : i ∈ Rotation.places c.chairCount)
    (other : ∃ j ∈ c.liveGamers s, j ≠ i) : ∃ chair, c.liveAfter s i = some chair := by
  obtain ⟨j, live, apart⟩ := other
  obtain ⟨gamer, alive⟩ := mem_liveGamers.1 live
  obtain ⟨k, within, met⟩ := Rotation.forward_reaches inside (c.seated j gamer)
  obtain ⟨found, search⟩ : ∃ found, Rotation.seek (Rotation.forward c.chairCount)
      (fun at_chair => at_chair = i || c.gamers.contains at_chair && (s.player at_chair).live)
      c.chairCount i = some found :=
    Rotation.seek_isSome within (by rw [met]; simp [gamer, alive])
  -- the search would have to pass the live one to come back
  refine ⟨found, Option.filter_eq_some_iff.2 ⟨search, decide_eq_true fun back => ?_⟩⟩
  obtain ⟨m, -, at_m, -, before⟩ := Rotation.seek_eq_some search
  have later : ¬k < m := by
    intro early
    have missed := before k early
    rw [met] at missed
    simp [gamer, alive] at missed
  have round : (Rotation.forward c.chairCount)^[m + 1] i = i := at_m.trans back
  rcases Nat.lt_or_ge (m + 1) c.chairCount with short | whole
  · have none := Rotation.iterate_forward_inj inside short (by omega)
      (round.trans (Function.iterate_zero_apply _ i).symm)
    omega
  · obtain rfl : m = k := by omega
    exact apart (met.symm.trans round)

theorem other_live (two : 2 ≤ (c.liveGamers s).length) (i : Nat) :
    ∃ j ∈ c.liveGamers s, j ≠ i := by
  by_contra alone
  have only : ∀ j ∈ c.liveGamers s, j = i := fun j live =>
    not_not.1 fun apart => alone ⟨j, live, apart⟩
  have few := (List.subperm_of_subset (c.liveGamers_nodup s)
    (show c.liveGamers s ⊆ [i] from fun j live => List.mem_singleton.2 (only j live))).length_le
  exact absurd (two.trans few) (by simp)

/-! ### The end of a round -/

/-- The table after a balance with a winner. -/
def balanced (c : Round) (s : State) (winner : Nat) : State :=
  c.settle { s with clockTimer := none, compareWaitingTimer := none, playing := false } winner

theorem gameBalance_some (c : Round) (s : State) (winner : Nat) :
    c.gameBalance s (some winner) = (c.balanced s winner, .done) :=
  rfl

/-- Who is all in and still there has lost. -/
def AllOut (c : Round) (s : State) : Prop :=
  ∀ i ∈ c.gamers, (s.player i).allIn = true → (s.player i).death = true

/-- Without a winner the balance finds a live gamer. -/
theorem gameBalance_none (out : c.AllOut s) (some_live : c.liveGamers s ≠ []) :
    ∃ winner ∈ c.liveGamers s, c.gameBalance s none = (c.balanced s winner, .done) := by
  obtain ⟨i, live⟩ := List.exists_mem_of_ne_nil _ some_live
  obtain ⟨gamer, alive⟩ := mem_liveGamers.1 live
  have not_dead : (!(s.player i).death) = true := (Bool.and_eq_true_iff.1 alive).1
  cases found : c.gamers.find? fun i => !(s.player i).death with
  | none => exact absurd not_dead (List.find?_eq_none.1 found i gamer)
  | some winner =>
      have there := List.mem_of_find?_eq_some found
      have not_out := List.find?_some found
      refine ⟨winner, mem_liveGamers.2 ⟨there, Bool.and_eq_true_iff.2 ⟨not_out, ?_⟩⟩, ?_⟩
      · cases all_in : (s.player winner).allIn with
        | false => rfl
        | true =>
            rw [out winner there all_in] at not_out
            cases not_out
      · have pick : (none : Option Nat).or (c.gamers.find? fun i => !(s.player i).death) =
            some winner := found
        unfold gameBalance
        dsimp only
        rw [pick]
        rfl

theorem table_live (c : Round) (s : State) :
    (c.table s).gamers.filter Gamer.live = (c.liveGamers s).map (c.gamer s) := by
  rw [table, List.filter_map, liveGamers]
  refine congrArg _ (List.filter_congr fun i _ => ?_)
  exact Bool.and_comm _ _

/-- The last showdown has a winner among those who are left. -/
theorem compareEachOther_live (lua : LuaSort) (some_live : c.liveGamers s ≠ []) :
    ∃ winner ∈ c.liveGamers s,
      ((c.table s).compareEachOther lua).map Gamer.chair = some winner := by
  have some_hands : (c.table s).gamers.filter Gamer.live ≠ [] := by
    rw [table_live]
    exact fun empty => some_live (List.map_eq_nil_iff.1 empty)
  obtain ⟨w, best⟩ : ∃ w, (c.table s).bestOf lua ((c.table s).gamers.filter Gamer.live) = some w :=
    Table.bestOf_isSome some_hands
  have there := ((Table.bestOf_iff List.filter_sublist).1 best).1
  rw [table_live] at there
  obtain ⟨i, live, rfl⟩ := List.mem_map.1 there
  refine ⟨i, live, ?_⟩
  rw [Table.compareEachOther, best]
  rfl

/-! ### Passing the turn -/

/-- How the turn goes on from a state with two live players. -/
inductive Passed (c : Round) (lua : LuaSort) (s : State) : State → Prop
  | turn {chair : Nat} : c.liveAfter s s.curChair = some chair → s.betRound ≤ c.maxRound →
      s.roundTurnCount + 1 < (c.liveGamers s).length →
      Passed c lua s (c.startPlayerTurn { s with
        curChair := chair, roundTurnCount := s.roundTurnCount + 1 } chair)
  | round {chair : Nat} : c.liveAfter s s.curChair = some chair → s.betRound + 1 ≤ c.maxRound →
      (c.liveGamers s).length ≤ s.roundTurnCount + 1 →
      Passed c lua s (c.startPlayerTurn { s with
        curChair := chair, roundTurnCount := 0, betRound := s.betRound + 1 } chair)
  | showdown {chair winner : Nat} : c.liveAfter s s.curChair = some chair →
      s.betRound = c.maxRound → (c.liveGamers s).length ≤ s.roundTurnCount + 1 →
      ((c.table s).compareEachOther lua).map Gamer.chair = some winner →
      Passed c lua s (c.balanced { s with
        curChair := chair, roundTurnCount := 0, betRound := s.betRound + 1 } winner)
  | late {chair winner : Nat} : c.liveAfter s s.curChair = some chair →
      c.maxRound < s.betRound → ((c.table s).compareEachOther lua).map Gamer.chair = some winner →
      Passed c lua s (c.balanced { s with
        curChair := chair, roundTurnCount := s.roundTurnCount + 1 } winner)

theorem nextTurn_passed (inside : s.curChair ∈ Rotation.places c.chairCount)
    (two : 2 ≤ (c.liveGamers s).length) :
    Passed c lua s (c.nextTurn lua s).1 ∧ (c.nextTurn lua s).2 = .done := by
  obtain ⟨chair, found⟩ := liveAfter_isSome inside (other_live two s.curChair)
  have some_live : c.liveGamers s ≠ [] := List.ne_nil_of_length_pos (by omega)
  obtain ⟨winner, -, best⟩ := compareEachOther_live lua some_live
  rw [nextTurn, found]
  dsimp only
  unfold nextRound
  dsimp only
  split
  · rename_i inside
    split
    · rename_i closed
      replace closed : (c.liveGamers s).length ≤ s.roundTurnCount + 1 := closed
      split
      · rename_i last
        have last : s.betRound = c.maxRound := by omega
        have best' : ((c.table { s with
              curChair := chair, roundTurnCount := 0, betRound := s.betRound + 1 }).compareEachOther
            lua).map Gamer.chair = some winner := best
        rw [if_neg Bool.false_ne_true, best', gameBalance_some]
        exact ⟨.showdown found last closed best, rfl⟩
      · exact ⟨.round found (by omega) closed, rfl⟩
    · rename_i going
      replace going : ¬(c.liveGamers s).length ≤ s.roundTurnCount + 1 := going
      exact ⟨.turn found inside (by omega), rfl⟩
  · rename_i late
    have best' : ((c.table { s with
          curChair := chair, roundTurnCount := s.roundTurnCount + 1 }).compareEachOther
        lua).map Gamer.chair = some winner := best
    rw [if_neg Bool.false_ne_true, best', gameBalance_some]
    exact ⟨.late found (by omega) best, rfl⟩

/-- How it goes on when somebody has dropped out. -/
inductive Dropped (c : Round) (lua : LuaSort) (s : State) : State → Prop
  | last {winner : Nat} : c.liveGamers s = [winner] → Dropped c lua s (c.balanced s winner)
  | pass {s' : State} : 2 ≤ (c.liveGamers s).length → Passed c lua s s' → Dropped c lua s s'

theorem balance_last (out : c.AllOut s) (one : (c.liveGamers s).length = 1) :
    ∃ winner, c.liveGamers s = [winner] ∧ c.gameBalance s none = (c.balanced s winner, .done) := by
  obtain ⟨only, alone⟩ := List.length_eq_one_iff.1 one
  obtain ⟨winner, live, balanced⟩ :=
    gameBalance_none out (alone ▸ List.cons_ne_nil only [] : c.liveGamers s ≠ [])
  rw [alone, List.mem_singleton] at live
  exact ⟨winner, live ▸ alone, balanced⟩

theorem dropOut_dropped {status : PlayerStatus} {s₁ : State}
    (same : s₁ = s.alter i fun p => p.out status)
    (inside : s.curChair ∈ Rotation.places c.chairCount) (out : c.AllOut s₁)
    (some_live : 1 ≤ (c.liveGamers s₁).length) :
    Dropped c lua s₁ (c.dropOut lua s i status).1 ∧ (c.dropOut lua s i status).2 = .done := by
  subst same
  rw [dropOut]
  split
  · rename_i ends
    obtain ⟨winner, alone, balanced⟩ := balance_last out (of_decide_eq_true ends)
    rw [balanced]
    exact ⟨.last alone, rfl⟩
  · rename_i goes_on
    have more : (c.liveGamers (s.alter i fun p => p.out status)).length ≠ 1 := fun one =>
      goes_on (decide_eq_true one)
    have two : 2 ≤ (c.liveGamers (s.alter i fun p => p.out status)).length := by omega
    have inside' : (s.alter i fun p => p.out status).curChair ∈ Rotation.places c.chairCount :=
      inside
    have next : Passed c lua (s.alter i fun p => p.out status) _ ∧ _ = Reply.done :=
      nextTurn_passed inside' two
    exact ⟨.pass two next.1, next.2⟩

/-! ### Where a round stands -/

/-- Where a round stands while no turn is lost. -/
inductive Sound (c : Round) (s : State) : Prop
  | turn : s.playing = true → c.AllOut s → s.curChair ∈ c.liveGamers s →
      2 ≤ (c.liveGamers s).length →
      s.waitingActions = some (s.curChair, c.getPlayerActions s s.curChair) →
      (s.clockTimer = none ∨
        s.clockTimer = some (s.curChair, c.getPlayerActions s s.curChair)) →
      s.compareWaitingTimer = none → Sound c s
  | comparing : s.playing = true → s.curChair ∈ Rotation.places c.chairCount → c.AllOut s →
      2 ≤ (c.liveGamers s).length → s.waitingActions = none → s.clockTimer = none →
      s.compareWaitingTimer = some .nextTurn → Sound c s
  | ending : s.playing = true → c.AllOut s → (c.liveGamers s).length = 1 →
      s.waitingActions = none → s.clockTimer = none →
      s.compareWaitingTimer = some .gameBalance → Sound c s
  | ended : s.playing = false → s.clockTimer = none → s.compareWaitingTimer = none → Sound c s

/-- The round goes on, but nobody is waited for and no timer runs. -/
structure Stuck (s : State) : Prop where
  playing : s.playing = true
  actions : s.waitingActions = none
  clock : s.clockTimer = none
  compare : s.compareWaitingTimer = none

/-- The requests that are cut short after the actions of the player are gone: to raise to less than
the last score, and to compare with one who only watches. -/
def Strands (c : Round) (s : State) : Request → Prop
  | .addScore i score => c.accepts s i .addScore = true ∧ 0 ≤ score ∧ score ≤ c.maxScore ∧
      c.checkPlayerMoneyLeak (s.player i) (if (s.player i).isLookCards then score * 2 else score) =
        false ∧ score < s.lastScore
  | .compare i j => c.accepts s i .compare = true ∧ j ∉ c.gamers ∧ j ∈ s.watchers
  | _ => False

theorem sound_balanced (c : Round) (s : State) (winner : Nat) : c.Sound (c.balanced s winner) :=
  .ended rfl rfl rfl

theorem sound_turn {chair : Nat} (playing : s.playing = true) (out : c.AllOut s)
    (here : s.curChair = chair) (live : chair ∈ c.liveGamers s)
    (two : 2 ≤ (c.liveGamers s).length) (clock : s.clockTimer = none)
    (waiting : s.compareWaitingTimer = none) : c.Sound (c.startPlayerTurn s chair) := by
  subst here
  refine .turn playing out live two rfl ?_ waiting
  unfold startPlayerTurn
  dsimp only
  split
  · exact .inr rfl
  · exact .inl clock

theorem Passed.sound (passed : Passed c lua s s') (playing : s.playing = true) (out : c.AllOut s)
    (two : 2 ≤ (c.liveGamers s).length) (clock : s.clockTimer = none)
    (waiting : s.compareWaitingTimer = none) : c.Sound s' := by
  cases passed with
  | turn found _ _ | round found _ _ =>
      exact sound_turn playing out rfl (liveAfter_eq_some found).2 two clock waiting
  | showdown _ _ _ _ | late _ _ _ => exact sound_balanced c _ _

theorem Dropped.sound (dropped : Dropped c lua s s') (playing : s.playing = true)
    (out : c.AllOut s) (clock : s.clockTimer = none) (waiting : s.compareWaitingTimer = none) :
    c.Sound s' := by
  cases dropped with
  | last _ => exact sound_balanced c _ _
  | pass two passed => exact passed.sound playing out two clock waiting

/-! ### The player on turn -/

/-- What holds when an action of a player is waited for. -/
structure OnTurn (c : Round) (s : State) (i : Nat) : Prop where
  playing : s.playing = true
  out : c.AllOut s
  here : s.curChair = i
  live : i ∈ c.liveGamers s
  two : 2 ≤ (c.liveGamers s).length
  waiting : s.compareWaitingTimer = none

theorem Sound.onTurn (sound : c.Sound s) {action : Action}
    (accepted : c.accepts s i action = true) :
    OnTurn c s i ∧ c.getPlayerActions s i action = true := by
  obtain ⟨-, checked⟩ := Bool.and_eq_true_iff.1 accepted
  obtain ⟨checked, waits⟩ := Bool.and_eq_true_iff.1 checked
  obtain ⟨playing, here⟩ := Bool.and_eq_true_iff.1 checked
  have here : s.curChair = i := of_decide_eq_true here
  cases sound with
  | turn _ out live two waiting _ compare =>
      rw [waiting] at waits
      obtain ⟨-, offered⟩ := Bool.and_eq_true_iff.1 waits
      exact ⟨⟨playing, out, here, here ▸ live, two, compare⟩, here ▸ offered⟩
  | comparing _ _ _ _ waiting _ _ | ending _ _ _ waiting _ _ =>
      rw [waiting] at waits
      cases waits
  | ended stopped _ _ =>
      rw [stopped] at playing
      cases playing

namespace OnTurn

theorem inside (h : OnTurn c s i) : s.curChair ∈ Rotation.places c.chairCount :=
  h.here ▸ c.seated i (mem_liveGamers.1 h.live).1

theorem clear (h : OnTurn c s i) : OnTurn c s.clear i :=
  ⟨h.playing, h.out, h.here, h.live, h.two, h.waiting⟩

theorem pay (h : OnTurn c s i) {score : Int} : OnTurn c (s.pay c i score) i where
  playing := h.playing
  out j gamer all_in := by
    rw [State.pay_player] at all_in ⊢
    split at all_in
    · rename_i same
      rw [if_pos same]
      exact h.out i (same ▸ gamer) all_in
    · rename_i other
      rw [if_neg other]
      exact h.out j gamer all_in
  here := h.here
  live := by
    rw [liveGamers_pay]
    exact h.live
  two := by
    rw [liveGamers_pay]
    exact h.two
  waiting := h.waiting

theorem nextTurn (h : OnTurn c s i) (lua : LuaSort) (clock : s.clockTimer = none) :
    c.Sound (c.nextTurn lua s).1 :=
  (nextTurn_passed h.inside h.two).1.sound h.playing h.out h.two clock h.waiting

/-- Nobody who is all in stays, when one more is out. -/
theorem out_alter (h : OnTurn c s i) {j : Nat} {f : Player → Player}
    (dead : ∀ p, (f p).death = true) : c.AllOut (s.alter j f) := by
  intro k gamer all_in
  rw [State.alter_player] at all_in ⊢
  split at all_in
  · rename_i same
    rw [if_pos same]
    exact dead _
  · rename_i other
    rw [if_neg other]
    exact h.out k gamer all_in

theorem dropOut (h : OnTurn c s i) (lua : LuaSort) (status : PlayerStatus)
    (clock : s.clockTimer = none) : c.Sound (c.dropOut lua s i status).1 := by
  have out : c.AllOut (s.alter i fun p => p.out status) := h.out_alter fun _ => rfl
  have less := liveGamers_out h.live fun p => show (p.out status).live = false from rfl
  have two := h.two
  exact (dropOut_dropped rfl h.inside out (by omega)).1.sound h.playing out clock h.waiting

theorem allInShowdown (h : OnTurn c s i) (lua : LuaSort) (clock : s.clockTimer = none) :
    c.Sound (c.allInShowdown lua s i).1 := by
  rw [Round.allInShowdown]
  split
  · exact sound_balanced c _ i
  · generalize ((s.alter i Player.betAll).player i).gameStatus = status
    have twice : (s.alter i Player.betAll).alter i (fun p => p.out status) =
        s.alter i fun p => p.betAll.out status := by
      unfold State.alter
      simp only [Function.update_self, Function.update_idem]
    have out : c.AllOut ((s.alter i Player.betAll).alter i fun p => p.out status) := by
      rw [twice]
      exact h.out_alter fun _ => rfl
    have less := liveGamers_out h.live fun p => show (p.betAll.out status).live = false from rfl
    rw [← twice] at less
    have two := h.two
    have inside : (s.alter i Player.betAll).curChair ∈ Rotation.places c.chairCount := h.inside
    have dropped : Dropped c lua ((s.alter i Player.betAll).alter i fun p => p.out status)
        (c.dropOut lua (s.alter i Player.betAll) i status).1 :=
      (dropOut_dropped rfl inside out (by omega)).1
    exact dropped.sound h.playing out clock h.waiting

end OnTurn

/-! ### The requests -/

theorem accepted_of {action : Action} (passed : ¬(!c.accepts s i action) = true) :
    c.accepts s i action = true := by
  simpa using passed

theorem Sound.follow (sound : c.Sound s) (lua : LuaSort) : c.Sound (c.follow lua s i).1 := by
  rw [Round.follow]
  split
  · exact sound
  · rename_i passed
    obtain ⟨turn, offered⟩ := sound.onTurn (accepted_of passed)
    have enough : c.checkPlayerMoneyLeak (s.player i) (s.turnScore i) = false := by
      simpa [getPlayerActions] using offered
    dsimp only
    rw [enough, if_neg Bool.false_ne_true]
    exact turn.clear.pay.nextTurn lua rfl

theorem Sound.allIn (sound : c.Sound s) (lua : LuaSort) : c.Sound (c.allIn lua s i).1 := by
  rw [Round.allIn]
  split
  · exact sound
  · rename_i passed
    obtain ⟨turn, -⟩ := sound.onTurn (accepted_of passed)
    exact turn.clear.pay.allInShowdown lua rfl

theorem OnTurn.raise (h : OnTurn c s i) (score : Int) :
    OnTurn c { s.clear with lastScore := score } i :=
  ⟨h.playing, h.out, h.here, h.live, h.two, h.waiting⟩

theorem Sound.addScore (sound : c.Sound s) (lua : LuaSort) {score : Int}
    (kept : ¬c.Strands s (.addScore i score)) : c.Sound (c.addScore lua s i score).1 := by
  rw [Round.addScore]
  split
  · exact sound
  · rename_i passed
    have accepted := accepted_of passed
    obtain ⟨turn, -⟩ := sound.onTurn accepted
    split
    · exact sound
    · rename_i inside
      simp only [Bool.or_eq_true, decide_eq_true_eq, not_or, Int.not_lt] at inside
      dsimp only
      by_cases enough : c.checkPlayerMoneyLeak (s.player i)
          (if (s.player i).isLookCards = true then score * 2 else score) = true
      · rw [if_pos enough]
        exact (turn.raise score).pay.allInShowdown lua rfl
      · rw [if_neg enough]
        split
        · rename_i low
          exact absurd ⟨accepted, inside.1.1.1, inside.2,
            Bool.eq_false_of_not_eq_true enough, low⟩ kept
        · exact (turn.raise score).pay.nextTurn lua rfl

theorem Sound.giveUp (sound : c.Sound s) (lua : LuaSort) : c.Sound (c.giveUp lua s i).1 := by
  rw [Round.giveUp]
  split
  · exact sound
  · rename_i passed
    obtain ⟨turn, -⟩ := sound.onTurn (accepted_of passed)
    split
    · exact sound
    · exact turn.clear.dropOut lua .drop rfl

theorem Sound.lookCard (sound : c.Sound s) : c.Sound (c.lookCard s i).1 := by
  rw [Round.lookCard]
  split
  · exact sound
  · rename_i passed
    obtain ⟨turn, -⟩ := sound.onTurn (accepted_of passed)
    have player : ∀ j, ((s.clear.alter i Player.look).player j).live = (s.player j).live ∧
        ((s.clear.alter i Player.look).player j).allIn = (s.player j).allIn ∧
        ((s.clear.alter i Player.look).player j).death = (s.player j).death := by
      intro j
      rw [State.alter_player]
      split
      · rename_i same
        rw [same]
        exact ⟨rfl, rfl, rfl⟩
      · exact ⟨rfl, rfl, rfl⟩
    have same : c.liveGamers (s.clear.alter i Player.look) = c.liveGamers s :=
      liveGamers_congr fun j _ => (player j).1
    refine sound_turn turn.playing (fun j gamer all_in => ?_) turn.here (same ▸ turn.live)
      (same ▸ turn.two) rfl turn.waiting
    rw [(player j).2.2]
    exact turn.out j gamer ((player j).2.1.symm.trans all_in)

theorem Sound.compare (sound : c.Sound s) {compareWith : Nat}
    (kept : ¬c.Strands s (.compare i compareWith)) : c.Sound (c.compare s i compareWith).1 := by
  rw [Round.compare]
  split
  · exact sound
  · rename_i passed
    have accepted := accepted_of passed
    obtain ⟨turn, -⟩ := sound.onTurn accepted
    split
    · exact sound
    · rename_i there
      split
      · exact sound
      · rename_i live
        dsimp only
        have paid : OnTurn c (s.clear.pay c i (c.compareScore s i)) i := turn.clear.pay
        split
        · rename_i watching
          have absent : compareWith ∉ c.gamers := by simpa using watching
          refine absurd ⟨accepted, absent, ?_⟩ kept
          simpa [absent] using there
        · rename_i gamer
          have gamer : compareWith ∈ c.gamers := by simpa using gamer
          simp only [Bool.or_eq_true, Bool.not_eq_true', Bool.and_eq_true, not_or, not_and,
            List.contains_iff_mem] at live
          have other : compareWith ∈ c.liveGamers s :=
            mem_liveGamers.2 ⟨gamer, by simpa using live.2 gamer⟩
          have loser : ∀ b : Bool, (if b = true then compareWith else i) ∈
              c.liveGamers (s.clear.pay c i (c.compareScore s i)) := by
            intro b
            rw [liveGamers_pay]
            cases b
            · exact turn.live
            · exact other
          have lost := loser (comparePlayer c.play (c.hand i).type (c.hand compareWith).type
            false false)
          revert lost
          generalize (if comparePlayer c.play (c.hand i).type (c.hand compareWith).type false
            false = true then compareWith else i) = j
          intro lost
          have out : c.AllOut ((s.clear.pay c i (c.compareScore s i)).alter j fun p =>
              p.out .lose) := paid.out_alter fun _ => rfl
          have less := liveGamers_out lost fun p => show (p.out .lose).live = false from rfl
          have two := paid.two
          by_cases ends : c.isEnd ((s.clear.pay c i (c.compareScore s i)).alter j fun p =>
              p.out .lose) = true
          · rw [if_pos ends]
            exact .ending paid.playing out (of_decide_eq_true ends) rfl rfl rfl
          · rw [if_neg ends]
            refine .comparing paid.playing paid.inside out ?_ rfl rfl rfl
            have more : (c.liveGamers ((s.clear.pay c i (c.compareScore s i)).alter j fun p =>
                p.out .lose)).length ≠ 1 := fun one => ends (decide_eq_true one)
            show 2 ≤ (c.liveGamers ((s.clear.pay c i (c.compareScore s i)).alter j fun p =>
                p.out .lose)).length
            omega

/-- The clock of the player on turn runs out. -/
theorem Sound.clock (sound : c.Sound s) : c.Sound { s with clockTimer := none } := by
  cases sound with
  | turn playing out live two waiting _ compare =>
      exact .turn playing out live two waiting (.inl rfl) compare
  | comparing playing inside out two waiting _ compare =>
      exact .comparing playing inside out two waiting rfl compare
  | ending playing out one waiting _ compare => exact .ending playing out one waiting rfl compare
  | ended stopped _ compare => exact .ended stopped rfl compare

theorem Sound.watch (sound : c.Sound s) (watchers : List Nat) :
    c.Sound { s with watchers := watchers } := by
  cases sound with
  | turn playing out live two waiting clock compare =>
      exact .turn playing out live two waiting clock compare
  | comparing playing inside out two waiting clock compare =>
      exact .comparing playing inside out two waiting clock compare
  | ending playing out one waiting clock compare =>
      exact .ending playing out one waiting clock compare
  | ended stopped clock compare => exact .ended stopped clock compare

theorem Sound.step (sound : c.Sound s) (lua : LuaSort) {r : Request} (kept : ¬c.Strands s r) :
    c.Sound (c.step lua s r).1 := by
  cases r with
  | follow i => exact sound.follow lua
  | allIn i => exact sound.allIn lua
  | addScore i score => exact sound.addScore lua kept
  | giveUp i => exact sound.giveUp lua
  | lookCard i => exact sound.lookCard
  | compare i compareWith => exact sound.compare kept
  | clock =>
      rw [Round.step]
      split
      · exact sound
      · rename_i i actions _
        show c.Sound (c.autoAction lua { s with clockTimer := none } i actions).1
        rw [autoAction]
        split
        · exact sound.clock.giveUp lua
        · split
          · exact sound.clock.follow lua
          · exact sound.clock
  | animated =>
      rw [Round.step]
      split
      · exact sound
      · rename_i waits
        cases sound with
        | comparing playing inside out two waiting clock _ =>
            have shown : ({ s with compareWaitingTimer := none } : State).curChair ∈
                Rotation.places c.chairCount := inside
            exact (nextTurn_passed shown two).1.sound playing out two clock rfl
        | turn _ _ _ _ _ _ compare | ended _ _ compare =>
            rw [compare] at waits
            cases waits
        | ending _ _ _ _ _ compare =>
            rw [compare] at waits
            cases waits
      · rename_i waits
        cases sound with
        | ending playing out one waiting clock _ =>
            obtain ⟨winner, -, balanced⟩ := balance_last
              (s := { s with compareWaitingTimer := none }) out one
            rw [balanced]
            exact sound_balanced c _ winner
        | turn _ _ _ _ _ _ compare | ended _ _ compare =>
            rw [compare] at waits
            cases waits
        | comparing _ _ _ _ _ _ compare =>
            rw [compare] at waits
            cases waits
  | sitDown i | standUp i =>
      rw [Round.step]
      split
      · exact sound
      · exact sound.watch _

/-! ### Lost turns -/

theorem Strands.stuck {r : Request} (strands : c.Strands s r) (sound : c.Sound s) (lua : LuaSort) :
    Stuck (c.step lua s r).1 := by
  cases r with
  | addScore i score =>
      obtain ⟨accepted, positive, inside, enough, low⟩ := strands
      obtain ⟨turn, -⟩ := sound.onTurn accepted
      obtain ⟨-, live⟩ := mem_liveGamers.1 turn.live
      obtain ⟨not_dead, not_all_in⟩ := Bool.and_eq_true_iff.1 live
      have cut : c.addScore lua s i score = (s.clear, .refused) := by
        rw [Round.addScore, accepted, if_neg (by simp), if_neg (by
          simp only [Bool.not_eq_true'] at not_dead not_all_in
          simp [not_dead, not_all_in, positive, inside])]
        dsimp only
        rw [enough, if_neg Bool.false_ne_true, if_pos low]
      rw [Round.step, cut]
      exact ⟨turn.playing, rfl, rfl, turn.waiting⟩
  | compare i compareWith =>
      obtain ⟨accepted, absent, watching⟩ := strands
      obtain ⟨turn, -⟩ := sound.onTurn accepted
      obtain ⟨-, live⟩ := mem_liveGamers.1 turn.live
      have cut : c.compare s i compareWith =
          (s.clear.pay c i (c.compareScore s i), .raised) := by
        rw [Round.compare, accepted, if_neg (by simp), if_neg (by simp [watching]),
          if_neg (by simp [live, absent])]
        dsimp only
        rw [if_pos (by simp [absent])]
      rw [Round.step, cut]
      exact ⟨turn.playing, rfl, rfl, turn.waiting⟩
  | follow _ | allIn _ | giveUp _ | lookCard _ | clock | animated | sitDown _ | standUp _ =>
      cases strands

/-- A table that is stuck stays so. -/
theorem Stuck.step (stuck : Stuck s) (c : Round) (lua : LuaSort) (r : Request) :
    Stuck (c.step lua s r).1 := by
  have refuses : ∀ i action, c.accepts s i action = false := by
    intro i action
    rw [accepts, State.checkPlayerAction, stuck.actions]
    simp
  obtain ⟨watchers, same⟩ := step_idle lua r refuses stuck.clock stuck.compare
  rw [same]
  exact ⟨stuck.playing, stuck.actions, stuck.clock, stuck.compare⟩

/-- Whoever is waited for can follow or go all in. -/
theorem Sound.moves (sound : c.Sound s) (playing : s.playing = true) :
    s.compareWaitingTimer.isSome ∨ ∃ i ∈ c.liveGamers s,
      c.accepts s i .follow = true ∨ c.accepts s i .allIn = true := by
  cases sound with
  | turn _ _ live _ waiting _ _ =>
      refine .inr ⟨s.curChair, live, ?_⟩
      obtain ⟨gamer, alive⟩ := mem_liveGamers.1 live
      obtain ⟨-, not_all_in⟩ := Bool.and_eq_true_iff.1 alive
      cases leak : c.checkPlayerMoneyLeak (s.player s.curChair) (s.turnScore s.curChair) with
      | false =>
          refine .inl ?_
          simp [accepts, State.checkPlayerAction, gamer, playing, waiting, getPlayerActions,
            leak]
      | true =>
          refine .inr ?_
          simp only [Bool.not_eq_true'] at not_all_in
          simp [accepts, State.checkPlayerAction, gamer, playing, waiting, getPlayerActions,
            leak, not_all_in]
  | comparing _ _ _ _ _ _ compare | ending _ _ _ _ _ compare =>
      rw [compare]
      exact .inl rfl
  | ended stopped _ _ => exact absurd (stopped.symm.trans playing) Bool.false_ne_true

/-! ### Runs -/

/-- Everybody is in, and nothing has begun. -/
structure OnStart (s : State) : Prop where
  playing : s.playing = true
  clock : s.clockTimer = none
  compare : s.compareWaitingTimer = none
  player : ∀ i, (s.player i).death = false ∧ (s.player i).allIn = false

theorem OnStart.pay (h : OnStart s) {score : Int} : OnStart (s.pay c i score) where
  playing := h.playing
  clock := h.clock
  compare := h.compare
  player j := by
    rw [State.pay_player]
    split
    · exact h.player i
    · exact h.player j

theorem OnStart.live (h : OnStart s) (i : Nat) : (s.player i).live = true := by
  obtain ⟨death, all_in⟩ := h.player i
  rw [Player.live, death, all_in]
  rfl

end Round

end FkServer.Zhajinhua
