import FkServer.Zhajinhua.Betting
import Mathlib.Algebra.BigOperators.Group.List.Basic
import Mathlib.Algebra.Ring.Int.Defs

/-!
The books of a round: what is on the desk is what the players have bet, and the balance, which comes
at most once, hands out what they have lost.
-/
namespace FkServer.Zhajinhua

variable {c : Round} {s s' : State} {i : Nat} {score : Int}

/-- One entry of a sum changes. -/
theorem sum_map_update {l : List Nat} (nodup : l.Nodup) (mem : i ∈ l) {f g : Nat → Int} {d : Int}
    (here : g i = f i + d) (others : ∀ j, j ≠ i → g j = f j) :
    (l.map g).sum = (l.map f).sum + d := by
  induction l with
  | nil => cases mem
  | cons x xs ih =>
      obtain ⟨fresh, nodup⟩ := List.nodup_cons.1 nodup
      rcases List.mem_cons.1 mem with rfl | mem
      · have rest : xs.map g = xs.map f :=
          List.map_congr_left fun j there => others j fun same => fresh (same ▸ there)
        simp only [List.map_cons, List.sum_cons, rest, here]
        omega
      · have apart : x ≠ i := fun same => fresh (same ▸ mem)
        simp only [List.map_cons, List.sum_cons, ih nodup mem, others x apart]
        omega

/-! ### An open round -/

/-- What a player has left is what came along, less the bets. -/
structure Player.Honest (p : Player) (c : Round) (i : Nat) : Prop where
  bets : p.betScores.sum = p.betScore
  money : p.remainMoney = c.oldMoney i - (p.betScores.map c.scoreMoney).sum
  score : p.remainScore = c.moneyScore (c.oldMoney i) - p.betScore

namespace Round

/-- The books before the balance. -/
structure Open (c : Round) (s : State) : Prop where
  desk : s.deskScores.sum = s.allScore
  pot : (c.gamers.map fun i => (s.player i).betScore).sum = s.allScore
  honest : ∀ i, (s.player i).Honest c i
  unpaid : s.balance = none

/-- The books after the balance, when nothing is waited for any more. -/
def Settled (c : Round) (s : State) : Prop :=
  ∃ s₀ : State, c.Open s₀ ∧ s₀.playing = false ∧ s₀.clockTimer = none ∧
    s₀.compareWaitingTimer = none ∧ ∃ winner ∈ c.gamers, s = c.settle s₀ winner

def Kept (c : Round) (s : State) : Prop := c.Open s ∨ c.Settled s

theorem Open.congr (h : c.Open s) (desk : s'.deskScores = s.deskScores)
    (all : s'.allScore = s.allScore) (player : s'.player = s.player)
    (balance : s'.balance = s.balance) : c.Open s' where
  desk := by rw [desk, all, h.desk]
  pot := by rw [player, all, h.pot]
  honest := by
    rw [player]
    exact h.honest
  unpaid := balance.trans h.unpaid

theorem Open.clear (h : c.Open s) : c.Open s.clear := h.congr rfl rfl rfl rfl

theorem Open.startPlayerTurn (h : c.Open s) : c.Open (c.startPlayerTurn s i) :=
  h.congr rfl rfl rfl rfl

/-- A player changes without a bet. -/
theorem Open.alter (h : c.Open s) {f : Player → Player}
    (same : ∀ p, (f p).betScore = p.betScore ∧ (f p).betScores = p.betScores ∧
      (f p).remainScore = p.remainScore ∧ (f p).remainMoney = p.remainMoney) :
    c.Open (s.alter i f) := by
  have player : ∀ j, ((s.alter i f).player j).betScore = (s.player j).betScore ∧
      ((s.alter i f).player j).Honest c j := by
    intro j
    by_cases at_i : j = i
    · subst at_i
      obtain ⟨bet, bets, score, money⟩ := same (s.player j)
      have there : (s.alter j f).player j = f (s.player j) := Function.update_self ..
      rw [there]
      have honest := h.honest j
      exact ⟨bet, by rw [bets, bet, honest.bets], by rw [money, bets, honest.money],
        by rw [score, bet, honest.score]⟩
    · have there : (s.alter i f).player j = s.player j := Function.update_of_ne at_i ..
      rw [there]
      exact ⟨rfl, h.honest j⟩
  refine ⟨h.desk, ?_, fun j => (player j).2, h.unpaid⟩
  rw [List.map_congr_left fun j _ => (player j).1]
  exact h.pot

theorem Open.pay (h : c.Open s) (gamer : i ∈ c.gamers) : c.Open (s.pay c i score) := by
  have here : (s.pay c i score).player i = (s.player i).pay c score := Function.update_self ..
  have others : ∀ j, j ≠ i → (s.pay c i score).player j = s.player j := fun j other =>
    Function.update_of_ne other ..
  refine ⟨?_, ?_, fun j => ?_, h.unpaid⟩
  · show (s.deskScores ++ [score]).sum = s.allScore + score
    rw [List.sum_append, h.desk, List.sum_singleton]
  · show _ = s.allScore + score
    rw [← h.pot]
    exact sum_map_update c.chairs gamer (by rw [here]; rfl) fun j other => by rw [others j other]
  · by_cases at_i : j = i
    · subst at_i
      have honest := h.honest j
      rw [here]
      refine ⟨?_, ?_, ?_⟩
      · show ((s.player j).betScores ++ [score]).sum = _
        rw [List.sum_append, honest.bets, List.sum_singleton]
        rfl
      · show (s.player j).remainMoney - c.scoreMoney score =
          c.oldMoney j - (((s.player j).betScores ++ [score]).map c.scoreMoney).sum
        rw [honest.money, List.map_append, List.sum_append, List.map_singleton, List.sum_singleton]
        omega
      · show (s.player j).remainScore - score =
          c.moneyScore (c.oldMoney j) - ((s.player j).betScore + score)
        rw [honest.score]
        omega
    · rw [others j at_i]
      exact h.honest j

/-! ### The balance -/

theorem Open.gameBalance (h : c.Open s) {winner : Option Nat}
    (inside : ∀ w ∈ winner, w ∈ c.gamers) : c.Kept (c.gameBalance s winner).1 := by
  have stopped : c.Open { s with
      clockTimer := none, compareWaitingTimer := none, playing := false } :=
    h.congr rfl rfl rfl rfl
  unfold Round.gameBalance
  dsimp only
  split
  · exact .inl stopped
  · rename_i w found
    refine .inr ⟨_, stopped, rfl, rfl, rfl, w, ?_, rfl⟩
    rcases Option.or_eq_some_iff.1 found with found | ⟨-, found⟩
    · exact inside w found
    · exact List.mem_of_find?_eq_some found

theorem mem_of_compareEachOther {lua : LuaSort} {w : Nat}
    (found : ((c.table s).compareEachOther lua).map Gamer.chair = some w) : w ∈ c.gamers := by
  obtain ⟨g, best, rfl⟩ := Option.map_eq_some_iff.1 found
  have there := ((Table.bestOf_iff List.filter_sublist).1 best).1
  obtain ⟨i, gamer, rfl⟩ := List.mem_map.1 (List.mem_of_mem_filter there)
  exact gamer

/-! ### The turns -/

theorem Open.nextRound (h : c.Open s) (lua : LuaSort) : c.Kept (c.nextRound lua s).1.1 ∧
    ((c.nextRound lua s).2 = true → c.Open (c.nextRound lua s).1.1) := by
  have later : c.Open { s with roundTurnCount := 0, betRound := s.betRound + 1 } :=
    h.congr rfl rfl rfl rfl
  unfold Round.nextRound
  dsimp only
  split
  · split
    · split
      · exact ⟨later.gameBalance fun w => mem_of_compareEachOther, by simp⟩
      · exact ⟨.inl later, fun _ => later⟩
    · exact ⟨.inl h, fun _ => h⟩
  · exact ⟨h.gameBalance fun w => mem_of_compareEachOther, by simp⟩

theorem Open.nextTurn (h : c.Open s) (lua : LuaSort) : c.Kept (c.nextTurn lua s).1 := by
  rw [Round.nextTurn]
  split
  · exact .inl h
  · rename_i chair _
    have moved : c.Open { s with
        curChair := chair, roundTurnCount := s.roundTurnCount + 1 } := h.congr rfl rfl rfl rfl
    have next := moved.nextRound lua
    dsimp only
    split
    · rename_i goes_on
      exact .inl (next.2 goes_on).startPlayerTurn
    · exact next.1

theorem Open.dropOut (h : c.Open s) (lua : LuaSort) {status : PlayerStatus} :
    c.Kept (c.dropOut lua s i status).1 := by
  have out : c.Open (s.alter i fun p => p.out status) := h.alter fun p => ⟨rfl, rfl, rfl, rfl⟩
  rw [Round.dropOut]
  split
  · exact out.gameBalance (by simp)
  · exact out.nextTurn lua

theorem Open.allInShowdown (h : c.Open s) (lua : LuaSort) (gamer : i ∈ c.gamers) :
    c.Kept (c.allInShowdown lua s i).1 := by
  have bet : c.Open (s.alter i Player.betAll) := h.alter fun p => ⟨rfl, rfl, rfl, rfl⟩
  rw [Round.allInShowdown]
  split
  · refine bet.gameBalance fun w same => ?_
    cases same
    exact gamer
  · exact bet.dropOut lua

/-! ### The requests -/

theorem gamer_of_accepts {action : Action} (refused : ¬(!c.accepts s i action) = true) :
    i ∈ c.gamers := by
  have accepted : c.accepts s i action = true := by simpa using refused
  exact List.contains_iff_mem.1 (Bool.and_eq_true_iff.1 accepted).1

theorem Open.follow (h : c.Open s) (lua : LuaSort) : c.Kept (c.follow lua s i).1 := by
  rw [Round.follow]
  split
  · exact .inl h
  · rename_i accepted
    have gamer := gamer_of_accepts accepted
    dsimp only
    split
    · exact (h.clear.pay gamer).allInShowdown lua gamer
    · exact (h.clear.pay gamer).nextTurn lua

theorem Open.allIn (h : c.Open s) (lua : LuaSort) : c.Kept (c.allIn lua s i).1 := by
  rw [Round.allIn]
  split
  · exact .inl h
  · rename_i accepted
    have gamer := gamer_of_accepts accepted
    exact (h.clear.pay gamer).allInShowdown lua gamer

theorem Open.addScore (h : c.Open s) (lua : LuaSort) : c.Kept (c.addScore lua s i score).1 := by
  rw [Round.addScore]
  split
  · exact .inl h
  · rename_i accepted
    have gamer := gamer_of_accepts accepted
    have raised : c.Open { s.clear with lastScore := score } := h.congr rfl rfl rfl rfl
    split
    · exact .inl h
    · dsimp only
      generalize (if (s.player i).isLookCards = true then score * 2 else score) = scoreAdd
      split
      · exact (raised.pay gamer).allInShowdown lua gamer
      · split
        · exact .inl h.clear
        · exact (raised.pay gamer).nextTurn lua

theorem Open.giveUp (h : c.Open s) (lua : LuaSort) : c.Kept (c.giveUp lua s i).1 := by
  rw [Round.giveUp]
  split
  · exact .inl h
  · split
    · exact .inl h
    · exact h.clear.dropOut lua

theorem Open.lookCard (h : c.Open s) : c.Kept (c.lookCard s i).1 := by
  rw [Round.lookCard]
  split
  · exact .inl h
  · have looked : c.Open (s.clear.alter i Player.look) := h.clear.alter fun p => ⟨rfl, rfl, rfl, rfl⟩
    exact .inl looked.startPlayerTurn

theorem Open.compare (h : c.Open s) {compareWith : Nat} : c.Kept (c.compare s i compareWith).1 := by
  rw [Round.compare]
  split
  · exact .inl h
  · rename_i accepted
    have paid : c.Open (s.clear.pay c i (c.compareScore s i)) :=
      h.clear.pay (gamer_of_accepts accepted)
    split
    · exact .inl h
    · split
      · exact .inl h
      · dsimp only
        split
        · exact .inl paid
        · have lost : ∀ j, c.Open ((s.clear.pay c i (c.compareScore s i)).alter j fun p =>
              p.out .lose) := fun j => paid.alter fun p => ⟨rfl, rfl, rfl, rfl⟩
          exact .inl ((lost _).congr rfl rfl rfl rfl)

theorem Open.autoAction (h : c.Open s) (lua : LuaSort) {actions : Actions} :
    c.Kept (c.autoAction lua s i actions).1 := by
  rw [Round.autoAction]
  split
  · exact h.giveUp lua
  · split
    · exact h.follow lua
    · exact .inl h

/-- One step keeps the books, whatever is asked for. -/
theorem Open.step (h : c.Open s) (lua : LuaSort) (r : Request) : c.Kept (c.step lua s r).1 := by
  cases r with
  | follow i => exact h.follow lua
  | allIn i => exact h.allIn lua
  | addScore i score => exact h.addScore lua
  | giveUp i => exact h.giveUp lua
  | lookCard i => exact h.lookCard
  | compare i compareWith => exact h.compare
  | clock =>
      rw [Round.step]
      split
      · exact .inl h
      · have idle : c.Open { s with clockTimer := none } := h.congr rfl rfl rfl rfl
        exact idle.autoAction lua
  | animated =>
      have idle : c.Open { s with compareWaitingTimer := none } := h.congr rfl rfl rfl rfl
      rw [Round.step]
      split
      · exact .inl h
      · exact idle.nextTurn lua
      · exact idle.gameBalance (by simp)
  | sitDown i | standUp i =>
      rw [Round.step]
      split
      · exact .inl h
      · exact .inl (h.congr rfl rfl rfl rfl)

/-! ### After the balance -/

/-- What `s` and `s'` have in common when only the watchers change. -/
def SameRound (s' s : State) : Prop := ∃ watchers, s' = { s with watchers := watchers }

/-- Where nothing is waited for, a request changes nothing but the watchers. -/
theorem step_idle (lua : LuaSort) (r : Request) (refuses : ∀ i action, c.accepts s i action = false)
    (clock : s.clockTimer = none) (waiting : s.compareWaitingTimer = none) :
    SameRound (c.step lua s r).1 s := by
  cases r with
  | follow i | allIn i | addScore i score | giveUp i | lookCard i | compare i compareWith =>
      refine ⟨s.watchers, ?_⟩
      simp [Round.step, Round.follow, Round.allIn, Round.addScore, Round.giveUp, Round.lookCard,
        Round.compare, refuses]
  | clock =>
      have idle : c.step lua s .clock = (s, .done) := by simp only [Round.step, clock]
      exact ⟨s.watchers, congrArg Prod.fst idle⟩
  | animated =>
      have idle : c.step lua s .animated = (s, .done) := by simp only [Round.step, waiting]
      exact ⟨s.watchers, congrArg Prod.fst idle⟩
  | sitDown i | standUp i =>
      rw [Round.step]
      split
      · exact ⟨s.watchers, rfl⟩
      · exact ⟨_, rfl⟩

theorem refuses_stopped (stopped : s.playing = false) (i : Nat) (action : Action) :
    c.accepts s i action = false := by
  rw [accepts, State.checkPlayerAction, stopped]
  simp

theorem foldl_stopped (lua : LuaSort) (requests : List Request) (stopped : s.playing = false)
    (clock : s.clockTimer = none) (waiting : s.compareWaitingTimer = none) :
    SameRound (requests.foldl (fun s r => (c.step lua s r).1) s) s := by
  induction requests generalizing s with
  | nil => exact ⟨s.watchers, rfl⟩
  | cons r rest ih =>
      obtain ⟨watchers, same⟩ := step_idle lua r (refuses_stopped stopped) clock waiting
      rw [List.foldl_cons, same]
      obtain ⟨later, same⟩ := ih (s := { s with watchers := watchers }) stopped clock waiting
      exact ⟨later, same⟩

theorem Settled.foldl (h : c.Settled s) (lua : LuaSort) (requests : List Request) :
    SameRound (requests.foldl (fun s r => (c.step lua s r).1) s) s := by
  obtain ⟨s₀, -, stopped, clock, waiting, winner, -, rfl⟩ := h
  exact foldl_stopped lua requests stopped clock waiting

theorem Settled.same (h : c.Settled s) (same : SameRound s' s) : c.Settled s' := by
  obtain ⟨watchers, rfl⟩ := same
  obtain ⟨s₀, books, stopped, clock, waiting, winner, gamer, rfl⟩ := h
  exact ⟨{ s₀ with watchers := watchers }, books.congr rfl rfl rfl rfl, stopped, clock, waiting,
    winner, gamer, rfl⟩

theorem Kept.foldl (h : c.Kept s) (lua : LuaSort) (requests : List Request) :
    c.Kept (requests.foldl (fun s r => (c.step lua s r).1) s) := by
  induction requests generalizing s with
  | nil => exact h
  | cons r rest ih =>
      rw [List.foldl_cons]
      rcases h with books | settled
      · exact ih (books.step lua r)
      · exact ih (.inr (settled.same (settled.foldl lua [r])))

/-! ### The start -/

theorem Open.betBaseScore (h : c.Open s) : c.Open (c.betBaseScore s) := by
  have antes : ∀ l ⊆ c.gamers, ∀ {s : State}, c.Open s → c.Open (l.foldl (fun s i =>
      s.pay c i (c.guardScore (s.player i) (c.baseMenScore.getD c.baseScore))) s) := by
    intro l
    induction l with
    | nil => exact fun _ _ books => books
    | cons i rest ih =>
        intro inside s books
        obtain ⟨gamer, inside⟩ := List.cons_subset.1 inside
        exact ih inside (books.pay gamer)
  exact antes c.gamers (List.Subset.refl _) h

end Round

end FkServer.Zhajinhua
