import FkServer.Land.Table
import FkServer.Library.Runs
import Mathlib.Data.List.Iterate

/-!
The bidding for the landlord over whole runs. On the first turn round the table the
accepted actions stand in the log in the order of the chairs; from that order and from
what the two modes refuse follow who becomes landlord and that the bidding goes on.
-/
namespace FkServer.Land

open Rotation

theorem Conf.first_mem (c : Conf) : c.competeFirst ∈ places c.startCount := c.first_in

theorem Conf.mem_chairs (c : Conf) (chair : Nat) :
    chair ∈ c.chairs ↔ chair ∈ places c.startCount := by
  simp only [Conf.chairs, List.mem_range'_1, places, Set.mem_ofPred_eq]
  omega

theorem Conf.startCount_pos (c : Conf) : 0 < c.startCount := by
  cases c.players with
  | inl two => omega
  | inr three => omega

/-! ### The first turn round the table -/

/-- The chair that acts after `k` others. -/
def Conf.turnOf (c : Conf) (k : Nat) : Nat := (forward c.startCount)^[k] c.competeFirst

theorem Conf.turnOf_succ (c : Conf) (k : Nat) :
    c.turnOf (k + 1) = forward c.startCount (c.turnOf k) :=
  Function.iterate_succ_apply' _ _ _

theorem Conf.turnOf_mem (c : Conf) (k : Nat) : c.turnOf k ∈ places c.startCount := by
  cases k with
  | zero => exact c.first_mem
  | succ k =>
      rw [c.turnOf_succ]
      exact forward_mem c.startCount_pos _

/-- Nobody has acted twice, and the next chair in the order is on turn. -/
structure FirstRound (c : Conf) (s : State) : Prop where
  order : s.landlordCompete.map Prod.fst =
    List.iterate (forward c.startCount) c.competeFirst s.landlordCompete.length
  short : s.landlordCompete.length < c.startCount
  cur : s.curCompeter = some (c.turnOf s.landlordCompete.length)
  written : ∀ chair action,
    s.landlordCompetitions chair = some action ↔ (chair, action) ∈ s.landlordCompete

theorem FirstRound.acted_iff {c : Conf} {s : State} (first : FirstRound c s) (chair : Nat) :
    (s.landlordCompetitions chair).isSome ↔
      ∃ k, k < s.landlordCompete.length ∧ c.turnOf k = chair := by
  have listed : chair ∈ s.landlordCompete.map Prod.fst ↔
      ∃ k, k < s.landlordCompete.length ∧ c.turnOf k = chair := by
    rw [first.order, List.mem_iterate]
    exact exists_congr fun k => and_congr_right fun _ => eq_comm
  rw [← listed, Option.isSome_iff_exists, List.mem_map]
  constructor
  · intro h
    cases h with
    | intro action written => exact ⟨(chair, action), (first.written _ _).1 written, rfl⟩
  · intro h
    cases h with
    | intro entry found => exact ⟨entry.2, (first.written _ _).2 (found.2 ▸ found.1)⟩

theorem FirstRound.not_acted {c : Conf} {s : State} (first : FirstRound c s) :
    s.landlordCompetitions (c.turnOf s.landlordCompete.length) = none := by
  apply Option.not_isSome_iff_eq_none.1
  intro acted
  obtain ⟨k, before, same⟩ := (first.acted_iff _).1 acted
  have := iterate_forward_inj c.first_mem (Nat.lt_trans before first.short) first.short same
  omega

theorem started_first_round (c : Conf) (rnd : Nat → Nat) : FirstRound c (doGameStart c rnd) where
  order := rfl
  short := c.startCount_pos
  cur := rfl
  written := fun _ _ => by simp [doGameStart]

/-- What an accepted action writes, before anybody else is put on turn. -/
structure Recorded (s t : State) (chair : Nat) (action : Int) : Prop where
  log : t.landlordCompete = s.landlordCompete ++ [(chair, action)]
  competitions :
    t.landlordCompetitions = Function.update s.landlordCompetitions chair (some action)
  last : t.lastLandlordCometition = some action
  status : t.status = s.status
  landlord : t.landlord = s.landlord

section Recorded

variable {c : Conf} {s t u : State} {chair : Nat} {action : Int}

theorem Recorded.order (recorded : Recorded s t chair action) (first : FirstRound c s)
    (on_turn : s.curCompeter = some chair) :
    t.landlordCompete.map Prod.fst =
      List.iterate (forward c.startCount) c.competeFirst t.landlordCompete.length := by
  have here : c.turnOf s.landlordCompete.length = chair :=
    Option.some.inj (first.cur.symm.trans on_turn)
  rw [recorded.log, List.map_append, first.order, List.length_append, List.length_singleton,
    List.iterate_add]
  exact congrArg _ (congrArg (fun chair => [chair]) here.symm)

theorem Recorded.written (recorded : Recorded s t chair action) (first : FirstRound c s)
    (on_turn : s.curCompeter = some chair) (other : Nat) (done : Int) :
    t.landlordCompetitions other = some done ↔ (other, done) ∈ t.landlordCompete := by
  have here : c.turnOf s.landlordCompete.length = chair :=
    Option.some.inj (first.cur.symm.trans on_turn)
  have fresh : s.landlordCompetitions chair = none := here ▸ first.not_acted
  rw [recorded.log, recorded.competitions, List.mem_append, List.mem_singleton, Prod.mk.injEq,
    ← first.written]
  by_cases same : other = chair
  · rw [same, Function.update_self, fresh]
    simp [eq_comm]
  · rw [Function.update_of_ne same]
    simp [same]

/-- The turn goes to the next chair in the order, unless everybody has acted. -/
theorem Recorded.goOn_first (recorded : Recorded s t chair action) (first : FirstRound c s)
    (on_turn : s.curCompeter = some chair) (more : allCompeted c t = false) :
    ∃ u, goOn c t chair = .next u ∧ FirstRound c u ∧
      u = { t with curCompeter := some (c.turnOf t.landlordCompete.length) } := by
  have here : c.turnOf s.landlordCompete.length = chair :=
    Option.some.inj (first.cur.symm.trans on_turn)
  have longer : t.landlordCompete.length = s.landlordCompete.length + 1 := by
    rw [recorded.log, List.length_append, List.length_singleton]
  have next : c.turnOf t.landlordCompete.length = forward c.startCount chair := by
    rw [longer, c.turnOf_succ, here]
  have short : t.landlordCompete.length < c.startCount := by
    apply Nat.lt_of_not_le
    intro full
    apply Bool.eq_false_iff.1 more
    apply List.all_eq_true.2
    intro other inside
    obtain ⟨k, within, met⟩ := forward_meets c.first_mem ((c.mem_chairs _).1 inside)
    have listed : other ∈ t.landlordCompete.map Prod.fst := by
      rw [recorded.order first on_turn, List.mem_iterate]
      exact ⟨k, Nat.lt_of_lt_of_le within full, met.symm⟩
    obtain ⟨entry, mem, rfl⟩ := List.mem_map.1 listed
    rw [(recorded.written first on_turn _ _).2 mem]
    rfl
  have after : FirstRound c { t with curCompeter := some (c.turnOf t.landlordCompete.length) } :=
    ⟨recorded.order first on_turn, short, rfl, recorded.written first on_turn⟩
  have stops : competes c t (forward c.startCount chair) = true := by
    unfold competes
    rw [← next, show t.landlordCompetitions _ = none from after.not_acted]
    simp [c.mem_chairs, c.turnOf_mem]
  refine ⟨_, ?_, after, rfl⟩
  unfold goOn nextLandlordCompeter
  rw [seek_next c.startCount_pos stops, next]
  rfl

theorem Recorded.inside (recorded : Recorded s t chair action) (first : FirstRound c s)
    (on_turn : s.curCompeter = some chair) :
    ∀ entry, entry ∈ t.landlordCompete → entry.1 ∈ c.chairs := by
  intro entry mem
  have listed : entry.1 ∈ t.landlordCompete.map Prod.fst := List.mem_map_of_mem mem
  rw [recorded.order first on_turn, List.mem_iterate] at listed
  obtain ⟨k, _, met⟩ := listed
  rw [met, c.mem_chairs]
  exact c.turnOf_mem k

theorem Recorded.all_acted (recorded : Recorded s t chair action) (first : FirstRound c s)
    (on_turn : s.curCompeter = some chair) (all : allCompeted c t = true) :
    c.startCount ≤ t.landlordCompete.length := by
  have listed : c.chairs ⊆ t.landlordCompete.map Prod.fst := by
    intro other inside
    obtain ⟨done, written⟩ := Option.isSome_iff_exists.1 (List.all_eq_true.1 all other inside)
    exact List.mem_map_of_mem ((recorded.written first on_turn _ _).1 written)
  have le := (List.subperm_of_subset List.nodup_range' listed).length_le
  rwa [List.length_map, List.length_range'] at le

/-- The greatest entry, in whatever order Lua meets the entries. -/
theorem Recorded.max_spec (recorded : Recorded s t chair action) (first : FirstRound c s)
    (on_turn : s.curCompeter = some chair) {best : Nat × Int}
    (max : maxCompetition c t = some best) :
    best ∈ t.landlordCompete ∧ ∀ entry, entry ∈ t.landlordCompete → entry.2 ≤ best.2 := by
  have listed : ∀ entry : Nat × Int, entry ∈ t.landlordCompete ↔
      entry ∈ c.pairs (c.chairs.filterMap fun chair =>
        (t.landlordCompetitions chair).map fun action => (chair, action)) := by
    intro entry
    rw [(c.pairs_perm _).mem_iff, List.mem_filterMap]
    simp only [Option.map_eq_some_iff]
    constructor
    · intro mem
      exact ⟨entry.1, recorded.inside first on_turn entry mem, entry.2,
        (recorded.written first on_turn _ _).2 mem, rfl⟩
    · intro found
      obtain ⟨other, _, done, written, rfl⟩ := found
      exact (recorded.written first on_turn _ _).1 written
  exact ⟨(listed _).2 (List.argmax_mem max), fun entry mem =>
    List.le_of_mem_argmax ((listed _).1 mem) max⟩

end Recorded

/-! ### Bidding in points -/

/-- The accepted actions that are no passes. -/
def bids (s : State) : List (Nat × Int) := s.landlordCompete.filter fun bid => bid.2 ≠ -4

/-- The bids rise, and whoever becomes landlord has made the highest one. -/
structure HighestBidWins (s : State) : Prop where
  rising : (bids s).Pairwise fun bid later => bid.2 < later.2
  highest : ∀ chair, s.landlord = some chair →
    (chair, s.baseScore) ∈ bids s ∧ ∀ bid, bid ∈ bids s → bid.2 ≤ s.baseScore

/-- A zero is no bid, and after a pass the standing bid still has to be raised. -/
def Raises (s : State) (r : Request) : Prop :=
  ∀ action, r.action = some action → action ≠ 0 ∧
    (s.lastLandlordCometition = some (-4) → bids s ≠ [] → action = -4 ∨ s.baseScore < action)

theorem scored_recorded (s : State) (chair : Nat) (action : Int) :
    Recorded s (scored s chair action) chair action :=
  ⟨rfl, rfl, rfl, rfl, rfl⟩

theorem score_cases {c : Conf} {s s' : State} {chair : Nat} {action : Int} {rnd : Nat → Nat}
    (h : doCompeteLandlordScore c s chair action rnd = .next s') :
    refusesScore c s chair action = false ∧
    (((scored s chair action).baseScore = 3 ∧
        s' = onCompeteLandlordOver (scored s chair action) s.curCompeter) ∨
      ((scored s chair action).baseScore ≠ 3 ∧
        ((allCompeted c (scored s chair action) = true ∧
            (s' = doGameStart c rnd ∨
              (maxCompetition c (scored s chair action)).map Prod.snd ≠ some (-4) ∧
              s' = onCompeteLandlordOver (scored s chair action)
                ((maxCompetition c (scored s chair action)).map Prod.fst))) ∨
          (allCompeted c (scored s chair action) = false ∧
            goOn c (scored s chair action) chair = .next s')))) := by
  unfold doCompeteLandlordScore at h
  split at h
  · cases h
  · rename_i accepted
    refine ⟨Bool.eq_false_iff.2 accepted, ?_⟩
    split at h
    · rename_i three
      cases h
      exact .inl ⟨three, rfl⟩
    · rename_i open_
      refine .inr ⟨open_, ?_⟩
      split at h
      · rename_i all
        refine .inl ⟨all, ?_⟩
        split at h
        · cases h
          exact .inl rfl
        · rename_i above
          cases h
          exact .inr ⟨above, rfl⟩
      · rename_i more
        exact .inr ⟨Bool.eq_false_iff.2 more, h⟩

/-- The bids made so far and the score they stand for. -/
structure Standing (s : State) : Prop where
  top : ∀ bid, bid ∈ bids s → bid.2 ≤ s.baseScore
  held : bids s ≠ [] → ∃ chair, (chair, s.baseScore) ∈ bids s
  last : ∀ last, s.lastLandlordCometition = some last →
    last = -4 ∨ (bids s ≠ [] ∧ last = s.baseScore)

theorem bids_pass (s : State) (chair : Nat) : bids (scored s chair (-4)) = bids s := by
  simp [bids, scored, record]

theorem bids_raise (s : State) (chair : Nat) {action : Int} (bid : action ≠ -4) :
    bids (scored s chair action) = bids s ++ [(chair, action)] := by
  simp [bids, scored, record, bid]

theorem Standing.pass {s : State} (standing : Standing s) (chair : Nat) :
    Standing (scored s chair (-4)) where
  top := by
    rw [bids_pass]
    exact standing.top
  held := by
    rw [bids_pass]
    exact standing.held
  last := fun _ same => .inl (Option.some.inj same).symm

theorem Standing.raise {s : State} (standing : Standing s) (chair : Nat) {action : Int}
    (pos : 0 < action) (above : bids s = [] ∨ s.baseScore < action) :
    Standing (scored s chair action) where
  top := by
    intro bid mem
    rw [bids_raise s chair (by omega), List.mem_append, List.mem_singleton] at mem
    change bid.2 ≤ if 0 < action then action else s.baseScore
    rw [if_pos pos]
    cases mem with
    | inl earlier =>
        have le := standing.top bid earlier
        cases above with
        | inl nobody =>
            rw [nobody] at earlier
            cases earlier
        | inr above => omega
    | inr this =>
        rw [this]
  held := by
    intro _
    refine ⟨chair, ?_⟩
    rw [bids_raise s chair (by omega)]
    change (chair, if 0 < action then action else s.baseScore) ∈ _
    rw [if_pos pos]
    exact List.mem_append_right _ (List.mem_singleton.2 rfl)
  last := by
    intro last same
    refine .inr ⟨?_, ?_⟩
    · rw [bids_raise s chair (by omega)]
      exact List.append_ne_nil_of_right_ne_nil _ (List.cons_ne_nil _ _)
    · change last = if 0 < action then action else s.baseScore
      rw [if_pos pos]
      exact (Option.some.inj same).symm

/-- Where the bidding in points stands. A negative first action other than a pass is the
only one of its deal. -/
structure Bidding (c : Conf) (s : State) : Prop where
  first : FirstRound c s
  undecided : s.landlord = none
  unfinished : s.baseScore ≠ 3
  rising : (bids s).Pairwise fun bid later => bid.2 < later.2
  opening : s.lastLandlordCometition = none → s.landlordCompete = []
  standing : (∃ last, s.lastLandlordCometition = some last ∧ last < 0 ∧ last ≠ -4) ∨ Standing s

theorem started_bidding (c : Conf) (rnd : Nat → Nat) : Bidding c (doGameStart c rnd) where
  first := started_first_round c rnd
  undecided := rfl
  unfinished := show (1 : Int) ≠ 3 by decide
  rising := .nil
  opening := fun _ => rfl
  standing := .inr
    { top := fun _ mem => absurd mem List.not_mem_nil
      held := fun some_bid => absurd rfl some_bid
      last := fun _ same => absurd same (Option.some_ne_none _).symm }

theorem over_wins {s : State} {landlord : Option Nat}
    (rising : (bids s).Pairwise fun bid later => bid.2 < later.2)
    (highest : ∀ chair, landlord = some chair →
      (chair, s.baseScore) ∈ bids s ∧ ∀ bid, bid ∈ bids s → bid.2 ≤ s.baseScore) :
    HighestBidWins (onCompeteLandlordOver s landlord) :=
  ⟨rising, highest⟩

/-- An accepted action that meets the condition raises the bid, passes, or is the
negative first one. -/
theorem accepted_cases {c : Conf} {s : State} {chair : Nat} {action : Int}
    (bidding : Bidding c s) (accepted : refusesScore c s chair action = false)
    (zero : action ≠ 0)
    (raises : s.lastLandlordCometition = some (-4) → bids s ≠ [] →
      action = -4 ∨ s.baseScore < action) :
    (action < 0 ∧ action ≠ -4 ∧ s.landlordCompete = []) ∨
      Standing s ∧ (action = -4 ∨ 0 < action ∧ (bids s = [] ∨ s.baseScore < action)) := by
  cases opened : s.lastLandlordCometition with
  | none =>
      have empty := bidding.opening opened
      have nobody : bids s = [] := by rw [bids, empty, List.filter_nil]
      cases bidding.standing with
      | inl negative =>
          obtain ⟨last, same, _⟩ := negative
          rw [opened] at same
          cases same
      | inr standing =>
          by_cases negative : action < 0 ∧ action ≠ -4
          · exact .inl ⟨negative.1, negative.2, empty⟩
          · refine .inr ⟨standing, ?_⟩
            have : action = -4 ∨ 0 < action := by omega
            exact this.imp_right fun pos => ⟨pos, .inl nobody⟩
  | some last =>
      unfold refusesScore at accepted
      rw [opened, Option.any_some, decide_eq_false_iff_not] at accepted
      have passed : last = -4 ∨ 0 ≤ last := by omega
      have above : action = -4 ∨ 0 ≤ action ∧ last < action := by omega
      cases bidding.standing with
      | inl negative =>
          obtain ⟨other, same, below, not_pass⟩ := negative
          cases opened.symm.trans same
          omega
      | inr standing =>
          refine .inr ⟨standing, above.imp_right fun above => ⟨by omega, ?_⟩⟩
          by_cases nobody : bids s = []
          · exact .inl nobody
          · refine .inr ?_
            cases standing.last last opened with
            | inl pass =>
                subst pass
                have := raises opened nobody
                omega
            | inr bid =>
                rw [← bid.2]
                exact above.2

theorem rising_raise {s : State} (chair : Nat) {action : Int}
    (rising : (bids s).Pairwise fun bid later => bid.2 < later.2) (bid : action ≠ -4)
    (above : ∀ bid, bid ∈ bids s → bid.2 < action) :
    (bids (scored s chair action)).Pairwise fun bid later => bid.2 < later.2 := by
  rw [bids_raise s chair bid, List.pairwise_append]
  refine ⟨rising, List.pairwise_singleton _ _, ?_⟩
  intro earlier mem this here
  rw [List.mem_singleton.1 here]
  exact above earlier mem

/-- In points mode the bidding goes on, or somebody has won it. -/
def ScoreInv (c : Conf) (s : State) : Prop :=
  Bidding c s ∨ (s.curCompeter = none ∧ HighestBidWins s)

theorem Bidding.goOn {c : Conf} {s s' : State} {chair : Nat} {action : Int}
    (bidding : Bidding c s) (on_turn : s.curCompeter = some chair)
    (unfinished : (scored s chair action).baseScore ≠ 3)
    (rising : (bids (scored s chair action)).Pairwise fun bid later => bid.2 < later.2)
    (standing : (action < 0 ∧ action ≠ -4) ∨ Standing (scored s chair action))
    (more : allCompeted c (scored s chair action) = false)
    (h : Land.goOn c (scored s chair action) chair = .next s') : Bidding c s' := by
  obtain ⟨u, next, first, rfl⟩ :=
    (scored_recorded s chair action).goOn_first bidding.first on_turn more
  cases next.symm.trans h
  refine ⟨first, bidding.undecided, unfinished, rising, fun opened => absurd opened (Option.some_ne_none _), ?_⟩
  cases standing with
  | inl negative => exact .inl ⟨action, rfl, negative⟩
  | inr standing => exact .inr ⟨standing.top, standing.held, standing.last⟩

/-- Everybody has acted and somebody has bid. -/
theorem Bidding.greatest {c : Conf} {s : State} {chair : Nat} {action : Int}
    (bidding : Bidding c s) (on_turn : s.curCompeter = some chair)
    (standing : Standing (scored s chair action)) {best : Nat × Int}
    (max : maxCompetition c (scored s chair action) = some best) (some_bid : best.2 ≠ -4) :
    (best.1, (scored s chair action).baseScore) ∈ bids (scored s chair action) := by
  obtain ⟨mem, greatest⟩ :=
    (scored_recorded s chair action).max_spec bidding.first on_turn max
  have bid : best ∈ bids (scored s chair action) :=
    List.mem_filter.2 ⟨mem, decide_eq_true some_bid⟩
  obtain ⟨other, held⟩ := standing.held (List.ne_nil_of_mem bid)
  have le : best.2 ≤ (scored s chair action).baseScore := standing.top best bid
  have ge : (scored s chair action).baseScore ≤ best.2 := greatest _ (List.mem_filter.1 held).1
  rw [← Int.le_antisymm le ge]
  exact bid

theorem ScoreInv.step {c : Conf} {s s' : State} {chair : Nat} {action : Int} {rnd : Nat → Nat}
    (bidding : Bidding c s) (on_turn : s.curCompeter = some chair) (zero : action ≠ 0)
    (raises : s.lastLandlordCometition = some (-4) → bids s ≠ [] →
      action = -4 ∨ s.baseScore < action)
    (h : doCompeteLandlordScore c s chair action rnd = .next s') : ScoreInv c s' := by
  obtain ⟨accepted, after⟩ := score_cases h
  cases accepted_cases bidding accepted zero raises with
  | inl negative =>
      obtain ⟨below, not_pass, empty⟩ := negative
      have same : (scored s chair action).baseScore = s.baseScore := if_neg (by omega)
      have rising := rising_raise chair bidding.rising not_pass
        (by rw [bids, empty]; intro bid mem; cases mem)
      cases after with
      | inl three => exact absurd (same.symm.trans three.1) bidding.unfinished
      | inr after =>
          obtain ⟨unfinished, after⟩ := after
          cases after with
          | inl all =>
              -- one action alone is not everybody's
              have long := (scored_recorded s chair action).all_acted bidding.first on_turn all.1
              rw [(scored_recorded s chair action).log, empty] at long
              have := c.players
              simp only [List.nil_append, List.length_singleton] at long
              omega
          | inr more =>
              exact .inl (bidding.goOn on_turn unfinished rising (.inl ⟨below, not_pass⟩) more.1 more.2)
  | inr bid =>
      obtain ⟨before, bid⟩ := bid
      have standing : Standing (scored s chair action) := by
        cases bid with
        | inl pass =>
            subst pass
            exact before.pass chair
        | inr raise => exact before.raise chair raise.1 raise.2
      have rising : (bids (scored s chair action)).Pairwise fun bid later => bid.2 < later.2 := by
        cases bid with
        | inl pass =>
            subst pass
            rw [bids_pass]
            exact bidding.rising
        | inr raise =>
            apply rising_raise chair bidding.rising (by omega)
            intro bid mem
            have le := before.top bid mem
            cases raise.2 with
            | inl nobody =>
                rw [nobody] at mem
                cases mem
            | inr above => omega
      cases after with
      | inl three =>
          obtain ⟨three, rfl⟩ := three
          refine .inr ⟨rfl, over_wins rising ?_⟩
          intro winner same
          cases on_turn.symm.trans same
          refine ⟨?_, standing.top⟩
          cases bid with
          | inl pass =>
              subst pass
              exact absurd three bidding.unfinished
          | inr raise =>
              rw [bids_raise s chair (by omega), show (scored s chair action).baseScore = action from
                if_pos raise.1]
              exact List.mem_append_right _ (List.mem_singleton.2 rfl)
      | inr after =>
          obtain ⟨unfinished, after⟩ := after
          cases after with
          | inl all =>
              obtain ⟨_, redeal | ⟨above, rfl⟩⟩ := all
              · rw [redeal]
                exact .inl (started_bidding c rnd)
              · refine .inr ⟨rfl, over_wins rising ?_⟩
                intro winner same
                obtain ⟨best, max, rfl⟩ := Option.map_eq_some_iff.1 same
                rw [max, Option.map_some, ne_eq, Option.some_inj] at above
                exact ⟨bidding.greatest on_turn standing max above, standing.top⟩
          | inr more =>
              exact .inl (bidding.goOn on_turn unfinished rising (.inr standing) more.1 more.2)

theorem on_turn_of_step {c : Conf} {s s' : State} {r : Request} (h : Steps c s r s') :
    ∃ action, s.curCompeter = some r.chair ∧ r.action = some action ∧
      ¬(action < -4 ∨ 3 < action) ∧
      (if c.callLandlord then doCompeteLandlordNormal c s r.chair action r.rnd
        else doCompeteLandlordScore c s r.chair action r.rnd) = .next s' := by
  unfold Steps step doCompeteLandlord at h
  split at h
  · cases h
  · rename_i on_turn
    split at h
    · cases h
    · rename_i action given
      split at h
      · cases h
      · rename_i inside
        exact ⟨action, Decidable.not_not.1 on_turn, given, inside, h⟩

/-- In points mode the highest bidder becomes landlord for his bid, and every bid is
higher than the bids before it, as long as no bid is zero and the standing bid is raised
also after a pass. -/
theorem highest_bid_wins (c : Conf) (points : c.callLandlord = false) (s : State)
    (reached : Runs.Reaches (Started c) (Steps c) Raises s) : HighestBidWins s := by
  have inv := @Runs.Reaches.invariant _ _ _ _ _ (fun s => ScoreInv c s) _ reached
    (by
      rintro s ⟨rnd, rfl⟩
      exact .inl (started_bidding c rnd))
    (by
      intro s r s' inv raises move
      obtain ⟨action, on_turn, given, _, outcome⟩ := on_turn_of_step move
      rw [if_neg (by rw [points]; exact Bool.false_ne_true)] at outcome
      cases inv with
      | inl bidding =>
          exact ScoreInv.step bidding on_turn (raises action given).1 (raises action given).2 outcome
      | inr ended =>
          rw [ended.1] at on_turn
          cases on_turn)
  cases inv with
  | inl bidding =>
      exact ⟨bidding.rising, fun chair same =>
      absurd (bidding.undecided.symm.trans same) (Option.some_ne_none _).symm⟩
  | inr ended => exact ended.2

/-- Three players who bid in points. -/
def pointsConf : Conf where
  startCount := 3
  callLandlord := false
  sanDaMustCall := false
  competeFirst := 1
  pairs := id
  players := .inr rfl
  first_in := ⟨Nat.le_refl 1, by decide⟩
  pairs_perm := fun entries => List.Perm.refl entries

def noShuffle : Nat → Nat := fun _ => 0

/-- Chair 1 bids two points, and chair 2 passes. -/
def bidTwo : State := { scored (doGameStart pointsConf noShuffle) 1 2 with curCompeter := some 2 }

def passed : State := { scored bidTwo 2 (-4) with curCompeter := some 3 }

theorem passed_reached :
    Runs.Reaches (Started pointsConf) (Steps pointsConf) Raises passed := by
  have two : Runs.Reaches (Started pointsConf) (Steps pointsConf) Raises bidTwo :=
    .next ⟨1, some 2, noShuffle⟩ (.start ⟨noShuffle, rfl⟩)
      (fun action given => Option.some.inj given ▸
        ⟨by decide, fun passed => absurd passed (Option.some_ne_none _).symm⟩) rfl
  have accepted : doCompeteLandlordScore pointsConf bidTwo 2 (-4) noShuffle = .next passed := rfl
  have passes : doCompeteLandlord pointsConf bidTwo 2 (some (-4)) noShuffle = .next passed :=
    accepted
  refine .next ⟨2, some (-4), noShuffle⟩ two (fun action given => ?_) passes
  exact Option.some.inj given ▸ ⟨by decide, fun _ _ => .inl rfl⟩

/-- Three points are more than the two that stand, so chair 3 is the landlord. -/
theorem higher_bid_wins : ∃ s, s.landlord = some 3 ∧ HighestBidWins s := by
  have three := Runs.Reaches.next (Request.mk 3 (some 3) noShuffle) passed_reached
    (fun action given => Option.some.inj given ▸ ⟨by decide, fun _ _ => .inr (by decide)⟩) rfl
  exact ⟨_, rfl, highest_bid_wins pointsConf rfl _ three⟩

/-- One point is accepted there as well. -/
theorem lower_bid_after_pass :
    ¬ ∀ c : Conf, c.callLandlord = false → ∀ s,
      Runs.Reachable (Started c) (Steps c) s → HighestBidWins s := by
  intro claim
  have bid_one : Runs.Reachable (Started pointsConf) (Steps pointsConf)
      (onCompeteLandlordOver (scored passed 3 1) (some 1)) :=
    .next (Request.mk 3 (some 1) noShuffle) passed_reached.reachable trivial rfl
  have highest := (claim pointsConf rfl _ bid_one).highest 1 rfl
  have le : (2 : Int) ≤ 1 := highest.2 (1, 2) (by decide)
  exact absurd le (by decide)

end FkServer.Land
