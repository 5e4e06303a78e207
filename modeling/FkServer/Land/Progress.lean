import FkServer.Land.Compete

/-!
The bidding goes on: whenever a bidder is on turn, some action of the mode is accepted
and leads on, as long as the first action of the deal is one of the mode. Every search
for the next bidder finds one.
-/
namespace FkServer.Land

open Rotation

/-- The actions of the mode. -/
def legalActions (c : Conf) : List Int :=
  if c.callLandlord then [-4, -3, -2, -1] else [-4, 1, 2, 3]

/-- The action is accepted and the bidding goes on from it. -/
def Advances (c : Conf) (s : State) (chair : Nat) (action : Int) : Prop :=
  ∀ rnd, ∃ s', Steps c s ⟨chair, some action, rnd⟩ s'

/-- The cases in which the timer's own action is missing or refused. -/
def AutoSlips (c : Conf) (s : State) (chair : Nat) : Prop :=
  s.lastLandlordCometition = some 0 ∨
    mustCall c s chair = true ∧
      if c.callLandlord then
        s.beginCompetitionNormal = none ∧
          (s.lastLandlordCometition = some (-3) ∨ s.lastLandlordCometition = some (-1))
      else
        s.lastLandlordCometition = some 1 ∨ s.lastLandlordCometition = some 2

/-- The first action of a deal is one of the mode, or a zero. -/
def Opens (c : Conf) (s : State) (action : Int) : Prop :=
  s.lastLandlordCometition = none →
    if c.callLandlord then action ≤ 0 else action = -4 ∨ 0 ≤ action

/-! ### Points -/

/-- The bidder on turn can still bid three points. -/
structure InPoints (c : Conf) (s : State) : Prop where
  first : FirstRound c s
  last : ∀ last, s.lastLandlordCometition = some last → last = -4 ∨ 0 ≤ last ∧ last < 3

/-- The landlord is decided. -/
def Decided (s : State) : Prop := s.curCompeter = none ∧ s.landlord.isSome

theorem over_decided (s : State) {landlord : Option Nat} (found : landlord.isSome) :
    Decided (onCompeteLandlordOver s landlord) :=
  ⟨rfl, found⟩

theorem started_in_points (c : Conf) (rnd : Nat → Nat) : InPoints c (doGameStart c rnd) where
  first := started_first_round c rnd
  last := fun _ same => absurd same (Option.some_ne_none _).symm

theorem maxCompetition_isSome {c : Conf} {s : State} {chair : Nat} (sits : chair ∈ c.chairs)
    (all : allCompeted c s = true) : (maxCompetition c s).isSome := by
  cases max : maxCompetition c s with
  | some best => rfl
  | none =>
      obtain ⟨done, written⟩ := Option.isSome_iff_exists.1 (List.all_eq_true.1 all chair sits)
      have listed : (chair, done) ∈ c.pairs (c.chairs.filterMap fun chair =>
          (s.landlordCompetitions chair).map fun action => (chair, action)) := by
        rw [(c.pairs_perm _).mem_iff, List.mem_filterMap]
        exact ⟨chair, sits, by rw [written]; rfl⟩
      rw [List.argmax_eq_none.1 max] at listed
      cases listed

theorem InPoints.next {c : Conf} {s : State} {chair : Nat} {action : Int} (rnd : Nat → Nat)
    (here : InPoints c s) (on_turn : s.curCompeter = some chair) (most : action ≤ 3)
    (opens : s.lastLandlordCometition = none → action = -4 ∨ 0 ≤ action)
    (accepted : refusesScore c s chair action = false) :
    ∃ s', doCompeteLandlordScore c s chair action rnd = .next s' ∧
      (Decided s' ∨ InPoints c s') := by
  have sits : chair ∈ c.chairs := by
    rw [c.mem_chairs, ← Option.some.inj (here.first.cur.symm.trans on_turn)]
    exact c.turnOf_mem _
  unfold doCompeteLandlordScore
  rw [if_neg (Bool.eq_false_iff.1 accepted)]
  split
  · exact ⟨_, rfl, .inl (over_decided _ (by rw [on_turn]; rfl))⟩
  · rename_i open_
    split
    · rename_i all
      split
      · exact ⟨_, rfl, .inr (started_in_points c rnd)⟩
      · refine ⟨_, rfl, .inl (over_decided _ ?_)⟩
        rw [Option.isSome_map]
        exact maxCompetition_isSome sits all
    · rename_i more
      obtain ⟨u, next, first, rfl⟩ := (scored_recorded s chair action).goOn_first here.first on_turn
        (Bool.eq_false_iff.2 more)
      refine ⟨_, next, .inr ⟨first, ?_⟩⟩
      intro last same
      cases same
      have good : action = -4 ∨ 0 ≤ action := by
        cases opened : s.lastLandlordCometition with
        | none => exact opens opened
        | some last =>
            unfold refusesScore at accepted
            rw [opened, Option.any_some, decide_eq_false_iff_not] at accepted
            omega
      refine good.imp_right fun low => ⟨low, ?_⟩
      cases Int.lt_or_eq_of_le most with
      | inl lt => exact lt
      | inr three =>
          subst three
          exact absurd rfl open_

/-! ### Calls -/

/-- Whoever called last is still in, so the search for the next bidder ends with him at
the latest. -/
structure InCalls (c : Conf) (s : State) : Prop where
  seated : ∃ chair, s.curCompeter = some chair ∧ chair ∈ places c.startCount
  round : FirstRound c s ∨ allCompeted c s = true
  begun : ∀ chair, s.beginCompetitionNormal = some chair →
    s.landlordCompetitions chair = some (-2) ∧ chair ∈ places c.startCount
  swap : ∀ chair, s.landlordCompetitions chair = some (-2) ∨
    s.landlordCompetitions chair = some (-1) → s.landlordSwap.isSome
  call : s.lastLandlordCometition = some (-2) → s.beginCompetitionNormal.isSome
  last : ∀ last, s.lastLandlordCometition = some last → -4 ≤ last ∧ last ≤ 0

theorem started_in_calls (c : Conf) (rnd : Nat → Nat) : InCalls c (doGameStart c rnd) where
  seated := ⟨c.competeFirst, rfl, c.first_mem⟩
  round := .inl (started_first_round c rnd)
  begun := fun _ same => absurd same (Option.some_ne_none _).symm
  swap := fun _ same => same.elim (fun same => absurd same (Option.some_ne_none _).symm)
    (fun same => absurd same (Option.some_ne_none _).symm)
  call := fun same => absurd same (Option.some_ne_none _).symm
  last := fun _ same => absurd same (Option.some_ne_none _).symm

theorem called_recorded (s : State) (chair : Nat) (action : Int) :
    Recorded s (called s chair action) chair action :=
  ⟨rfl, rfl, rfl, rfl, rfl⟩

section Called

variable {c : Conf} {s : State} {chair : Nat} {action : Int}

theorem called_competition (s : State) (chair other : Nat) (action : Int) :
    (called s chair action).landlordCompetitions other =
      if other = chair then some action else s.landlordCompetitions other := by
  change Function.update s.landlordCompetitions chair (some action) other = _
  rw [Function.update_apply]

theorem InCalls.called_swap (here : InCalls c s) (other : Nat)
    (calls : (called s chair action).landlordCompetitions other = some (-2) ∨
      (called s chair action).landlordCompetitions other = some (-1)) :
    (called s chair action).landlordSwap.isSome := by
  rw [called_competition] at calls
  change (if action = -1 ∨ action = -2 then some chair else s.landlordSwap).isSome
  split
  · rfl
  · rename_i neither
    split at calls
    · cases calls with
      | inl call => exact absurd (.inr (Option.some.inj call)) neither
      | inr rob => exact absurd (.inl (Option.some.inj rob)) neither
    · exact here.swap other calls

/-- After the action, whoever has called last is still in: he has just called, or it is
not his turn. -/
theorem InCalls.called_begun (here : InCalls c s) (sits : chair ∈ places c.startCount)
    (others : s.beginCompetitionNormal = some chair → action = -2) (other : Nat)
    (begun : (called s chair action).beginCompetitionNormal = some other) :
    (called s chair action).landlordCompetitions other = some (-2) ∧
      other ∈ places c.startCount := by
  change (if action = -2 then some chair else s.beginCompetitionNormal) = some other at begun
  rw [called_competition]
  split at begun
  · rename_i call
    cases begun
    exact ⟨by rw [if_pos rfl, call], sits⟩
  · rename_i no_call
    have other_ne : other ≠ chair := fun same => no_call (others (same ▸ begun))
    rw [if_neg other_ne]
    exact here.begun other begun

theorem called_call (s : State) (chair : Nat) (action : Int)
    (call : (called s chair action).lastLandlordCometition = some (-2)) :
    (called s chair action).beginCompetitionNormal.isSome := by
  change (if action = -2 then some chair else s.beginCompetitionNormal).isSome
  rw [if_pos (Option.some.inj call)]
  rfl

theorem seek_seated {t : State} (sits : chair ∈ places c.startCount)
    (begun : ∀ other, t.beginCompetitionNormal = some other →
      t.landlordCompetitions other = some (-2) ∧ other ∈ places c.startCount) :
    ∃ found, found ∈ places c.startCount ∧
      goOn c t chair = .next { t with curCompeter := some found } := by
  have stop : ∃ k, k < c.startCount ∧
      competes c t ((forward c.startCount)^[k + 1] chair) = true := by
    cases started : t.beginCompetitionNormal with
    | none =>
        refine ⟨0, c.startCount_pos, ?_⟩
        unfold competes
        rw [started]
        simp [c.mem_chairs, forward_mem c.startCount_pos]
    | some other =>
        obtain ⟨still_in, seated⟩ := begun other started
        obtain ⟨k, within, met⟩ := forward_reaches sits seated
        refine ⟨k, within, ?_⟩
        unfold competes
        rw [met, still_in]
        simp [c.mem_chairs, seated]
  obtain ⟨k, within, stops⟩ := stop
  obtain ⟨found, seek⟩ := seek_isSome within stops
  refine ⟨found, ?_, ?_⟩
  · obtain ⟨_, _, _, competes_, _⟩ := seek_eq_some seek
    unfold competes at competes_
    rw [Bool.and_eq_true] at competes_
    exact (c.mem_chairs found).1 (List.contains_iff_mem.1 competes_.1)
  · unfold goOn nextLandlordCompeter
    rw [seek]
    rfl

theorem InCalls.next (rnd : Nat → Nat) (here : InCalls c s)
    (on_turn : s.curCompeter = some chair) (least : -4 ≤ action)
    (opens : s.lastLandlordCometition = none → action ≤ 0)
    (accepted : refusesNormal c s chair action = false) :
    ∃ s', doCompeteLandlordNormal c s chair action rnd = .next s' ∧
      (Decided s' ∨ InCalls c s') := by
  obtain ⟨seat, same, sits⟩ := here.seated
  cases on_turn.symm.trans same
  have low : action ≤ 0 := by
    cases opened : s.lastLandlordCometition with
    | none => exact opens opened
    | some last =>
        unfold refusesNormal at accepted
        rw [opened, Option.any_some, decide_eq_false_iff_not] at accepted
        omega
  have last : ∀ last, (called s chair action).lastLandlordCometition = some last →
      -4 ≤ last ∧ last ≤ 0 := by
    intro last same
    cases same
    exact ⟨least, low⟩
  unfold doCompeteLandlordNormal
  rw [if_neg (Bool.eq_false_iff.1 accepted)]
  split
  · rename_i all
    split
    · exact ⟨_, rfl, .inr (started_in_calls c rnd)⟩
    · split
      · rename_i ended
        refine ⟨_, rfl, .inl (over_decided _ ?_)⟩
        cases ended with
        | inl begun =>
            by_cases call : action = -2
            · exact here.called_swap chair (.inl (by rw [called_competition, if_pos rfl, call]))
            · have before : s.beginCompetitionNormal = some chair := by
                rw [← begun]
                exact (if_neg call).symm
              change (if action = -1 ∨ action = -2 then some chair else s.landlordSwap).isSome
              split
              · rfl
              · exact here.swap chair (.inl (here.begun chair before).1)
        | inr single =>
            obtain ⟨other, _, calls⟩ := List.countP_pos_iff.1 (single ▸ Nat.one_pos)
            exact here.called_swap other (of_decide_eq_true calls)
      · rename_i more
        have others : s.beginCompetitionNormal = some chair → action = -2 := by
          intro begun
          apply Decidable.byContradiction
          intro call
          exact more (.inl ((if_neg call).trans begun))
        obtain ⟨found, seated, next⟩ := seek_seated sits (here.called_begun sits others)
        exact ⟨_, next, .inr ⟨⟨found, rfl, seated⟩, .inr all, here.called_begun sits others,
          here.called_swap, called_call s chair action, last⟩⟩
  · rename_i more
    have first : FirstRound c s := by
      cases here.round with
      | inl first => exact first
      | inr all =>
          refine absurd ?_ more
          apply List.all_eq_true.2
          intro other inside
          rw [called_competition]
          split
          · rfl
          · exact List.all_eq_true.1 all other inside
    obtain ⟨u, next, again, rfl⟩ :=
      (called_recorded s chair action).goOn_first first on_turn (Bool.eq_false_iff.2 more)
    have others : s.beginCompetitionNormal = some chair → action = -2 := by
      intro begun
      have fresh := first.not_acted
      rw [Option.some.inj (first.cur.symm.trans on_turn), (here.begun chair begun).1] at fresh
      cases fresh
    exact ⟨_, next, .inr ⟨⟨_, rfl, c.turnOf_mem _⟩, .inl again, here.called_begun sits others,
      here.called_swap, called_call s chair action, last⟩⟩

end Called

/-! ### Both modes -/

/-- The answer of the mode's handler to an action within the bounds. -/
def refuses (c : Conf) (s : State) (chair : Nat) (action : Int) : Bool :=
  if c.callLandlord then refusesNormal c s chair action else refusesScore c s chair action

def InBidding (c : Conf) (s : State) : Prop :=
  if c.callLandlord then InCalls c s else InPoints c s

theorem started_in_bidding (c : Conf) (rnd : Nat → Nat) : InBidding c (doGameStart c rnd) := by
  unfold InBidding
  split
  · exact started_in_calls c rnd
  · exact started_in_points c rnd

/-- An action that the handler would accept, and that keeps the bidding going. -/
structure Fits (c : Conf) (s : State) (chair : Nat) (action : Int) : Prop where
  least : -4 ≤ action
  most : action ≤ 3
  opens : Opens c s action
  accepted : refuses c s chair action = false

section Bidding

variable {c : Conf} {s : State} {chair : Nat}

theorem InBidding.next {action : Int} (here : InBidding c s) (on_turn : s.curCompeter = some chair)
    (fits : Fits c s chair action) (rnd : Nat → Nat) :
    ∃ s', Steps c s ⟨chair, some action, rnd⟩ s' ∧ (Decided s' ∨ InBidding c s') := by
  have opens := fits.opens
  have accepted := fits.accepted
  unfold InBidding at here ⊢
  unfold Opens at opens
  unfold refuses at accepted
  unfold Steps step doCompeteLandlord
  rw [if_neg (not_not_intro on_turn)]
  have inside : ¬(action < -4 ∨ 3 < action) := by
    have := fits.least
    have := fits.most
    omega
  simp only [if_neg inside]
  cases mode : c.callLandlord with
  | true =>
      simp only [mode, if_true] at here opens accepted ⊢
      exact here.next rnd on_turn fits.least opens accepted
  | false =>
      simp only [mode, Bool.false_eq_true, if_false] at here opens accepted ⊢
      exact here.next rnd on_turn fits.most opens accepted

theorem InBidding.advances {action : Int} (here : InBidding c s)
    (on_turn : s.curCompeter = some chair) (fits : Fits c s chair action) :
    Advances c s chair action := by
  intro rnd
  obtain ⟨s', next, _⟩ := here.next on_turn fits rnd
  exact ⟨s', next⟩

theorem refuses_of_steps {s' : State} {r : Request} (h : Steps c s r s') :
    ∃ action, s.curCompeter = some r.chair ∧ r.action = some action ∧
      -4 ≤ action ∧ action ≤ 3 ∧ refuses c s r.chair action = false := by
  obtain ⟨action, on_turn, given, inside, outcome⟩ := on_turn_of_step h
  refine ⟨action, on_turn, given, by omega, by omega, ?_⟩
  unfold refuses
  split at outcome
  · rename_i mode
    rw [if_pos mode]
    unfold doCompeteLandlordNormal at outcome
    split at outcome
    · cases outcome
    · rename_i accepted
      exact Bool.eq_false_iff.2 accepted
  · rename_i mode
    rw [if_neg mode]
    exact (score_cases outcome).1

theorem InBidding.has_bidder (here : InBidding c s) : ∃ chair, s.curCompeter = some chair := by
  unfold InBidding at here
  split at here
  · obtain ⟨chair, same, _⟩ := here.seated
    exact ⟨chair, same⟩
  · exact ⟨_, here.first.cur⟩

/-- Three points, a call, or not to rob it is always accepted. -/
theorem InBidding.legal_fits (here : InBidding c s) (chair : Nat) :
    ∃ action, action ∈ legalActions c ∧ Fits c s chair action := by
  unfold InBidding at here
  cases mode : c.callLandlord with
  | false =>
      simp only [mode, Bool.false_eq_true, if_false] at here
      refine ⟨3, by simp [legalActions, mode], by decide, by decide, ?_, ?_⟩
      · intro _
        simp [mode]
      · simp only [refuses, mode, Bool.false_eq_true, if_false]
        cases opened : s.lastLandlordCometition with
        | none => simp [refusesScore, opened]
        | some last =>
            have good := here.last last opened
            rw [refusesScore, opened, Option.any_some, decide_eq_false_iff_not]
            omega
  | true =>
      simp only [mode, if_true] at here
      by_cases called : s.lastLandlordCometition = some (-2)
      · refine ⟨-3, by simp [legalActions, mode], by decide, by decide, ?_, ?_⟩
        · intro _
          simp [mode]
        · have begun := here.call called
          simp only [refuses, mode, if_true]
          rw [refusesNormal, called, Option.any_some, decide_eq_false_iff_not]
          intro refused
          cases begin_ : s.beginCompetitionNormal with
          | none =>
              rw [begin_] at begun
              cases begun
          | some other =>
              rw [begin_] at refused
              simp at refused
      · refine ⟨-2, by simp [legalActions, mode], by decide, by decide, ?_, ?_⟩
        · intro _
          simp [mode]
        · simp only [refuses, mode, if_true]
          cases opened : s.lastLandlordCometition with
          | none => simp [refusesNormal, opened]
          | some last =>
              have low := here.last last opened
              have other : last ≠ -2 := fun same => called (same ▸ opened)
              rw [refusesNormal, opened, Option.any_some, decide_eq_false_iff_not]
              omega

/-- After the first action the mode no longer matters for what opens a deal. -/
theorem fits_iff {action last : Int} (opened : s.lastLandlordCometition = some last) :
    Fits c s chair action ↔ -4 ≤ action ∧ action ≤ 3 ∧ refuses c s chair action = false := by
  constructor
  · intro fits
    exact ⟨fits.least, fits.most, fits.accepted⟩
  · intro h
    exact ⟨h.1, h.2.1, fun first => absurd (opened.symm.trans first) (Option.some_ne_none _), h.2.2⟩

theorem InPoints.auto_fits (mode : c.callLandlord = false) (here : InPoints c s) (chair : Nat) :
    (∃ action, autoAction c s chair = some action ∧ Fits c s chair action) ↔
      ¬ AutoSlips c s chair := by
  cases opened : s.lastLandlordCometition with
  | none =>
      have fits : ∀ action, -4 ≤ action → action ≤ 3 → action = -4 ∨ 0 ≤ action →
          Fits c s chair action := fun action least most opens =>
        ⟨least, most, fun _ => by simpa [mode] using opens, by simp [refuses, mode, refusesScore, opened]⟩
      cases must : mustCall c s chair with
      | false => simp [autoAction, autoCallAction, AutoSlips, opened, must, mode, fits]
      | true => simp [autoAction, autoMustCallAction, AutoSlips, opened, must, mode, fits]
  | some last =>
      have good : last = -4 ∨ last = 0 ∨ last = 1 ∨ last = 2 := by
        have := here.last last opened
        omega
      simp only [fits_iff opened]
      cases must : mustCall c s chair with
      | false =>
          obtain rfl | rfl | rfl | rfl := good <;>
            simp [autoAction, autoCallAction, AutoSlips, refuses, refusesScore, opened, must, mode]
      | true =>
          obtain rfl | rfl | rfl | rfl := good <;>
            simp [autoAction, autoMustCallAction, AutoSlips, refuses, refusesScore, opened, must, mode]

theorem InCalls.auto_fits (mode : c.callLandlord = true) (here : InCalls c s) (chair : Nat) :
    (∃ action, autoAction c s chair = some action ∧ Fits c s chair action) ↔
      ¬ AutoSlips c s chair := by
  cases opened : s.lastLandlordCometition with
  | none =>
      have fits : ∀ action, -4 ≤ action → action ≤ 0 → Fits c s chair action :=
        fun action least most => ⟨least, by omega, fun _ => by simpa [mode] using most,
          by simp [refuses, mode, refusesNormal, opened]⟩
      cases must : mustCall c s chair with
      | false => simp [autoAction, autoCallAction, AutoSlips, opened, must, mode, fits]
      | true => simp [autoAction, autoMustCallAction, AutoSlips, opened, must, mode, fits]
  | some last =>
      have good : last = -4 ∨ last = -3 ∨ last = -2 ∨ last = -1 ∨ last = 0 := by
        have := here.last last opened
        omega
      have begun : last = -2 → s.beginCompetitionNormal ≠ none := by
        intro same
        have := here.call (same ▸ opened)
        exact Option.isSome_iff_ne_none.1 this
      simp only [fits_iff opened]
      cases must : mustCall c s chair with
      | false =>
          obtain rfl | rfl | rfl | rfl | rfl := good <;>
            simp [autoAction, autoCallAction, AutoSlips, refuses, refusesNormal, opened, must, mode]
      | true =>
          obtain rfl | rfl | rfl | rfl | rfl := good <;>
            simp_all [autoAction, autoMustCallAction, AutoSlips, refuses, refusesNormal]

theorem InBidding.auto_fits (here : InBidding c s) (chair : Nat) :
    (∃ action, autoAction c s chair = some action ∧ Fits c s chair action) ↔
      ¬ AutoSlips c s chair := by
  unfold InBidding at here
  split at here
  · rename_i mode
    exact here.auto_fits mode chair
  · rename_i mode
    exact here.auto_fits (Bool.eq_false_iff.2 mode) chair

/-- What the timer sends opens a deal. -/
theorem auto_opens {action : Int} (auto : autoAction c s chair = some action) :
    Opens c s action := by
  intro opened
  unfold autoAction autoMustCallAction autoCallAction at auto
  rw [opened] at auto
  split
  · rename_i mode
    simp [mode] at auto
    split at auto <;> · cases auto; decide
  · rename_i mode
    simp [mode] at auto
    split at auto <;> · cases auto; decide

end Bidding

/-- Somebody is landlord, or the bidder on turn has an action that leads on. -/
def NotStuck (c : Conf) (s : State) : Prop :=
  s.landlord.isSome ∨ ∃ chair, s.curCompeter = some chair ∧
    ∃ action, (action ∈ legalActions c ∨ autoAction c s chair = some action) ∧
      Advances c s chair action

/-- The bidding never gets stuck as long as every deal is opened with an action of the
mode, and the timer's action is then among those that lead on except in the listed cases. -/
theorem bidding_goes_on (c : Conf) (s : State)
    (reached : Runs.Reaches (Started c) (Steps c)
      (fun s r => ∀ action, r.action = some action → Opens c s action) s) :
    NotStuck c s ∧ ∀ chair, s.curCompeter = some chair →
      ((∃ action, autoAction c s chair = some action ∧ Advances c s chair action) ↔
        ¬ AutoSlips c s chair) := by
  have inv := @Runs.Reaches.invariant _ _ _ _ _ (fun s => Decided s ∨ InBidding c s) _ reached
    (by
      intro s start
      obtain ⟨rnd, rfl⟩ := start
      exact .inr (started_in_bidding c rnd))
    (by
      intro s r s' inv opens move
      obtain ⟨action, on_turn, given, least, most, accepted⟩ := refuses_of_steps move
      cases inv with
      | inl decided =>
          rw [decided.1] at on_turn
          cases on_turn
      | inr here =>
          obtain ⟨t, next, after⟩ :=
            here.next on_turn ⟨least, most, opens action given, accepted⟩ r.rnd
          obtain ⟨chair, given_action, rnd⟩ := r
          cases given
          cases Outcome.next.inj (move.symm.trans next)
          exact after)
  cases inv with
  | inl decided =>
      refine ⟨.inl decided.2, ?_⟩
      intro chair on_turn
      rw [decided.1] at on_turn
      cases on_turn
  | inr here =>
      constructor
      · obtain ⟨chair, on_turn⟩ := here.has_bidder
        obtain ⟨action, legal, fits⟩ := here.legal_fits chair
        exact .inr ⟨chair, on_turn, action, .inl legal, here.advances on_turn fits⟩
      · intro chair on_turn
        rw [← here.auto_fits chair]
        apply exists_congr
        intro action
        apply and_congr_right
        intro auto
        constructor
        · intro leads
          obtain ⟨s', next⟩ := leads fun _ => 0
          obtain ⟨action, _, given, least, most, accepted⟩ := refuses_of_steps next
          cases given
          exact ⟨least, most, auto_opens auto, accepted⟩
        · exact here.advances on_turn

theorem pass_goes_on : ∃ s, s.lastLandlordCometition = some (-4) ∧ NotStuck pointsConf s := by
  have start : Runs.Reaches (Started pointsConf) (Steps pointsConf)
      (fun s r => ∀ action, r.action = some action → Opens pointsConf s action)
      (doGameStart pointsConf noShuffle) := .start ⟨noShuffle, rfl⟩
  let pass : State := { scored (doGameStart pointsConf noShuffle) 1 (-4) with curCompeter := some 2 }
  have accepted : doCompeteLandlordScore pointsConf (doGameStart pointsConf noShuffle) 1 (-4)
      noShuffle = .next pass := rfl
  have passes : doCompeteLandlord pointsConf (doGameStart pointsConf noShuffle) 1 (some (-4))
      noShuffle = .next pass := accepted
  have passed := Runs.Reaches.next (Request.mk 1 (some (-4)) noShuffle) start
    (fun action given => by
      cases given
      exact fun _ => .inl rfl) passes
  exact ⟨_, rfl, (bidding_goes_on pointsConf _ passed).1⟩

/-- After a negative first bid everything is refused. -/
theorem negative_bid_stuck :
    ¬ ∀ c : Conf, ∀ s, Runs.Reachable (Started c) (Steps c) s → NotStuck c s := by
  intro claim
  have start : Runs.Reachable (Started pointsConf) (Steps pointsConf)
      (doGameStart pointsConf noShuffle) := .start ⟨noShuffle, rfl⟩
  let rob : State := { scored (doGameStart pointsConf noShuffle) 1 (-1) with curCompeter := some 2 }
  have accepted : doCompeteLandlordScore pointsConf (doGameStart pointsConf noShuffle) 1 (-1)
      noShuffle = .next rob := rfl
  have robs : doCompeteLandlord pointsConf (doGameStart pointsConf noShuffle) 1 (some (-1))
      noShuffle = .next rob := accepted
  have robbed := Runs.Reaches.next (Request.mk 1 (some (-1)) noShuffle) start trivial robs
  cases claim pointsConf _ robbed with
  | inl decided => cases decided
  | inr going =>
      obtain ⟨chair, on_turn, action, _, leads⟩ := going
      obtain ⟨s', next⟩ := leads noShuffle
      obtain ⟨_, _, given, _, _, accepted⟩ := refuses_of_steps next
      cases given
      revert accepted
      simp [refuses, refusesScore, pointsConf, record, scored, rob]

end FkServer.Land
