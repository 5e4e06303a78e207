import FkServer.Library.Ledger
import FkServer.MaajanXuezhan.Table
import Mathlib.Data.List.MinMax

/-!
The end of a round: `game_balance` with the scores of gangs and ready hands, and
`ding_zhuang`. Where the source takes an amount from one entry of `scores` and adds
it to another, the model has a payment; the scores are the balance of all payments.
-/
namespace FkServer.MaajanXuezhan

open Ledger (Payment)

/-- What a payment is for. -/
inductive Cause
  | win (winner : Nat)
  | gang (sec : Section)
  | notReady (ready : Nat)

abbrev Pay := Payment Nat Cause

/-- `p.jiao.tiles`; `p.jiao` is set when it is not empty. -/
def jiaoTiles (c : Conf) (s : State) (chair : Nat) : List Nat :=
  if (s.player chair).hu.isSome then [] else ting c (s.player chair)

def isJiao (c : Conf) (s : State) (chair : Nat) : Bool :=
  !(jiaoTiles c s chair).isEmpty

/-- The types `calculate_jiao` returns. -/
def calculateJiao (c : Conf) (s : State) (chair : Nat) : Types :=
  let typeFans := (jiaoTiles c s chair).flatMap fun tile =>
    ruleHuTypes c (s.player chair).pai (some tile) none
  let first := fun (better : Types → Types → Bool) =>
    match typeFans with
    | [] => []
    | ts :: rest => rest.foldl (fun best ts => if better ts best then ts else best) ts
  if c.play.chaDaJiao then first fun l r => calcFan c r < calcFan c l
  else if c.play.chaXiaoJiao then first fun l r => calcFan c l < calcFan c r
  else typeFans.headD []

/-- `wei_hu_count` -/
def weiHuCount (c : Conf) (s : State) : Nat :=
  c.seats.countP fun chair => (s.player chair).hu.isNone

/-- Whether the gangs of a player count in the end. -/
def gangsCount (c : Conf) (s : State) (chair : Nat) : Bool :=
  isJiao c s chair || (s.player chair).hu.isSome || weiHuCount c s = 1

/-- `fans[chair_id]` -/
def balanceFan (c : Conf) (s : State) (chair : Nat) : Nat :=
  let types :=
    match (s.player chair).hu with
    | some hu => hu.types
    | none => if isJiao c s chair then calculateJiao c s chair else []
  let gangs := if gangsCount c s chair then gangTypes (s.player chair).pai else []
  let fan := calcFan c types + (gangs.map fun tc => (huTypeInfo tc.1).fan * tc.2).sum
  min fan (c.maxFan.getD 3)

/-- The payments of one section in `calculate_gang`. -/
def sectionPays (c : Conf) (s : State) (chair : Nat) (sec : Section) : List Pay :=
  let who := sec.dianPao.getD chair
  match sectionHuType sec.type with
  | none => []
  | some t =>
      let score : Int := (huTypeInfo t).score
      if t = .mingGang then
        sec.whoee.toList.map fun whoee => ⟨whoee, who, score, .gang sec⟩
      else
        (c.seats.filter fun i => i ≠ who ∧ i ≠ chair ∧
            !((s.player i).hu.any fun hu => sec.time.any fun time => hu.time < time)).map
          fun i => ⟨i, who, score, .gang sec⟩

/-- The scores of `calculate_gang`. -/
def calculateGang (c : Conf) (s : State) (chair : Nat) : List Pay :=
  (s.player chair).pai.mingPai.flatMap (sectionPays c s chair)

/-- The payments for the win or the ready hand of a player. -/
def huPays (c : Conf) (s : State) (chair : Nat) : List Pay :=
  let fanScore : Int := 2 ^ balanceFan c s chair
  match (s.player chair).hu with
  | some hu =>
      if hu.ziMo ≠ some true then
        hu.whoee.toList.map fun whoee => ⟨whoee, chair, fanScore, .win chair⟩
      else
        let fanScore := if c.play.ziMoJiaDi then fanScore + 1 else fanScore
        (c.seats.filter fun i => i ≠ chair ∧
            !((s.player i).hu.any fun other => other.time ≤ hu.time)).map
          fun i => ⟨i, chair, fanScore, .win chair⟩
  | none =>
      if isJiao c s chair then
        (c.seats.filter fun i => i ≠ chair ∧ (s.player i).hu.isNone ∧ isJiao c s i = false).map
          fun i => ⟨i, chair, fanScore, .notReady chair⟩
      else
        []

def balancePays (c : Conf) (s : State) : List Pay :=
  (c.seats.flatMap fun chair => if gangsCount c s chair then calculateGang c s chair else []) ++
    c.seats.flatMap (huPays c s)

/-- The scores of `game_balance`. -/
def gameBalance (c : Conf) (s : State) : Nat → Int :=
  Ledger.balance (balancePays c s)

/-- `ding_zhuang` -/
def dingZhuang (c : Conf) (s : State) : Option Nat :=
  if huCount c s = 0 then
    none
  else
    (c.seats.find? fun chair => (s.player chair).firstMultiPao).or
      ((c.seats.filter fun chair => (s.player chair).hu.isSome).argmin
        fun chair => (s.player chair).hu.elim 0 Hu.time)

/-! ### What the payments come to -/

/-- What every round leaves behind: who shot a win or gave the tile of a gang is
seated and had not won by then, and the times of gangs are those of their melds. -/
structure EndState (c : Conf) (s : State) : Prop where
  shooter : ∀ chair ∈ c.seats, ∀ hu, (s.player chair).hu = some hu → hu.ziMo ≠ some true →
    ∃ whoee ∈ c.seats, hu.whoee = some whoee ∧
      ∀ own, (s.player whoee).hu = some own → hu.time ≤ own.time
  giver : ∀ chair ∈ c.seats, ∀ sec ∈ (s.player chair).pai.mingPai, sec.type = .mingGang →
    ∃ whoee ∈ c.seats, sec.whoee = some whoee ∧
      ∀ own, (s.player whoee).hu = some own → sec.laid ≤ own.time
  timed : ∀ chair ∈ c.seats, ∀ sec ∈ (s.player chair).pai.mingPai,
    sec.type = .anGang ∨ sec.type = .baGang → sec.time = some sec.laid
  transferred : ∀ chair ∈ c.seats, ∀ sec ∈ (s.player chair).pai.mingPai, ∀ who,
    sec.dianPao = some who → who ∈ c.seats

/-- The event a payment is for is not later than the payer's own win. -/
def Timely (s : State) (pay : Pay) : Prop :=
  ∀ own, (s.player pay.payer).hu = some own →
    match pay.cause with
    | .win winner => ∀ hu, (s.player winner).hu = some hu → hu.time ≤ own.time
    | .gang sec => sec.laid ≤ own.time
    | .notReady _ => False

/-- A payment between seated players for something the payer still played in; for a ready hand it
comes from one who has none. -/
def Due (c : Conf) (s : State) (pay : Pay) : Prop :=
  (pay.payer ∈ c.seats ∧ pay.payee ∈ c.seats) ∧ Timely s pay ∧
    ∀ ready, pay.cause = .notReady ready →
      pay.payee = ready ∧ isJiao c s ready = true ∧ isJiao c s pay.payer = false

variable {c : Conf} {s : State}

theorem sectionPays_due (fin : EndState c s) {chair : Nat} (seated : chair ∈ c.seats)
    {sec : Section} (laid : sec ∈ (s.player chair).pai.mingPai) {pay : Pay}
    (h : pay ∈ sectionPays c s chair sec) : Due c s pay := by
  have who_in : sec.dianPao.getD chair ∈ c.seats := by
    cases mark : sec.dianPao with
    | none => exact seated
    | some who => exact fin.transferred chair seated sec laid who mark
  unfold sectionPays at h
  cases kind : sectionHuType sec.type with
  | none =>
      rw [kind] at h
      cases h
  | some t =>
      simp only [kind] at h
      by_cases ming : t = .mingGang
      · have type : sec.type = .mingGang := by
          subst ming
          revert kind
          cases sec.type <;> simp [sectionHuType]
        obtain ⟨whoee, in_seats, source, before⟩ := fin.giver chair seated sec laid type
        simp only [ming, if_true, source, Option.toList_some, List.map_cons, List.map_nil,
          List.mem_singleton] at h
        subst h
        exact ⟨⟨in_seats, who_in⟩, before, fun _ other => by cases other⟩
      · have time : sec.time = some sec.laid := by
          apply fin.timed chair seated sec laid
          revert kind ming
          cases sec.type <;> simp [sectionHuType, eq_comm]
        simp only [ming, if_false, List.mem_map, List.mem_filter, decide_eq_true_eq, time] at h
        obtain ⟨i, ⟨in_seats, _, _, late⟩, rfl⟩ := h
        refine ⟨⟨in_seats, who_in⟩, ?_, fun _ other => by cases other⟩
        intro own won
        rw [show (s.player i).hu = some own from won] at late
        simpa using late

theorem huPays_due (fin : EndState c s) {chair : Nat} (seated : chair ∈ c.seats) {pay : Pay}
    (h : pay ∈ huPays c s chair) : Due c s pay := by
  unfold huPays at h
  cases won : (s.player chair).hu with
  | none =>
      simp only [won] at h
      split at h
      · rename_i ready
        simp only [List.mem_map, List.mem_filter, decide_eq_true_eq] at h
        obtain ⟨i, ⟨in_seats, _, unfinished, none_ready⟩, rfl⟩ := h
        refine ⟨⟨in_seats, seated⟩, ?_, fun _ same => by cases same; exact ⟨rfl, ready, none_ready⟩⟩
        intro own own_won
        rw [show (s.player i).hu = some own from own_won] at unfinished
        cases unfinished
      · cases h
  | some hu =>
      simp only [won] at h
      by_cases shot : hu.ziMo ≠ some true
      · obtain ⟨whoee, in_seats, source, before⟩ := fin.shooter chair seated hu won shot
        simp only [if_pos shot, source, Option.toList_some, List.map_cons, List.map_nil,
          List.mem_singleton] at h
        subst h
        refine ⟨⟨in_seats, seated⟩, ?_, fun _ other => by cases other⟩
        intro own own_won other same
        obtain rfl : hu = other := Option.some.inj (won.symm.trans same)
        exact before own own_won
      · simp only [if_neg shot, List.mem_map, List.mem_filter, decide_eq_true_eq] at h
        obtain ⟨i, ⟨in_seats, _, late⟩, rfl⟩ := h
        refine ⟨⟨in_seats, seated⟩, ?_, fun _ other => by cases other⟩
        intro own own_won other same
        obtain rfl : hu = other := Option.some.inj (won.symm.trans same)
        rw [show (s.player i).hu = some own from own_won] at late
        have : hu.time < own.time := by simpa using late
        exact this.le

theorem balancePays_due (fin : EndState c s) {pay : Pay} (h : pay ∈ balancePays c s) :
    Due c s pay := by
  rcases List.mem_append.1 h with gang | other
  · obtain ⟨chair, seated, in_gangs⟩ := List.mem_flatMap.1 gang
    split at in_gangs
    · obtain ⟨sec, laid, paid⟩ := List.mem_flatMap.1 in_gangs
      exact sectionPays_due fin seated laid paid
    · cases in_gangs
  · obtain ⟨chair, seated, paid⟩ := List.mem_flatMap.1 other
    exact huPays_due fin seated paid

theorem sum_gameBalance (fin : EndState c s) :
    ∑ chair ∈ c.seats.toFinset, gameBalance c s chair = 0 := by
  apply Ledger.sum_balance
  intro pay h
  have inside := (balancePays_due fin h).1
  exact ⟨List.mem_toFinset.2 inside.1, List.mem_toFinset.2 inside.2⟩

end FkServer.MaajanXuezhan
