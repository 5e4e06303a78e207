import FkServer.Library.RunningTotal
import FkServer.MaajanNanchong.Table
import FkServer.MaajanXuezhan.Settlement

/-!
The end of a round: `game_balance` with `calculate_gang`, `calculate_jiao`,
`is_jin_gou_diao`, `get_piaofan` and `get_baifan`. Where the source takes an amount from
one entry of `scores` and adds it to another, the model has a payment; the scores are the
balance of all payments. What the loops carry from one player to the next, the lists of
`typefans` and in a drawn round `fan_score`, is carried here too.
-/
namespace FkServer.MaajanNanchong

open Ledger (Payment)
open MaajanXuezhan (Section Cause Pay)

/-- What `game_balance` reads of the rule besides what the round reads: four entries of
`rule.play`, `rule.piao.piao_option` and `rule.option.hf_num`. -/
structure BalanceRule where
  chaDaJiao : Bool
  chaXiaoJiao : Bool
  jinGouGou : Bool
  ziMoJiaDi : Bool
  piaoOption : Option Nat
  hfNum : Option Int

/-- `gamedifen` -/
def BalanceRule.gamedifen (r : BalanceRule) : Int := r.hfNum.getD 1

/-- `p.hu`. A win on the tile drawn after a gang may count as shot by the giver of the gang:
then `zi_mo` is nil. -/
structure Hu where
  time : Nat
  types : Types
  ziMo : Bool
  whoee : Option Nat

/-- A player when the round is over. `piao` is read only under the option for which
everybody has answered, `baiting_num` only of a hand laid out. -/
structure EndPlayer extends Player where
  hu : Option Hu
  piao : Int
  baitingNum : Nat

/-- The table when a round ends. `tilePairs` lists the keys of a table of ready tiles, made
in this order, as `pairs` meets them. Who shot a win or gave the tile of a gang is seated. -/
structure EndState where
  conf : Conf
  rule : BalanceRule
  player : Nat → EndPlayer
  liuju : Bool
  tilePairs : List Nat → List Nat
  tilePairs_perm : ∀ tiles, (tilePairs tiles).Perm tiles.dedup
  shooter : ∀ chair ∈ conf.seats, ∀ hu, (player chair).hu = some hu → hu.ziMo = false →
    ∃ whoee ∈ conf.seats, hu.whoee = some whoee
  giver : ∀ chair ∈ conf.seats, ∀ sec ∈ (player chair).pai.mingPai, sec.type = .mingGang →
    ∃ whoee ∈ conf.seats, sec.whoee = some whoee

/-- What an entry of `typefans` is for. -/
inductive FanType
  | hu (type : HuType)
  | baoTing
deriving DecidableEq

/-- An entry of `typefans`; nobody reads its `score`. -/
structure TypeFan where
  type : FanType
  fan : Nat
  count : Nat

/-- `serial_types` -/
def serialTypes (c : Conf) (ts : Types) : List TypeFan :=
  ts.map fun tc => ⟨.hu tc.1, typesFan c tc.1, tc.2⟩

/-- `s2hu_type` -/
def s2huType : MaajanXuezhan.SectionType → Option HuType
  | .mingGang => some .mingGang
  | .anGang => some .anGang
  | .baGang => some .baGang
  | _ => none

namespace EndState
variable (e : EndState)

/-- `foreach_except(p,…)` -/
def others (chair : Nat) : List Nat := e.conf.seats.filter fun i => i ≠ chair

/-! ### Gangs and ready hands -/

/-- The fans of `calculate_gang`. -/
def gangFans (chair : Nat) : List TypeFan :=
  (gangTypes (e.player chair).pai.toPai).map fun tc => ⟨.hu tc.1, (huTypeInfo tc.1).fan, tc.2⟩

/-- `who`: the player whom the gang was transferred to, if there is one. -/
def gangTaker (chair : Nat) (sec : Section) : Nat :=
  (sec.dianPao.filter fun i => i ∈ e.conf.seats).getD chair

/-- The payments for one section in `calculate_gang`. -/
def sectionPays (chair : Nat) (sec : Section) : List Pay :=
  let who := e.gangTaker chair sec
  match s2huType sec.type with
  | none => []
  | some t =>
      let score : Int := (huTypeInfo t).score
      if t = .mingGang then
        sec.whoee.toList.map fun whoee => ⟨whoee, who, score, .gang sec⟩
      else
        ((e.others who).filter fun i => i ≠ chair ∧
            !((e.player i).hu.any fun hu => sec.time.any fun time => hu.time < time)).map
          fun i => ⟨i, who, score, .gang sec⟩

/-- The scores of `calculate_gang`. -/
def calculateGang (chair : Nat) : List Pay :=
  (e.player chair).pai.mingPai.flatMap (e.sectionPays chair)

/-- `p.jiao.tiles`, in the order of `pairs`; a winner has none. -/
def jiaoTiles (chair : Nat) : List Nat :=
  if (e.player chair).hu.isSome then [] else e.tilePairs (ting e.conf (e.player chair).toPlayer)

/-- Whether `p.jiao` is set. -/
def isJiao (chair : Nat) : Bool := !(e.jiaoTiles chair).isEmpty

/-- `type_fans` of `calculate_jiao` -/
def jiaoTypes (chair : Nat) : List Types :=
  (e.jiaoTiles chair).flatMap fun tile =>
    ruleHuTypes e.conf (e.player chair).pai.toPai (some tile) none

/-- The types `calculate_jiao` returns: the first of `type_fans` after the sort. -/
def calculateJiao (chair : Nat) : Option Types :=
  let first := fun (before : Types → Types → Bool) =>
    match e.jiaoTypes chair with
    | [] => none
    | ts :: rest => some (rest.foldl (fun best ts => if before ts best then ts else best) ts)
  if e.rule.chaDaJiao then first fun l r => calcFan e.conf r < calcFan e.conf l
  else if e.rule.chaXiaoJiao then first fun l r => calcFan e.conf l < calcFan e.conf r
  else (e.jiaoTypes chair).head?

/-- `typefans[chair_id]` as the first loop leaves it. -/
def ownTypefans (chair : Nat) : List TypeFan :=
  let p := e.player chair
  (match p.hu with
    | some hu =>
        serialTypes e.conf hu.types ++ if p.baoting = some true then [⟨.baoTing, 1, 1⟩] else []
    | none => if e.isJiao chair then serialTypes e.conf ((e.calculateJiao chair).getD []) else []) ++
  if e.isJiao chair || p.hu.isSome then e.gangFans chair else []

/-- `fans[chair_id]` -/
def fans (chair : Nat) : Nat := ((e.ownTypefans chair).map fun t => t.fan * t.count).sum

/-! ### What winning and losing adds -/

def getPiaofan (win lose : Nat) : Int :=
  let own := fun chair => if 0 < (e.player chair).piao then (e.player chair).piao else 1
  if e.rule.piaoOption.isSome then own win + own lose else 0

def getBaifan (win lose : Nat) : Int :=
  let winner := e.player win
  (if winner.baipai ∧ winner.baitingNum = 1 then 5 else 0) +
    (if winner.baipai ∧ 1 < winner.baitingNum then 2 else 0) +
    if (e.player lose).baipai then 2 else 0

/-- `is_jin_gou_diao`, for a player whose list is `types`. -/
def isJinGouDiao (chair : Nat) (types : List TypeFan) (fan : Int) : List TypeFan × Int :=
  if totalCount (e.player chair).pai.shouPai = 1 then
    (if types.any fun t => t.type = .hu .danDiaoJiang then types
      else types ++ [⟨.hu .danDiaoJiang, 1, 0⟩],
      fan + 1 + 1)
  else
    (types, fan + 1)

end EndState

/-! ### The second loop -/

/-- What `game_balance` changes: `typefans`, the payments and the statistics of ready hands
paid for, `cha_da_jiao`. -/
structure Balance where
  typefans : Nat → List TypeFan
  pays : List Pay
  chaDaJiao : Nat → Nat

/-- A player pays and has `types` listed from then on. -/
def Balance.lose (b : Balance) (types : List TypeFan) (pay : Pay) : Balance :=
  { b with typefans := alter b.typefans pay.payer fun _ => types, pays := b.pays ++ [pay] }

namespace EndState
variable (e : EndState)

/-- The test for `is_jin_gou_diao`: the list and the score of the player on `chair`. -/
def loserFan (b : Balance) (chair : Nat) (fan fanScore : Int) : List TypeFan × Int :=
  if e.rule.jinGouGou then e.isJinGouDiao chair (b.typefans chair) fan
  else (b.typefans chair, fanScore)

/-- A win by discard. -/
def shotWin (b : Balance) (chair whoee : Nat) : Balance :=
  let fan : Int := e.fans chair
  let lost := e.loserFan b whoee fan (fan + e.rule.gamedifen)
  let piScore := lost.2 + e.getPiaofan chair whoee + e.getBaifan chair whoee
  b.lose lost.1 ⟨whoee, chair, piScore, .win chair⟩

/-- What a self-drawn win takes from the player on `i`. -/
def ziMoStep (chair : Nat) (hu : Hu) (b : Balance) (i : Nat) : Balance :=
  if (e.player i).hu.any fun other => other.time ≤ hu.time then
    b
  else
    let fan : Int := e.fans chair
    let lost := e.loserFan b i fan (fan + e.rule.gamedifen)
    let piFanScore := if e.rule.ziMoJiaDi then lost.2 + 1 else lost.2
    let piFanScore := piFanScore + e.getPiaofan chair i + e.getBaifan chair i
    b.lose lost.1 ⟨i, chair, piFanScore, .win chair⟩

/-- What a ready hand takes from the player on `i`; the score goes on to the next player. -/
def jiaoStep (chair : Nat) (st : Int × Balance) (i : Nat) : Int × Balance :=
  if e.isJiao i || (e.player i).baoting = some true then
    st
  else
    let lost := e.loserFan st.2 i (e.fans chair) st.1
    let fanScore := lost.2 + e.getPiaofan i chair + e.getBaifan chair i
    let b := st.2.lose lost.1 ⟨i, chair, fanScore, .notReady chair⟩
    (fanScore,
      if e.rule.chaDaJiao then { b with chaDaJiao := alter b.chaDaJiao i (· + 1) } else b)

/-- The body of the second loop. -/
def balanceStep (b : Balance) (chair : Nat) : Balance :=
  match (e.player chair).hu with
  | some hu =>
      if hu.ziMo then (e.others chair).foldl (e.ziMoStep chair hu) b
      else hu.whoee.elim b (e.shotWin b chair)
  | none =>
      if e.liuju && e.isJiao chair then
        ((e.others chair).foldl (e.jiaoStep chair) (e.fans chair + e.rule.gamedifen, b)).2
      else
        b

/-- What the first loop leaves to the second. -/
def balanceStart : Balance where
  typefans := e.ownTypefans
  pays := e.conf.seats.flatMap fun chair =>
    if e.isJiao chair || (e.player chair).hu.isSome then e.calculateGang chair else []
  chaDaJiao := fun _ => 0

def gameBalance : Balance := e.conf.seats.foldl e.balanceStep e.balanceStart

/-- `scores[chair]` -/
def scores (chair : Nat) : Int := Ledger.balance e.gameBalance.pays chair

/-- `fanscores[chair]` -/
def fanscores (chair : Nat) : Nat × Int := (e.fans chair, e.scores chair)

/-! ### What the loops pay -/

/-- Whether the player on `chair` pays for the ready hands of a drawn round. -/
def unready (chair : Nat) : Bool := !(e.isJiao chair || (e.player chair).baoting = some true)

/-- Who pays for the ready hand on `chair`, in the order of the loop. -/
def losers (chair : Nat) : List Nat := (e.others chair).filter e.unready

/-- The score of `is_jin_gou_diao`, whatever is listed. -/
def jinScore (chair : Nat) (fan : Int) : Int :=
  if totalCount (e.player chair).pai.shouPai = 1 then fan + 1 + 1 else fan + 1

/-- What `payer` owes to `payee` before the float and the cards laid out. -/
def lossScore (payee payer : Nat) : Int :=
  if e.rule.jinGouGou then e.jinScore payer (e.fans payee) else e.fans payee + e.rule.gamedifen

/-- What the float and the cards laid out add between two players. -/
def bonus (payee payer : Nat) : Int := e.getPiaofan payee payer + e.getBaifan payee payer

/-- The payments for a win. -/
def winPays (chair : Nat) (hu : Hu) : List Pay :=
  if hu.ziMo then
    ((e.others chair).filter fun i => !((e.player i).hu.any fun other => other.time ≤ hu.time)).map
      fun i => ⟨i, chair, e.lossScore chair i + (if e.rule.ziMoJiaDi then 1 else 0) +
        e.bonus chair i, .win chair⟩
  else
    hu.whoee.toList.map fun whoee =>
      ⟨whoee, chair, e.lossScore chair whoee + e.bonus chair whoee, .win chair⟩

/-- The payments for a ready hand. Only under `jin_gou_gou` does the score start afresh
with every player. -/
def readyPays (chair : Nat) : List Pay :=
  if e.rule.jinGouGou then
    (e.losers chair).map fun i =>
      ⟨i, chair, e.lossScore chair i + e.bonus chair i, .notReady chair⟩
  else
    (RunningTotal.totals (e.bonus chair) (e.fans chair + e.rule.gamedifen) (e.losers chair)).map
      fun note => ⟨note.1, chair, note.2, .notReady chair⟩

/-- What one turn of the second loop pays. -/
def huPays (chair : Nat) : List Pay :=
  match (e.player chair).hu with
  | some hu => e.winPays chair hu
  | none => if e.liuju && e.isJiao chair then e.readyPays chair else []

variable {e : EndState}

theorem loserFan_score (b : Balance) (chair : Nat) (fan fanScore : Int) :
    (e.loserFan b chair fan fanScore).2 =
      if e.rule.jinGouGou then e.jinScore chair fan else fanScore := by
  unfold loserFan isJinGouDiao jinScore
  split
  · split <;> rfl
  · rfl

theorem getPiaofan_comm (i j : Nat) : e.getPiaofan i j = e.getPiaofan j i := by
  simp only [getPiaofan, add_comm]

/-- A loop in which each turn appends what it pays, whatever it starts from. -/
theorem foldl_pays {State : Type} (pays : State → List Pay) {step : State → Nat → State}
    {own : Nat → List Pay} (one : ∀ st i, pays (step st i) = pays st ++ own i) (l : List Nat)
    (st : State) : pays (l.foldl step st) = pays st ++ l.flatMap own := by
  induction l generalizing st with
  | nil => simp
  | cons i rest ih => rw [List.foldl_cons, ih, one, List.flatMap_cons, List.append_assoc]

theorem shotWin_pays (b : Balance) (chair whoee : Nat) :
    (e.shotWin b chair whoee).pays =
      b.pays ++ [⟨whoee, chair, e.lossScore chair whoee + e.bonus chair whoee, .win chair⟩] := by
  simp only [shotWin, Balance.lose, loserFan_score, lossScore, bonus, add_assoc]

theorem ziMo_pays {chair : Nat} {hu : Hu} (drawn : hu.ziMo = true) (b : Balance) :
    ((e.others chair).foldl (e.ziMoStep chair hu) b).pays = b.pays ++ e.winPays chair hu := by
  have one : ∀ b i, (e.ziMoStep chair hu b i).pays = b.pays ++
      if (e.player i).hu.any fun other => other.time ≤ hu.time then [] else
        [⟨i, chair, e.lossScore chair i + (if e.rule.ziMoJiaDi then 1 else 0) + e.bonus chair i,
          .win chair⟩] := by
    intro b i
    unfold ziMoStep
    split
    · rw [List.append_nil]
    · simp only [Balance.lose, loserFan_score, lossScore, bonus]
      split <;> simp only [add_assoc, zero_add]
  rw [foldl_pays Balance.pays one, winPays, if_pos drawn]
  congr 1
  induction e.others chair with
  | nil => rfl
  | cons i rest ih =>
      by_cases out : (e.player i).hu.any fun other => other.time ≤ hu.time
      · simp [out, ih]
      · simp [out, ih]

/-- One turn of the loop over a player who pays. -/
theorem jiaoStep_pays {i : Nat} (pays : e.unready i = true) (chair : Nat) (st : Int × Balance) :
    (e.jiaoStep chair st i).1 =
        (if e.rule.jinGouGou then e.jinScore i (e.fans chair) else st.1) + e.bonus chair i ∧
      (e.jiaoStep chair st i).2.pays =
        st.2.pays ++ [⟨i, chair, (e.jiaoStep chair st i).1, .notReady chair⟩] := by
  have free : (e.isJiao i || (e.player i).baoting = some true) = false := by
    simpa [unready] using pays
  simp only [jiaoStep, free, Bool.false_eq_true, if_false, loserFan_score, bonus,
    getPiaofan_comm i chair, add_assoc, true_and]
  split <;> rfl

theorem jiaoStep_skip {i : Nat} (free : e.unready i = false) (chair : Nat) (st : Int × Balance) :
    e.jiaoStep chair st i = st := by
  rw [unready, Bool.not_eq_false'] at free
  rw [jiaoStep, if_pos free]

theorem jiao_pays_afresh (jin : e.rule.jinGouGou = true) (chair : Nat) (st : Int × Balance) :
    ((e.others chair).foldl (e.jiaoStep chair) st).2.pays = st.2.pays ++ e.readyPays chair := by
  rw [readyPays, if_pos jin, losers]
  induction e.others chair generalizing st with
  | nil => simp
  | cons i rest ih =>
      rw [List.foldl_cons, ih]
      cases owes : e.unready i with
      | true =>
          obtain ⟨score, pays⟩ := jiaoStep_pays owes chair st
          rw [if_pos jin] at score
          rw [pays, score, List.filter_cons_of_pos owes, List.map_cons, lossScore, if_pos jin]
          simp
      | false => rw [jiaoStep_skip owes, List.filter_cons_of_neg (by simp [owes])]

/-- Without `jin_gou_gou` the score goes from one payer to the next. -/
theorem jiao_pays_carried (plain : e.rule.jinGouGou = false) (chair : Nat) (b : Balance) :
    ((e.others chair).foldl (e.jiaoStep chair) (e.fans chair + e.rule.gamedifen, b)).2.pays =
      b.pays ++ e.readyPays chair := by
  have run : ∀ (l : List Nat) (st : Int × Balance),
      (l.foldl (e.jiaoStep chair) st).2.pays = st.2.pays ++
        (RunningTotal.totals (e.bonus chair) st.1 (l.filter e.unready)).map
          fun note => ⟨note.1, chair, note.2, .notReady chair⟩ := by
    intro l
    induction l with
    | nil => simp [RunningTotal.totals]
    | cons i rest ih =>
        intro st
        rw [List.foldl_cons, ih]
        cases owes : e.unready i with
        | true =>
            obtain ⟨score, pays⟩ := jiaoStep_pays owes chair st
            rw [if_neg (by simp [plain])] at score
            rw [pays, score, List.filter_cons_of_pos owes, RunningTotal.totals]
            simp
        | false => rw [jiaoStep_skip owes, List.filter_cons_of_neg (by simp [owes])]
  rw [run, readyPays, if_neg (by simp [plain]), losers]

theorem balanceStep_pays (b : Balance) (chair : Nat) :
    (e.balanceStep b chair).pays = b.pays ++ e.huPays chair := by
  unfold balanceStep huPays
  cases (e.player chair).hu with
  | some hu =>
      dsimp only
      cases drawn : hu.ziMo with
      | true => exact ziMo_pays drawn b
      | false =>
          rw [winPays, if_neg (by simp), if_neg (by simp [drawn])]
          cases hu.whoee with
          | none => simp
          | some whoee => exact shotWin_pays b chair whoee
  | none =>
      dsimp only
      split
      · cases jin : e.rule.jinGouGou with
        | true => exact jiao_pays_afresh jin chair _
        | false => exact jiao_pays_carried jin chair b
      · rw [List.append_nil]

theorem gameBalance_pays :
    e.gameBalance.pays = e.balanceStart.pays ++ e.conf.seats.flatMap e.huPays :=
  foldl_pays Balance.pays balanceStep_pays e.conf.seats e.balanceStart

theorem sectionPays_cause {chair : Nat} {sec : Section} {pay : Pay}
    (h : pay ∈ e.sectionPays chair sec) : pay.cause = .gang sec := by
  unfold sectionPays at h
  dsimp only at h
  split at h
  · cases h
  · split at h
    · obtain ⟨whoee, _, rfl⟩ := List.mem_map.1 h
      rfl
    · obtain ⟨i, _, rfl⟩ := List.mem_map.1 h
      rfl

/-! ### The scores sum to zero -/

theorem seated_of_others {chair i : Nat} (h : i ∈ e.others chair) : i ∈ e.conf.seats :=
  List.mem_of_mem_filter h

theorem winPays_parties {chair : Nat} (seated : chair ∈ e.conf.seats) {hu : Hu}
    (won : (e.player chair).hu = some hu) {pay : Pay} (h : pay ∈ e.winPays chair hu) :
    pay.payer ∈ e.conf.seats ∧ pay.payee = chair := by
  unfold winPays at h
  split at h
  · obtain ⟨i, listed, rfl⟩ := List.mem_map.1 h
    exact ⟨seated_of_others (List.mem_of_mem_filter listed), rfl⟩
  · rename_i shot
    obtain ⟨shooter, in_seats, source⟩ := e.shooter chair seated hu won (by simpa using shot)
    rw [source] at h
    obtain rfl := List.mem_singleton.1 h
    exact ⟨in_seats, rfl⟩

theorem readyPays_parties {chair : Nat} {pay : Pay} (h : pay ∈ e.readyPays chair) :
    pay.payer ∈ e.conf.seats ∧ pay.payee = chair := by
  unfold readyPays at h
  split at h
  · obtain ⟨i, listed, rfl⟩ := List.mem_map.1 h
    exact ⟨seated_of_others (List.mem_of_mem_filter listed), rfl⟩
  · obtain ⟨note, noted, rfl⟩ := List.mem_map.1 h
    exact ⟨seated_of_others (List.mem_of_mem_filter (RunningTotal.fst_mem noted)), rfl⟩

/-- In the turn of `chair` the other players pay to `chair`. -/
theorem huPays_parties {chair : Nat} (seated : chair ∈ e.conf.seats) {pay : Pay}
    (h : pay ∈ e.huPays chair) : pay.payer ∈ e.conf.seats ∧ pay.payee = chair := by
  unfold huPays at h
  split at h
  · exact winPays_parties seated (by assumption) h
  · split at h
    · exact readyPays_parties h
    · cases h

theorem gangTaker_seated {chair : Nat} (seated : chair ∈ e.conf.seats) (sec : Section) :
    e.gangTaker chair sec ∈ e.conf.seats := by
  unfold gangTaker
  cases taker : sec.dianPao.filter fun i => i ∈ e.conf.seats with
  | none => exact seated
  | some i =>
      obtain ⟨_, in_seats⟩ := Option.filter_eq_some_iff.1 taker
      simpa using in_seats

theorem sectionPays_seated {chair : Nat} (seated : chair ∈ e.conf.seats) {sec : Section}
    (laid : sec ∈ (e.player chair).pai.mingPai) {pay : Pay} (h : pay ∈ e.sectionPays chair sec) :
    pay.payer ∈ e.conf.seats ∧ pay.payee ∈ e.conf.seats := by
  have taker := gangTaker_seated seated sec
  unfold sectionPays at h
  cases kind : s2huType sec.type with
  | none =>
      rw [kind] at h
      cases h
  | some t =>
      simp only [kind] at h
      by_cases ming : t = .mingGang
      · have type : sec.type = .mingGang := by
          subst ming
          revert kind
          cases sec.type <;> simp [s2huType]
        obtain ⟨whoee, in_seats, source⟩ := e.giver chair seated sec laid type
        rw [if_pos ming, source] at h
        obtain rfl := List.mem_singleton.1 h
        exact ⟨in_seats, taker⟩
      · rw [if_neg ming] at h
        obtain ⟨i, listed, rfl⟩ := List.mem_map.1 h
        exact ⟨seated_of_others (List.mem_of_mem_filter listed), taker⟩

theorem gameBalance_seated {pay : Pay} (h : pay ∈ e.gameBalance.pays) :
    pay.payer ∈ e.conf.seats ∧ pay.payee ∈ e.conf.seats := by
  rw [gameBalance_pays] at h
  rcases List.mem_append.1 h with gang | other
  · obtain ⟨chair, seated, in_gangs⟩ := List.mem_flatMap.1 gang
    split at in_gangs
    · obtain ⟨sec, laid, paid⟩ := List.mem_flatMap.1 in_gangs
      exact sectionPays_seated seated laid paid
    · cases in_gangs
  · obtain ⟨chair, seated, paid⟩ := List.mem_flatMap.1 other
    obtain ⟨payer, payee⟩ := huPays_parties seated paid
    exact ⟨payer, payee ▸ seated⟩

theorem sum_fanscores : ∑ chair ∈ e.conf.seats.toFinset, (e.fanscores chair).2 = 0 := by
  apply Ledger.sum_balance
  intro pay h
  obtain ⟨payer, payee⟩ := gameBalance_seated h
  exact ⟨List.mem_toFinset.2 payer, List.mem_toFinset.2 payee⟩

/-! ### The lists of `typefans` -/

/-! ### A ready hand has a worth -/

end EndState
end FkServer.MaajanNanchong
