import FkServer.MaajanNanchong.Settlement
import Mathlib.Algebra.Order.Group.Int

/-!
What one player pays to another for a win or a ready hand, and what it depends on: the
hands, the flags and the stakes of these two, and in a drawn round, where the score of the
loop is not reset, the losers whom the loop meets before the payer.
-/
namespace FkServer.MaajanNanchong

open MaajanXuezhan (SectionType Cause tileMen tileValue)
open MaajanXuezhan.Rule (cache isQiDui isSiDui isDui isQingYiSe is258 gouCount isYiTiaoLong
  isAll19 isMenQing tingTiles tingSiDui)

/-! ### What the rules see of a hand -/

/-- The melds as the rules see them: not from whom, when or for whom they were laid. -/
def melds (pai : MaajanXuezhan.Pai) : List (SectionType × Nat) :=
  pai.mingPai.map fun s => (s.type, s.tile)

structure SameHand (pai pai' : MaajanXuezhan.Pai) : Prop where
  hand : pai.shouPai = pai'.shouPai
  melds : melds pai = melds pai'

namespace SameHand
variable {pai pai' : MaajanXuezhan.Pai} (same : SameHand pai pai')
include same

theorem countP (q : SectionType × Nat → Bool) :
    (pai.mingPai.countP fun s => q (s.type, s.tile)) =
      pai'.mingPai.countP fun s => q (s.type, s.tile) := by
  have := congrArg (List.countP q) same.melds
  simpa only [MaajanNanchong.melds, List.countP_map, Function.comp_def] using this

theorem all (q : SectionType × Nat → Bool) :
    (pai.mingPai.all fun s => q (s.type, s.tile)) =
      pai'.mingPai.all fun s => q (s.type, s.tile) := by
  have := congrArg (List.all · q) same.melds
  simpa only [MaajanNanchong.melds, List.all_map, Function.comp_def] using this

theorem length : pai.mingPai.length = pai'.mingPai.length := by
  have := congrArg List.length same.melds
  simpa only [MaajanNanchong.melds, List.length_map] using this

theorem cache_eq : cache pai = cache pai' := by
  funext inPai
  cases inPai <;> simp only [cache, same.hand]

theorem isQiDui_eq : isQiDui pai = isQiDui pai' := by
  funext counts
  simp only [isQiDui, isDui, same.length]

theorem isSiDui_eq : isSiDui pai = isSiDui pai' := by
  funext counts
  simp only [isSiDui, isDui, same.length]

theorem isQingYiSe_eq : isQingYiSe pai = isQingYiSe pai' := by
  funext counts
  have men := fun men => same.countP fun m => tileMen m.2 = men
  simp only [isQingYiSe, men]

theorem isQueYiMen_eq : Rule.isQueYiMen pai = Rule.isQueYiMen pai' := by
  funext counts
  have men := fun men => same.countP fun m => tileMen m.2 = men
  simp only [Rule.isQueYiMen, men]

theorem isMenQing_eq : isMenQing pai = isMenQing pai' :=
  same.all fun m => m.1 = .anGang

theorem gouCount_eq : gouCount pai = gouCount pai' := by
  funext counts
  have peng := same.countP fun m => m.1 = .peng ∧ counts m.2 = 1
  simp only [gouCount, peng]

theorem is258_eq : is258 pai = is258 pai' := by
  funext counts
  have good := same.all fun m => tileValue m.2 = 2 ∨ tileValue m.2 = 5 ∨ tileValue m.2 = 8
  simp only [is258, good]

theorem isAll19_eq : isAll19 pai = isAll19 pai' := by
  funext sections
  have ends := same.all fun m => MaajanXuezhan.Rule.isYaoJiu m.2
  simp only [isAll19, ends]

theorem isYiTiaoLong_eq : isYiTiaoLong pai = isYiTiaoLong pai' := by
  funext inPai
  unfold isYiTiaoLong
  rw [same.cache_eq, same.isQingYiSe_eq, same.length]

theorem getHuTypes_eq : Rule.getHuTypes pai = Rule.getHuTypes pai' := by
  funext counts sections inPai moPai
  unfold Rule.getHuTypes
  rw [same.is258_eq, same.isAll19_eq, same.isYiTiaoLong_eq]

theorem hu_eq : Rule.hu pai = Rule.hu pai' := by
  funext inPai moPai
  unfold Rule.hu
  rw [same.cache_eq, same.isQiDui_eq, same.isSiDui_eq, same.isQingYiSe_eq, same.isQueYiMen_eq,
    same.isMenQing_eq, same.gouCount_eq, same.getHuTypes_eq, same.hand]

theorem tingTiles_eq : tingTiles pai = tingTiles pai' := by
  funext siDui
  unfold tingTiles tingSiDui
  rw [same.cache_eq, same.length]

theorem gangTypes_eq : gangTypes pai = gangTypes pai' := by
  have kind := fun type => same.countP fun m => m.1 = type
  simp only [gangTypes, kind]

end SameHand

section
variable {c c' : Conf} (play : c.play = c'.play) (option : c.playOption = c'.playOption)
include play option

theorem typesFan_congr : typesFan c = typesFan c' := by
  funext t
  unfold typesFan
  rw [play, option]

theorem calcFan_congr : calcFan c = calcFan c' := by
  funext ts
  unfold calcFan
  rw [typesFan_congr play option]

theorem serialTypes_congr : serialTypes c = serialTypes c' := by
  funext ts
  unfold serialTypes
  rw [typesFan_congr play option]

theorem ruleHuTypes_congr {pai pai' : MaajanXuezhan.Pai} (same : SameHand pai pai') :
    ruleHuTypes c pai = ruleHuTypes c' pai' := by
  funext inPai moPai
  unfold ruleHuTypes
  rw [play, option, same.hu_eq]

end

/-! ### Two players at two tables -/

/-- The hand, the flags and the stakes of a player: what is concealed and laid, when, with
what and whether by self-draw the player won, whether the hand was declared or laid out,
on how many tiles, and the float. -/
structure Holding where
  shouPai : Counts
  melds : List (SectionType × Nat)
  won : Option (Nat × Types × Bool)
  baoting : Option Bool
  baipai : Bool
  baitingNum : Nat
  piao : Int

def EndPlayer.holding (p : EndPlayer) : Holding where
  shouPai := p.pai.shouPai
  melds := melds p.pai.toPai
  won := p.hu.map fun hu => (hu.time, hu.types, hu.ziMo)
  baoting := p.baoting
  baipai := p.baipai
  baitingNum := p.baitingNum
  piao := p.piao

namespace EndPlayer
variable {p p' : EndPlayer} (same : p.holding = p'.holding)
include same

theorem hand_of_holding : SameHand p.pai.toPai p'.pai.toPai :=
  ⟨congrArg Holding.shouPai same, congrArg Holding.melds same⟩

/-- Both have won, alike but for the shooter, or neither has. -/
theorem won_of_holding : (p.hu = none ∧ p'.hu = none) ∨
    ∃ hu hu', p.hu = some hu ∧ p'.hu = some hu' ∧ hu.time = hu'.time ∧ hu.types = hu'.types ∧
      hu.ziMo = hu'.ziMo := by
  have won := congrArg Holding.won same
  simp only [holding] at won
  cases own : p.hu with
  | none =>
      cases own' : p'.hu with
      | none => exact .inl ⟨rfl, rfl⟩
      | some hu' => simp [own, own'] at won
  | some hu =>
      cases own' : p'.hu with
      | none => simp [own, own'] at won
      | some hu' =>
          simp only [own, own', Option.map_some, Option.some.injEq, Prod.mk.injEq] at won
          exact .inr ⟨hu, hu', rfl, rfl, won.1, won.2.1, won.2.2⟩

theorem isSome_of_holding : p.hu.isSome = p'.hu.isSome := by
  have won := congrArg (fun h : Holding => h.won.isSome) same
  simpa only [holding, Option.isSome_map] using won

end EndPlayer

/-- Two tables under the same options, both drawn or neither. -/
structure SameRule (e e' : EndState) : Prop where
  play : e.conf.play = e'.conf.play
  playOption : e.conf.playOption = e'.conf.playOption
  rule : e.rule = e'.rule
  liuju : e.liuju = e'.liuju
  tilePairs : e.tilePairs = e'.tilePairs

namespace SameRule
variable {e e' : EndState} (options : SameRule e e') {i i' j j' : Nat}
include options

section
variable (same : (e.player i).holding = (e'.player i').holding)
include same

theorem jiaoTiles_eq : e.jiaoTiles i = e'.jiaoTiles i' := by
  unfold EndState.jiaoTiles ting
  rw [EndPlayer.isSome_of_holding same, (EndPlayer.hand_of_holding same).tingTiles_eq,
    options.play, options.tilePairs]

theorem isJiao_eq : e.isJiao i = e'.isJiao i' := by
  unfold EndState.isJiao
  rw [options.jiaoTiles_eq same]

theorem calculateJiao_eq : e.calculateJiao i = e'.calculateJiao i' := by
  unfold EndState.calculateJiao EndState.jiaoTypes
  rw [options.jiaoTiles_eq same, options.rule, calcFan_congr options.play options.playOption,
    ruleHuTypes_congr options.play options.playOption (EndPlayer.hand_of_holding same)]

theorem ownTypefans_eq : e.ownTypefans i = e'.ownTypefans i' := by
  have baoting : (e.player i).baoting = (e'.player i').baoting := congrArg Holding.baoting same
  unfold EndState.ownTypefans EndState.gangFans
  dsimp only
  rw [options.isJiao_eq same, options.calculateJiao_eq same, baoting,
    serialTypes_congr options.play options.playOption,
    (EndPlayer.hand_of_holding same).gangTypes_eq]
  rcases EndPlayer.won_of_holding same with ⟨none_, none_'⟩ | ⟨hu, hu', won, won', _, types, _⟩
  · rw [none_, none_']
  · simp only [won, won', types, Option.isSome_some]

theorem fans_eq : e.fans i = e'.fans i' := by
  unfold EndState.fans
  rw [options.ownTypefans_eq same]

theorem unready_eq : e.unready i = e'.unready i' := by
  have baoting : (e.player i).baoting = (e'.player i').baoting := congrArg Holding.baoting same
  unfold EndState.unready
  rw [options.isJiao_eq same, baoting]

end

variable (payee : (e.player i).holding = (e'.player i').holding)
  (payer : (e.player j).holding = (e'.player j').holding)
include payee payer

theorem lossScore_eq : e.lossScore i j = e'.lossScore i' j' := by
  unfold EndState.lossScore EndState.jinScore
  rw [options.fans_eq payee, options.rule, (EndPlayer.hand_of_holding payer).hand]

theorem bonus_eq : e.bonus i j = e'.bonus i' j' := by
  have piao : (e.player i).piao = (e'.player i').piao := congrArg Holding.piao payee
  have piao' : (e.player j).piao = (e'.player j').piao := congrArg Holding.piao payer
  have baipai : (e.player i).baipai = (e'.player i').baipai := congrArg Holding.baipai payee
  have baipai' : (e.player j).baipai = (e'.player j').baipai := congrArg Holding.baipai payer
  have num : (e.player i).baitingNum = (e'.player i').baitingNum :=
    congrArg Holding.baitingNum payee
  unfold EndState.bonus EndState.getPiaofan EndState.getBaifan
  dsimp only
  rw [piao, piao', baipai, baipai', num, options.rule]

end SameRule

/-! ### The payment between two players -/

def ofGang : Cause → Bool
  | .gang _ => true
  | _ => false

namespace EndState
variable (e : EndState)

/-- What `payer` pays to `payee` for a win or a ready hand. -/
def payment (payee payer : Nat) : Int :=
  Ledger.paid (fun cause => !ofGang cause) e.gameBalance.pays payer payee

def shotBy (payee payer : Nat) : Bool := (e.player payee).hu.any fun hu => hu.whoee = some payer

/-- Whether `payer` pays for the ready hand of `payee`. -/
def owesReady (payee payer : Nat) : Bool := e.liuju && e.isJiao payee && e.unready payer

/-- What `payer` owes to `payee`, for all that the rest of the table has to do with it. -/
def due (payee payer : Nat) : Int :=
  match (e.player payee).hu with
  | some hu =>
      if hu.ziMo then
        if (e.player payer).hu.any fun other => other.time ≤ hu.time then 0
        else e.lossScore payee payer + (if e.rule.ziMoJiaDi then 1 else 0) + e.bonus payee payer
      else if e.shotBy payee payer then e.lossScore payee payer + e.bonus payee payer
      else 0
  | none =>
      if e.owesReady payee payer then e.lossScore payee payer + e.bonus payee payer else 0

/-- What the loop over the losers has added to the score of a ready hand when it comes to
`payer`: the float and the cards laid out between `payee` and the losers met before. -/
def carried (payee payer : Nat) : Int :=
  if e.owesReady payee payer && !e.rule.jinGouGou then
    RunningTotal.before (e.bonus payee) (e.losers payee) payer
  else
    0

variable {e : EndState} {payee payer : Nat}

theorem others_nodup (chair : Nat) : (e.others chair).Nodup := e.conf.seats_nodup.filter _

theorem mem_others (seated : payer ∈ e.conf.seats) (apart : payer ≠ payee) :
    payer ∈ e.others payee := by
  simp [others, seated, apart]

theorem mem_losers (other : payer ∈ e.others payee) :
    payer ∈ e.losers payee ↔ e.unready payer = true := by
  simp [losers, other]

theorem not_isJiao_of_won {hu : Hu} (won : (e.player payee).hu = some hu) :
    e.isJiao payee = false := by
  simp [isJiao, jiaoTiles, won]

/-- Only the turn of `payee` in the second loop brings `payee` anything. -/
theorem payment_eq_paid (seated : payee ∈ e.conf.seats) :
    e.payment payee payer =
      Ledger.paid (fun cause => !ofGang cause) (e.huPays payee) payer payee := by
  have gangs : Ledger.paid (fun cause => !ofGang cause) e.balanceStart.pays payer payee = 0 := by
    refine Ledger.paid_eq_zero fun pay h cause _ _ => ?_
    obtain ⟨chair, _, in_gangs⟩ := List.mem_flatMap.1 h
    split at in_gangs
    · obtain ⟨sec, _, paid⟩ := List.mem_flatMap.1 in_gangs
      simp [sectionPays_cause paid, ofGang] at cause
    · cases in_gangs
  rw [payment, gameBalance_pays, Ledger.paid_append, gangs, zero_add,
    Ledger.paid_flatMap (fun _ here _ h => (huPays_parties here h).2) e.conf.seats_nodup seated]

theorem paid_winPays (other : payer ∈ e.others payee) {hu : Hu}
    (won : (e.player payee).hu = some hu) :
    Ledger.paid (fun cause => !ofGang cause) (e.winPays payee hu) payer payee =
      e.due payee payer := by
  simp only [winPays, due, won, shotBy, Option.any_some, decide_eq_true_eq]
  cases hu.ziMo with
  | true =>
      simp only [if_true]
      rw [Ledger.paid_each rfl _ ((others_nodup payee).filter _)]
      simp only [List.mem_filter, other, true_and]
      cases (e.player payer).hu.any fun other => other.time ≤ hu.time <;> simp
  | false =>
      have one : hu.whoee.toList.Nodup := by cases hu.whoee <;> simp
      simp only [Bool.false_eq_true, if_false]
      rw [Ledger.paid_each rfl _ one]
      simp only [Option.mem_toList]

theorem paid_readyPays (other : payer ∈ e.others payee) (drawn : e.liuju = true)
    (ready : e.isJiao payee = true) (unwon : (e.player payee).hu = none) :
    Ledger.paid (fun cause => !ofGang cause) (e.readyPays payee) payer payee =
      e.due payee payer + e.carried payee payer := by
  have distinct : (e.losers payee).Nodup := (others_nodup payee).filter _
  have owes : e.owesReady payee payer = e.unready payer := by simp [owesReady, drawn, ready]
  simp only [readyPays, due, carried, unwon, owes]
  cases jin : e.rule.jinGouGou with
  | true =>
      simp only [if_true]
      rw [Ledger.paid_each rfl _ distinct]
      simp [mem_losers other]
  | false =>
      simp only [Bool.false_eq_true, if_false, Bool.not_false, Bool.and_true]
      rw [Ledger.paid_map rfl Prod.fst Prod.snd]
      by_cases loses : e.unready payer = true
      · rw [RunningTotal.filter_totals distinct ((mem_losers other).2 loses)]
        simp only [loses, if_true, lossScore, jin, Bool.false_eq_true, if_false, List.map_cons,
          List.map_nil, List.sum_cons, List.sum_nil]
        omega
      · have none_ : (RunningTotal.totals (e.bonus payee) (e.fans payee + e.rule.gamedifen)
            (e.losers payee)).filter (fun note => note.1 = payer) = [] := by
          refine List.filter_eq_nil_iff.2 fun note h same => loses ?_
          rw [← (mem_losers other), ← of_decide_eq_true same]
          exact RunningTotal.fst_mem h
        rw [none_]
        simp [loses]

/-- A payment is what the two players owe each other, and what the loop carries along. -/
theorem payment_eq (payee_in : payee ∈ e.conf.seats) (payer_in : payer ∈ e.conf.seats)
    (apart : payer ≠ payee) : e.payment payee payer = e.due payee payer + e.carried payee payer := by
  have other := mem_others payer_in apart
  rw [payment_eq_paid payee_in, huPays]
  cases won : (e.player payee).hu with
  | some hu =>
      have none_carried : e.carried payee payer = 0 := by
        simp [carried, owesReady, not_isJiao_of_won won]
      rw [none_carried, add_zero]
      exact paid_winPays other won
  | none =>
      dsimp only
      by_cases ends : (e.liuju && e.isJiao payee) = true
      · obtain ⟨drawn, ready⟩ := Bool.and_eq_true_iff.1 ends
        rw [if_pos ends]
        exact paid_readyPays other drawn ready won
      · have none_owed : e.owesReady payee payer = false := by
          simp [owesReady, ends]
        rw [if_neg ends]
        simp [due, carried, won, none_owed, Ledger.paid]

theorem getPiaofan_nonneg (i j : Nat) : 0 ≤ e.getPiaofan i j := by
  unfold getPiaofan
  dsimp only
  split
  · split <;> split <;> omega
  · exact le_rfl

theorem getBaifan_nonneg (i j : Nat) : 0 ≤ e.getBaifan i j := by
  unfold getBaifan
  dsimp only
  split <;> split <;> split <;> decide

/-- Two players settle what they owe each other, unless `payer` pays for a ready hand, the
score is not reset, and a loser met before floats or has cards laid out between. -/
theorem payment_eq_due_iff (payee_in : payee ∈ e.conf.seats) (payer_in : payer ∈ e.conf.seats)
    (apart : payer ≠ payee) : e.payment payee payer = e.due payee payer ↔
      (e.owesReady payee payer = true → e.rule.jinGouGou = false →
        ∀ i ∈ (e.losers payee).takeWhile (fun i => i ≠ payer), e.bonus payee i = 0) := by
  rw [payment_eq payee_in payer_in apart, add_eq_left, carried]
  have nonneg : ∀ i, 0 ≤ e.bonus payee i := fun i =>
    add_nonneg (getPiaofan_nonneg payee i) (getBaifan_nonneg payee i)
  by_cases owes : (e.owesReady payee payer && !e.rule.jinGouGou) = true
  · rw [if_pos owes, RunningTotal.before_eq_zero_iff nonneg]
    simp only [Bool.and_eq_true, Bool.not_eq_true'] at owes
    exact ⟨fun nothing _ _ => nothing, fun nothing => nothing owes.1 owes.2⟩
  · rw [if_neg owes]
    simp only [Bool.and_eq_true, Bool.not_eq_true', not_and] at owes
    exact ⟨fun _ owed plain => absurd plain (owes owed), fun _ => rfl⟩

end EndState

/-- `payee` and `payer` of one table and `payee'` and `payer'` of another hold the same, and
the one shot the win of the other at both tables or at neither. The rest of the tables may
differ, and so may the seats. -/
structure SamePair (e e' : EndState) (payee payer payee' payer' : Nat) : Prop
    extends SameRule e e' where
  payee_in : payee ∈ e.conf.seats
  payer_in : payer ∈ e.conf.seats
  apart : payer ≠ payee
  payee_in' : payee' ∈ e'.conf.seats
  payer_in' : payer' ∈ e'.conf.seats
  apart' : payer' ≠ payee'
  payee_same : (e.player payee).holding = (e'.player payee').holding
  payer_same : (e.player payer).holding = (e'.player payer').holding
  shot : e.shotBy payee payer = e'.shotBy payee' payer'

namespace SamePair
variable {e e' : EndState} {payee payer payee' payer' : Nat}
  (pair : SamePair e e' payee payer payee' payer')
include pair

theorem owesReady_eq : e.owesReady payee payer = e'.owesReady payee' payer' := by
  unfold EndState.owesReady
  rw [pair.liuju, pair.isJiao_eq pair.payee_same, pair.unready_eq pair.payer_same]

theorem due_eq : e.due payee payer = e'.due payee' payer' := by
  have loss := pair.lossScore_eq pair.payee_same pair.payer_same
  have bonus := pair.bonus_eq pair.payee_same pair.payer_same
  have earlier : ∀ time, ((e.player payer).hu.any fun other => other.time ≤ time) =
      (e'.player payer').hu.any fun other => other.time ≤ time := by
    intro time
    rcases EndPlayer.won_of_holding pair.payer_same with
      ⟨none_, none_'⟩ | ⟨hu, hu', won, won', times, _, _⟩
    · rw [none_, none_']
    · simp only [won, won', times, Option.any_some]
  rcases EndPlayer.won_of_holding pair.payee_same with
    ⟨none_, none_'⟩ | ⟨hu, hu', won, won', times, _, ziMo⟩
  · simp only [EndState.due, none_, none_', pair.owesReady_eq, loss, bonus]
  · simp only [EndState.due, won, won', times, ziMo, earlier, pair.shot, loss, bonus, pair.rule]

theorem payment_eq_iff : e.payment payee payer = e'.payment payee' payer' ↔
    e.carried payee payer = e'.carried payee' payer' := by
  rw [EndState.payment_eq pair.payee_in pair.payer_in pair.apart,
    EndState.payment_eq pair.payee_in' pair.payer_in' pair.apart', pair.due_eq, add_right_inj]

end SamePair

/-! ### Three players in a drawn round -/

/-- A player who has shown triplets of the tiles `pengs` and holds `tiles`. -/
def shown (pengs tiles : List Nat) : EndPlayer where
  pai :=
    { shouPai := Rule.laidCounts tiles
      mingPai := pengs.map fun tile => meld .peng tile none
      deskTiles := []
      huan := none
      baiPai := []
      baiTing := [] }
  lastAction := none
  moPai := none
  chuPai := none
  moPaiCount := 0
  chuPaiCount := 0
  baoting := none
  baotingInfo := none
  baipai := false
  canDiscards := none
  gzh := fun _ => none
  gsp := fun _ => false
  lastPenghu := none
  hu := none
  piao := 1
  baitingNum := 0

def threeSeats : Conf where
  chairCount := 3
  seats := [1, 2, 3]
  zhuang := 1
  playOption := some .sanRenLiangFang
  play := ⟨false, false, false, false, false, false, false, false, false, false, false, false,
    false, false, false, false, false, false, false, none, 13, none⟩
  pairs := id
  chairs_le := by decide
  seats_nodup := by decide
  seats_in := by decide
  two_seats := by decide
  zhuang_in := by decide
  pairs_perm := fun _ => .refl _
  hand_size := by decide
  enough := by decide

/-- The wall is used up and nobody has won. Everybody floats one; `jin_gou_gou` is off. -/
def drawnRound (hands : Nat → List Nat × List Nat) : EndState where
  conf := threeSeats
  rule := ⟨true, false, false, false, some 0, none⟩
  player := fun chair => shown (hands chair).1 (hands chair).2
  liuju := true
  tilePairs := List.dedup
  tilePairs_perm := fun _ => .refl _
  shooter := by
    intro chair _ hu won
    cases won
  giver := by
    intro chair _ sec laid type
    obtain ⟨tile, _, rfl⟩ := List.mem_map.1 laid
    cases type

theorem drawnRound_pair {hands hands' : Nat → List Nat × List Nat} {payer payer' : Nat}
    (payer_in : payer ∈ [2, 3]) (payer_in' : payer' ∈ [2, 3]) (ready : hands 1 = hands' 1)
    (same : hands payer = hands' payer') :
    SamePair (drawnRound hands) (drawnRound hands') 1 payer 1 payer' where
  play := rfl
  playOption := rfl
  rule := rfl
  liuju := rfl
  tilePairs := rfl
  payee_in := List.mem_cons_self
  payer_in := List.mem_cons_of_mem 1 payer_in
  apart := by rintro rfl; simp at payer_in
  payee_in' := List.mem_cons_self
  payer_in' := List.mem_cons_of_mem 1 payer_in'
  apart' := by rintro rfl; simp at payer_in'
  payee_same := by simp only [drawnRound, ready]
  payer_same := by simp only [drawnRound, same]
  shot := rfl

/-- Seat 1 waits for a pair of fives; seats 2 and 3 hold four single tiles. -/
def oneReady : Nat → List Nat × List Nat
  | 1 => ([1, 2, 3, 4], [5])
  | 2 => ([11, 12, 13], [21, 24, 27, 29])
  | _ => ([14, 15, 16], [21, 24, 27, 29])

/-- The players on seats 2 and 3 have changed their seats. -/
def changedSeats : Nat → List Nat × List Nat
  | 2 => oneReady 3
  | 3 => oneReady 2
  | chair => oneReady chair

/-- The player on seat 3 waits for a pair too. -/
def twoReady : Nat → List Nat × List Nat
  | 3 => ([14, 15, 16, 17], [21])
  | chair => oneReady chair

/-- The scores of a round sum to zero. What one player pays to another for a win or a ready
hand is the same at any two tables where the two hold the same, if and only if the losers met
before the payer bring in the same at both. -/
theorem settled_pairwise_iff (e : EndState) :
    ∑ chair ∈ e.conf.seats.toFinset, (e.fanscores chair).2 = 0 ∧
      ∀ e' payee payer payee' payer', SamePair e e' payee payer payee' payer' →
        (e.payment payee payer = e'.payment payee' payer' ↔
          e.carried payee payer = e'.carried payee' payer') := by
  refine ⟨EndState.sum_fanscores, ?_⟩
  intro e' payee payer payee' payer' pair
  exact pair.payment_eq_iff

/-- The player on seat 3 has another hand, which concerns nobody but seats 1 and 3. -/
theorem other_hand_settled :
    ∑ chair ∈ threeSeats.seats.toFinset, ((drawnRound oneReady).fanscores chair).2 = 0 ∧
      (drawnRound oneReady).payment 1 2 = (drawnRound twoReady).payment 1 2 := by
  obtain ⟨sum, pairwise⟩ := settled_pairwise_iff (drawnRound oneReady)
  refine ⟨sum, (pairwise (drawnRound twoReady) 1 2 1 2 ?_).2 (by decide +kernel)⟩
  exact drawnRound_pair (by decide) (by decide) rfl rfl

/-- The same player pays 16 to the ready hand on seat 3 and 14 on seat 2. -/
theorem seat_changes_payment :
    SamePair (drawnRound oneReady) (drawnRound changedSeats) 1 3 1 2 ∧
      (drawnRound oneReady).payment 1 3 = 16 ∧ (drawnRound changedSeats).payment 1 2 = 14 := by
  refine ⟨drawnRound_pair (by decide) (by decide) rfl rfl, ?_, ?_⟩
  · decide +kernel
  · decide +kernel

end FkServer.MaajanNanchong
