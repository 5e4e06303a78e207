import FkServer.Library.Ledger
import FkServer.ChangpaiZigong.Conservation
import Mathlib.Algebra.BigOperators.Group.List.Basic

/-!
The end of a round: `do_balance` up to the scores, that is `game_balance` with
`calculate_gang`, `get_player_piao` and `get_player_xiaohu`. Where the source takes an
amount from one entry of `scores` and adds it to another, the model has a payment; the
scores are the balance of all payments. The share of one player is written out three times
in the source, each time the same; `addScore` is that share.
-/
namespace FkServer.ChangpaiZigong

open Ledger (Payment)

/-- `HU_TYPE_INFO[type].fan` -/
def huTypeFan : HuType → Nat
  | .weiHu | .pingHu => 0
  | .tianHu | .tuotuoHong | .babaHei => 3
  | .diHu | .heiLong | .siZhang | .chongfanPeng | .chongfanTou | .chongfanChi3 | .tuo24 => 1

/-- `p.hu`; `type` is what `changpai_table:hu` returns. -/
structure Hu where
  type : HuType
  ziMo : Bool
  whoee : Option Nat

/-- The options `game_balance` reads: `get_max_fan`, `get_chao_add_score`, `get_is_chi_piao`
and `rule.play.zi_mo_jia_di`. -/
structure BalanceRule where
  maxFan : Option Nat
  chaoAddScore : Nat
  chiPiao : Bool
  ziMoJiaDi : Bool

/-- The table when a round ends; `inPai` is the card handed to `do_balance`. -/
structure EndState where
  zhuang : Nat
  player : Nat → Player
  hu : Nat → Option Hu
  inPai : Option Nat

/-- `chong_fan` of `calculate_gang` -/
def chongFan : List Nat := [1, 3, 5, 12, 15, 17, 21]

/-- What a section adds to the cards `calculate_gang` counts. -/
def addSection (count : Counts) : Section → Counts
  | .baGang tile => alter count tile fun _ => 4
  | .peng tile | .tou tile => incr count tile 3
  | .chi tile othertile => incr (incr count tile 1) othertile 1

/-- `count` of `calculate_gang` -/
def gangCount (pai : Pai) (inPai : Option Nat) : Counts :=
  let held : Counts := fun tile => max 0 (pai.shouPai tile)
  let count := inPai.elim held fun tile => incr held tile 1
  pai.mingPai.foldl addSection count

namespace EndState
variable (e : EndState)

/-- `calculate_gang`: the kinds that count besides the kind of the win. -/
def gangTypes (chair : Nat) : Types :=
  let p := e.player chair
  let count := gangCount p.pai e.inPai
  [(.chongfanChi3,
      (List.range' 1 50).countP fun tile => (count tile = 3 ∨ count tile = 4) ∧ tile ∈ chongFan),
    (.siZhang, (List.range' 1 50).countP fun tile => count tile = 4),
    (.tuo24, if 24 ≤ Rule.tuos p.pai e.inPai then 1 else 0),
    (.tianHu, if chair = e.zhuang ∧ p.chuPaiCount = 0 then 1 else 0)]

/-- `fans[chair]` of a winner -/
def fan (chair : Nat) (hu : Hu) : Nat :=
  (((hu.type, 1) :: e.gangTypes chair).map fun tc => huTypeFan tc.1 * tc.2).sum

/-- `p.tuos`, as `do_balance` sets it for a winner. -/
def tuos (chair : Nat) : Int := Rule.tuos (e.player chair).pai e.inPai

def ready (chair : Nat) : Bool := (e.player chair).baoting = some true

/-- `zongfan` -/
def zongfan (chair : Nat) (hu : Hu) : Nat :=
  e.fan chair hu + if e.ready chair then 1 else 0

end EndState

/-- `get_player_piao` -/
def getPlayerPiao (r : BalanceRule) (e : EndState) (chair : Nat) (hu : Hu) : Bool :=
  r.chiPiao &&
    (decide (hu.type = .babaHei ∨ hu.type = .heiLong) ||
      decide ((if e.zhuang = chair then 16 else 14) ≤ e.tuos chair))

/-- `get_player_xiaohu` -/
def getPlayerXiaohu (r : BalanceRule) (e : EndState) (chair : Nat) (hu : Hu) : Bool :=
  (if e.zhuang = chair then decide (14 ≤ e.tuos chair ∧ e.tuos chair < 16)
    else decide (12 ≤ e.tuos chair ∧ e.tuos chair < 14)) &&
  !getPlayerPiao r e chair hu

/-- `chaofan_add` -/
def chaofanAdd (r : BalanceRule) (zongfan : Nat) : Nat :=
  if r.maxFan = some 4 ∧ 4 < zongfan then (zongfan - 4) * r.chaoAddScore else 0

/-- `fan_score` with the cap -/
def cappedScore (r : BalanceRule) (zongfan : Nat) : Nat :=
  if r.maxFan = some 4 then
    if 4 < zongfan then 2 ^ 4 else 2 ^ zongfan
  else if r.maxFan = some 3 then
    2 ^ (if 3 < zongfan then 3 else zongfan)
  else
    2 ^ zongfan

/-- `fan_score` before anyone pays -/
def fanScore (r : BalanceRule) (e : EndState) (chair : Nat) (hu : Hu) : Nat :=
  let zongfan := e.zongfan chair hu
  if r.chiPiao then
    let score :=
      if getPlayerPiao r e chair hu then cappedScore r zongfan * 2 + chaofanAdd r zongfan
      else cappedScore r zongfan
    if getPlayerXiaohu r e chair hu then 1 else score
  else
    cappedScore r zongfan + chaofanAdd r zongfan

/-- `addscore`: the share of one player, who pays more when it declared ready. -/
def addScore (r : BalanceRule) (zongfan : Nat) (ready : Bool) (fanScore : Nat) : Nat :=
  if ready then
    if r.maxFan = some 4 then
      if 4 ≤ zongfan then fanScore + r.chaoAddScore else fanScore * 2
    else if r.maxFan = some 3 then
      if 3 ≤ zongfan then fanScore else fanScore * 2
    else
      fanScore * 2
  else
    fanScore

/-- The players a win is paid by, as `foreach_except` meets them. -/
def others (c : Conf) (chair : Nat) : List Nat := (chairs c).filter fun i => i ≠ chair

/-- `allwinscore` -/
def allWinScore (c : Conf) (r : BalanceRule) (e : EndState) (chair : Nat) (hu : Hu) : Nat :=
  ((others c chair).map fun i =>
    addScore r (e.zongfan chair hu) (e.ready i) (fanScore r e chair hu)).sum

/-- The player before the winner. -/
def lastChair (c : Conf) (chair : Nat) : Nat :=
  if chair - 1 < 1 then c.startCount else chair - 1

/-- Who pays for all, the discarder or the liable player, and how much. -/
def onePays (c : Conf) (r : BalanceRule) (e : EndState) (chair : Nat) (hu : Hu) :
    Option (Nat × Nat) :=
  if hu.ziMo = false then
    hu.whoee.map fun whoee =>
      (whoee,
        if getPlayerXiaohu r e chair hu then c.startCount - 1 else allWinScore c r e chair hu)
  else if (e.player (lastChair c chair)).baoCard.isSome then
    some (lastChair c chair,
      if r.chiPiao && getPlayerXiaohu r e chair hu then c.startCount - 1
      else allWinScore c r e chair hu)
  else
    none

/-- What another player pays for a self-drawn win. -/
def selfDrawShare (r : BalanceRule) (e : EndState) (chair : Nat) (hu : Hu) (i : Nat) : Nat :=
  if r.chiPiao && getPlayerXiaohu r e chair hu then 1
  else
    addScore r (e.zongfan chair hu) (e.ready i)
      (fanScore r e chair hu + if r.ziMoJiaDi then 1 else 0)

/-- The payments for one win, each with its winner. -/
def huPays (c : Conf) (r : BalanceRule) (e : EndState) (chair : Nat) : List (Payment Nat Nat) :=
  match e.hu chair with
  | none => []
  | some hu =>
      match onePays c r e chair hu with
      | some (payer, amount) => [⟨payer, chair, amount, chair⟩]
      | none => (others c chair).map fun i => ⟨i, chair, selfDrawShare r e chair hu i, chair⟩

/-- The scores of `game_balance`. -/
def gameBalance (c : Conf) (r : BalanceRule) (e : EndState) : Nat → Int :=
  Ledger.balance ((chairs c).flatMap (huPays c r e))

/-! ### What the payments come to -/

/-- The same hand won by self-draw. -/
def Hu.selfDrawn (hu : Hu) : Hu := { hu with ziMo := true, whoee := none }

/-- The options without the self-draw bonus. -/
def BalanceRule.unraised (r : BalanceRule) : BalanceRule := { r with ziMoJiaDi := false }

/-- What a self-drawn win brings in from all others. -/
def selfDrawScore (c : Conf) (r : BalanceRule) (e : EndState) (chair : Nat) (hu : Hu) : Nat :=
  ((others c chair).map (selfDrawShare r e chair hu)).sum

/-- A winner by discard is paid by another seated player, who discarded the card. -/
structure EndState.Shot (c : Conf) (e : EndState) : Prop where
  shooter : ∀ chair ∈ chairs c, ∀ hu, e.hu chair = some hu → hu.ziMo = false →
    ∃ whoee ∈ chairs c, hu.whoee = some whoee ∧ whoee ≠ chair

structure Settled (c : Conf) (r : BalanceRule) (e : EndState) : Prop where
  zero_sum : ∑ chair ∈ (chairs c).toFinset, gameBalance c r e chair = 0
  pays_for_all : ∀ chair ∈ chairs c, ∀ hu, e.hu chair = some hu →
    ∀ payer amount, onePays c r e chair hu = some (payer, amount) →
      amount = selfDrawScore c r.unraised e chair hu.selfDrawn

/-- A hand no fan counts for, with nobody ready at the table. -/
structure Plain (c : Conf) (e : EndState) (chair : Nat) (hu : Hu) : Prop where
  kind : huTypeFan hu.type = 0
  gangs : ∀ tc ∈ e.gangTypes chair, tc.2 = 0
  unready : ∀ i ∈ chairs c, e.ready i = false

variable {c : Conf} {r : BalanceRule} {e : EndState} {chair : Nat} {hu : Hu}

theorem mem_others {i : Nat} : i ∈ others c chair ↔ i ∈ chairs c ∧ i ≠ chair := by
  simp [others]

theorem length_others (seated : chair ∈ chairs c) :
    (others c chair).length = c.startCount - 1 := by
  have distinct : (chairs c).Nodup := List.nodup_range'
  have erased : others c chair = (chairs c).erase chair := by
    rw [distinct.erase_eq_filter]
    exact List.filter_congr fun i _ => by by_cases i = chair <;> simp [*]
  rw [erased, List.length_erase_of_mem seated, chairs, List.length_range']

theorem lastChair_mem (seated : chair ∈ chairs c) : lastChair c chair ∈ chairs c := by
  unfold chairs lastChair at *
  rw [List.mem_range'_1] at *
  split <;> omega

/-! The share of one player. -/

theorem cappedScore_pos (zongfan : Nat) : 0 < cappedScore r zongfan := by
  unfold cappedScore
  split
  · split <;> exact Nat.two_pow_pos _
  · split <;> exact Nat.two_pow_pos _

theorem fanScore_eq (off : r.chiPiao = false) :
    fanScore r e chair hu =
      cappedScore r (e.zongfan chair hu) + chaofanAdd r (e.zongfan chair hu) := by
  simp [fanScore, off]

theorem score_eq_one {zongfan : Nat} :
    cappedScore r zongfan + chaofanAdd r zongfan = 1 ↔ zongfan = 0 := by
  constructor
  · intro one
    have small : cappedScore r zongfan = 1 := by
      have := cappedScore_pos (r := r) zongfan
      omega
    by_contra fans
    have raised : ∀ {fan}, fan ≠ 0 → 1 < 2 ^ fan := fun nonzero => Nat.one_lt_two_pow nonzero
    unfold cappedScore at small
    split at small
    · split at small
      · cases small
      · exact absurd small (raised fans).ne'
    · split at small
      · split at small
        · cases small
        · exact absurd small (raised fans).ne'
      · exact absurd small (raised fans).ne'
  · rintro rfl
    simp [cappedScore, chaofanAdd]

theorem addScore_pos {zongfan score : Nat} {ready : Bool} (h : 0 < score) :
    0 < addScore r zongfan ready score := by
  unfold addScore
  repeat' split
  all_goals omega

theorem addScore_eq_one {zongfan : Nat} {ready : Bool} :
    addScore r zongfan ready (cappedScore r zongfan + chaofanAdd r zongfan) = 1 ↔
      zongfan = 0 ∧ ready = false := by
  rw [← score_eq_one (r := r)]
  have positive := cappedScore_pos (r := r) zongfan
  cases ready with
  | false => simp [addScore]
  | true =>
      have small : ∀ {fan}, cappedScore r zongfan + chaofanAdd r zongfan = 1 → fan ≤ zongfan →
          fan = 0 := by
        intro fan one within
        rw [score_eq_one.1 one] at within
        exact Nat.le_zero.1 within
      simp only [addScore, if_true, Bool.true_eq_false, and_false, iff_false]
      intro one
      split at one
      · split at one
        · exact absurd (small (by omega) ‹_›) (by decide)
        · omega
      · split at one
        · split at one
          · exact absurd (small one ‹_›) (by decide)
          · omega
        · omega

/-! The shares of all. -/

theorem sum_map_eq_length {ι : Type} {f : ι → Nat} {l : List ι} (positive : ∀ i ∈ l, 0 < f i) :
    (l.map f).sum = l.length ↔ ∀ i ∈ l, f i = 1 := by
  induction l with
  | nil => simp
  | cons i rest ih =>
      obtain ⟨here, later⟩ := List.forall_mem_cons.1 positive
      have least : rest.length ≤ (rest.map f).sum := by
        simpa using List.length_le_sum_of_one_le (rest.map f) (List.forall_mem_map.2 later)
      rw [List.forall_mem_cons, ← ih later, List.map_cons, List.sum_cons, List.length_cons]
      omega

theorem zongfan_eq_zero :
    e.zongfan chair hu = 0 ↔
      (huTypeFan hu.type = 0 ∧ ∀ tc ∈ e.gangTypes chair, tc.2 = 0) ∧ e.ready chair = false := by
  have counted : ∀ tc ∈ e.gangTypes chair, huTypeFan tc.1 ≠ 0 := by
    simp [EndState.gangTypes, huTypeFan]
  have fan : e.fan chair hu = 0 ↔
      huTypeFan hu.type = 0 ∧ ∀ tc ∈ e.gangTypes chair, tc.2 = 0 := by
    rw [EndState.fan, List.sum_eq_zero_iff_forall_eq_nat]
    simp only [List.map_cons, List.forall_mem_cons, mul_one, List.forall_mem_map]
    refine and_congr_right fun _ => forall₂_congr fun tc here => ?_
    rw [Nat.mul_eq_zero]
    exact or_iff_right (counted tc here)
  rw [EndState.zongfan, Nat.add_eq_zero_iff, fan]
  cases e.ready chair <;> simp

theorem plain_iff (seated : chair ∈ chairs c) :
    Plain c e chair hu ↔
      e.zongfan chair hu = 0 ∧ ∀ i ∈ others c chair, e.ready i = false := by
  rw [zongfan_eq_zero]
  constructor
  · rintro ⟨kind, gangs, unready⟩
    exact ⟨⟨⟨kind, gangs⟩, unready chair seated⟩, fun i h => unready i (mem_others.1 h).1⟩
  · rintro ⟨⟨⟨kind, gangs⟩, own⟩, rest⟩
    refine ⟨kind, gangs, fun i h => ?_⟩
    by_cases same : i = chair
    · rw [same, own]
    · exact rest i (mem_others.2 ⟨h, same⟩)

theorem selfDrawScore_eq (seated : chair ∈ chairs c) :
    selfDrawScore c r.unraised e chair hu.selfDrawn =
      if r.chiPiao && getPlayerXiaohu r e chair hu then c.startCount - 1
      else allWinScore c r e chair hu := by
  have share : selfDrawShare r.unraised e chair hu.selfDrawn = fun i =>
      if r.chiPiao && getPlayerXiaohu r e chair hu then 1
      else addScore r (e.zongfan chair hu) (e.ready i) (fanScore r e chair hu) := by
    funext i
    rfl
  rw [selfDrawScore, share]
  split
  · rw [List.map_const', List.sum_replicate, length_others seated]
    exact Nat.mul_one _
  · rfl

/-- Without `chi_piao` the shares come to one point each for a plain hand only. -/
theorem allWinScore_eq_iff (seated : chair ∈ chairs c) (off : r.chiPiao = false)
    (opponent : others c chair ≠ []) :
    allWinScore c r e chair hu = c.startCount - 1 ↔ Plain c e chair hu := by
  have positive : ∀ i ∈ others c chair,
      0 < addScore r (e.zongfan chair hu) (e.ready i) (fanScore r e chair hu) := by
    intro i _
    apply addScore_pos
    rw [fanScore_eq off]
    exact Nat.add_pos_left (cappedScore_pos _) _
  rw [allWinScore, ← length_others seated, sum_map_eq_length positive, plain_iff seated]
  simp only [fanScore_eq off, addScore_eq_one]
  obtain ⟨i, here⟩ := List.exists_mem_of_ne_nil _ opponent
  constructor
  · intro shares
    exact ⟨(shares i here).1, fun j h => (shares j h).2⟩
  · rintro ⟨plain, unready⟩ j h
    exact ⟨plain, unready j h⟩

/-! ### The scores of a round -/

theorem sum_gameBalance (shot : e.Shot c) :
    ∑ chair ∈ (chairs c).toFinset, gameBalance c r e chair = 0 := by
  apply Ledger.sum_balance
  intro pay h
  simp only [List.mem_toFinset]
  obtain ⟨chair, seated, paid⟩ := List.mem_flatMap.1 h
  unfold huPays at paid
  cases won : e.hu chair with
  | none => simp [won] at paid
  | some hu =>
      simp only [won] at paid
      cases one : onePays c r e chair hu with
      | none =>
          simp only [one, List.mem_map] at paid
          obtain ⟨i, other, rfl⟩ := paid
          exact ⟨(mem_others.1 other).1, seated⟩
      | some pays =>
          simp only [one, List.mem_singleton] at paid
          subst paid
          refine ⟨?_, seated⟩
          unfold onePays at one
          split at one
          · obtain ⟨whoee, inside, source, _⟩ := shot.shooter chair seated hu won ‹_›
            rw [source] at one
            cases one
            exact inside
          · split at one
            · cases one
              exact lastChair_mem seated
            · cases one

/-- The liable player always pays what the shares come to; the discarder of a small win
does so with `chi_piao`, and without it only for a plain hand. -/
theorem pays_for_all_iff (shot : e.Shot c) (seated : chair ∈ chairs c)
    (won : e.hu chair = some hu) :
    (∀ payer amount, onePays c r e chair hu = some (payer, amount) →
        amount = selfDrawScore c r.unraised e chair hu.selfDrawn) ↔
      (hu.ziMo = false → getPlayerXiaohu r e chair hu = true →
        r.chiPiao = true ∨ Plain c e chair hu) := by
  rw [selfDrawScore_eq seated]
  cases drawn : hu.ziMo with
  | true =>
      refine iff_of_true (fun payer amount one => ?_) (by simp)
      simp only [onePays, drawn, Bool.true_eq_false, if_false] at one
      split at one
      · cases one
        rfl
      · cases one
  | false =>
      obtain ⟨whoee, inside, source, other⟩ := shot.shooter chair seated hu won drawn
      have opponent : others c chair ≠ [] :=
        List.ne_nil_of_mem (mem_others.2 ⟨inside, other⟩)
      simp only [onePays, drawn, source, if_true, Option.map_some, Option.some.injEq,
        Prod.mk.injEq, and_imp, true_imp_iff]
      cases small : getPlayerXiaohu r e chair hu with
      | false => simp
      | true =>
          cases piao : r.chiPiao with
          | true => simp
          | false => simp [eq_comm, ← allWinScore_eq_iff seated piao opponent]

theorem settled_iff (shot : e.Shot c) :
    Settled c r e ↔
      ∀ chair ∈ chairs c, ∀ hu, e.hu chair = some hu → hu.ziMo = false →
        getPlayerXiaohu r e chair hu = true → r.chiPiao = true ∨ Plain c e chair hu := by
  constructor
  · rintro ⟨_, paid⟩ chair seated hu won
    exact (pays_for_all_iff shot seated won).1 (paid chair seated hu won)
  · intro small
    refine ⟨sum_gameBalance shot, fun chair seated hu won => ?_⟩
    exact (pays_for_all_iff shot seated won).2 (small chair seated hu won)

/-- Two triples of red cards count for 12; the rest pairs off with the 18 discarded. -/
def smallHand : Pai where
  shouPai := fun tile => ([4, 4, 18, 6, 6, 16, 16, 7, 7, 13, 14].count tile : Nat)
  mingPai := [.tou 1, .tou 5]
  deskTiles := []
  unUsecard := none

def smallHu : Hu where
  type := .pingHu
  ziMo := false
  whoee := some 1

/-- The second of two players wins by a discard of the dealer. -/
def smallWin : EndState where
  zhuang := 1
  player := fun _ => ⟨smallHand, none, none, none, 1, none, [], [], none, false, none⟩
  hu := fun chair => if chair = 2 then some smallHu else none
  inPai := some 18

def plainRule (chiPiao : Bool) : BalanceRule where
  maxFan := some 4
  chaoAddScore := 1
  chiPiao := chiPiao
  ziMoJiaDi := false

theorem smallWin_shot : smallWin.Shot twoPlayers where
  shooter := by
    intro chair seated hu won _
    refine ⟨1, by decide, ?_⟩
    simp only [smallWin] at won
    split at won
    · cases won
      exact ⟨rfl, by omega⟩
    · cases won

theorem small_win_settled : Settled twoPlayers (plainRule true) smallWin :=
  (settled_iff smallWin_shot).2 fun _ _ _ _ _ _ => .inl rfl

theorem small_win_underpaid :
    Rule.isHu smallHand (some 18) false = true ∧ smallWin.Shot twoPlayers ∧
      ¬ Settled twoPlayers (plainRule false) smallWin := by
  refine ⟨by decide +kernel, smallWin_shot, fun settled => ?_⟩
  have pays : onePays twoPlayers (plainRule false) smallWin 2 smallHu = some (1, 1) := by
    decide +kernel
  have shares : selfDrawScore twoPlayers (plainRule false).unraised smallWin 2
      smallHu.selfDrawn = 4 := by
    decide +kernel
  have equal := settled.pays_for_all 2 (by decide) smallHu rfl 1 1 pays
  omega

end FkServer.ChangpaiZigong
