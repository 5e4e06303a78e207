import FkServer.Climbing.Conservation
import Mathlib.Algebra.BigOperators.Group.Finset.Basic
import Mathlib.Algebra.BigOperators.Group.List.Basic
import Mathlib.Algebra.Order.BigOperators.Group.Finset
import Mathlib.Algebra.Order.Ring.Abs
import Mathlib.Algebra.Order.Ring.Int

/-!
The scores of `game_balance` in the climbing games. They are tables of numbers by chair;
what one player loses for the cards left goes to the winner, and what a bomb wins is
lost by the others, unless a rule makes bombs worth less than nothing.
-/
namespace FkServer.Climbing

/-- The chairs that are taken, in the order in which `pairs` meets them. -/
structure Seats where
  chairs : List Nat
  distinct : chairs.Nodup

/-- The chair of a player at the table. -/
abbrev Seats.Chair (seats : Seats) := {chair : Nat // chair ∈ seats.chairs}

/-! ### Tables of numbers -/

abbrev Row := Nat → Option Int

/-- `table.sum` -/
def tableSum (chairs : List Nat) (row : Row) : Int := (chairs.map fun c => (row c).getD 0).sum

/-- `table.map(self.players,…)` with the entries at the chairs that are taken. -/
def tableMap (chairs : List Nat) (entry : Row) : Row := fun c => if c ∈ chairs then entry c else none

/-- `table.merge` with `(l or 0) + (r or 0)` -/
def merge (dest src : Row) : Row := fun c =>
  match src c with
  | none => dest c
  | some v => some ((dest c).getD 0 + v)

/-- `table.merge_tables` with the same sum -/
def mergeTables : List Row → Row
  | [] => fun _ => none
  | row :: rows => rows.foldl merge row

/-- A row of `bomb_lose_matrix`. -/
def bombRow (chairs : List Nat) (score : Nat → Int) (chair : Nat) : Row :=
  tableMap chairs fun c => if c ≠ chair then some (-score chair) else none

/-- `bomb_scores`: what a player's bombs bring is the absolute value of what they cost. -/
def bombScores (chairs : List Nat) (score : Nat → Int) : Row :=
  merge (tableMap chairs fun chair => some |tableSum chairs (bombRow chairs score chair)|)
    (mergeTables (chairs.map (bombRow chairs score)))

end FkServer.Climbing

/-! ### The scores of `pdk` -/

namespace FkServer.Pdk

open Climbing

/-- What `game_balance` reads of `self.rule.play`. -/
structure BalanceRule where
  lastoneNotConsume : Bool
  fanChun : Option Bool
  bombScore : Option Int

/-- `calc_score` -/
def calcScore (rule : BalanceRule) (zhuang : Option Nat) (s : Discards) (chair : Nat) : Int :=
  let count : Int := (s.handCards chair).card
  let score := if rule.lastoneNotConsume ∧ count ≤ 1 then 0 else count
  let chunTian := s.discardTimes chair = 0
  let fanChun := rule.fanChun ≠ some false ∧ s.discardTimes chair = 1 ∧ zhuang = some chair
  if chunTian ∨ fanChun then 2 * score else score

/-- A row of `card_win_matrix`: the cards left go to the winner. -/
def cardRow (chairs : List Nat) (winner : Nat) (score : Int) : Row :=
  tableMap chairs fun c => if c = winner then some score else none

/-- `card_scores` -/
def cardScores (chairs : List Nat) (winner : Nat) (score : Nat → Int) : Row :=
  merge (mergeTables (chairs.map fun c => cardRow chairs winner (score c)))
    (tableMap chairs fun c => some (-tableSum chairs (cardRow chairs winner (score c))))

/-- What the bombs of a player are worth. -/
def bombWorth (rule : BalanceRule) (s : Discards) (chair : Nat) : Int :=
  s.bomb chair * rule.bombScore.getD 5

/-- The scores of `game_balance` -/
def gameBalance (seats : Seats) (rule : BalanceRule) (zhuang : Option Nat) (s : Discards)
    (winner : seats.Chair) : Row :=
  let card := cardScores seats.chairs winner (calcScore rule zhuang s)
  let bomb := bombScores seats.chairs (bombWorth rule s)
  tableMap seats.chairs fun c => some ((card c).getD 0 + (bomb c).getD 0)

end FkServer.Pdk

/-! ### The scores of `pdk_sc` -/

namespace FkServer.PdkSc

open Climbing

/-- What `game_balance` reads of `self.rule.play`. -/
structure BalanceRule where
  lastoneNotConsume : Bool
  fanChun : Option Bool
  specialScore : Option Int
  bombScore : Option (List Int)

/-- What the hand dealt to a player was. -/
structure Dealt where
  zhaNiao : Bool
  quanDa : Bool
  quanXiao : Bool
  quanDan : Bool
  quanSuang : Bool
  quanHei : Bool
  quanHong : Bool

/-- `calc_score` -/
def calcScore (rule : BalanceRule) (zhuang : Option Nat) (s : Discards) (chair : Nat) : Int :=
  let count : Int := (s.handCards chair).card
  let score := if rule.lastoneNotConsume ∧ count ≤ 1 then 0 else count
  let chunTian := s.discardTimes chair = 0
  let fanChun := rule.fanChun ≠ some false ∧ s.discardTimes chair = 1 ∧ zhuang = some chair
  if chunTian then 2 * score else if fanChun then 3 * score else score

/-- `winner_special` -/
def Dealt.special (d : Dealt) : Bool :=
  d.quanDa || d.quanXiao || d.quanDan || d.quanSuang || d.quanHei || d.quanHong

/-- What a player who has not won loses. -/
def cardLoss (rule : BalanceRule) (zhuang : Option Nat) (s : Discards) (dealt : Nat → Dealt)
    (winner chair : Nat) : Int :=
  let score := calcScore rule zhuang s chair
  let score := if (dealt winner).zhaNiao ∨ (dealt chair).zhaNiao then score * 2 else score
  if (dealt winner).special then score + rule.specialScore.getD 0 else score

/-- `card_scores`: the winner gets what the others lose. -/
def cardScores (chairs : List Nat) (winner : Nat) (loss : Nat → Int) : Row :=
  let lost := tableMap chairs fun c => if c = winner then none else some (-loss c)
  fun c => if c = winner then some (-tableSum chairs lost) else lost c

/-- What the bombs of a player are worth. -/
def bombWorth (rule : BalanceRule) (s : Discards) (chair : Nat) : Int :=
  let tripleBombScore := (rule.bombScore.bind fun scores => scores[0]?).getD 5
  let bombScore := (rule.bombScore.bind fun scores => scores[1]?).getD 10
  s.bomb chair * bombScore + s.tripleBomb chair * tripleBombScore

/-- The scores of `game_balance` -/
def gameBalance (seats : Seats) (rule : BalanceRule) (zhuang : Option Nat) (s : Discards)
    (dealt : Nat → Dealt) (winner : seats.Chair) : Row :=
  let card := cardScores seats.chairs winner (cardLoss rule zhuang s dealt winner)
  let bomb := bombScores seats.chairs (bombWorth rule s)
  tableMap seats.chairs fun c => some ((card c).getD 0 + (bomb c).getD 0)

end FkServer.PdkSc

/-! ### The scores of `land` -/

namespace FkServer.Land

open Climbing

/-- The scores of `game_balance`; `maxTimes` is what `get_max_times` answers. -/
def gameBalance (seats : Seats) (maxTimes baseScore : Int) (s : Discards)
    (landlord winner : seats.Chair) : Row :=
  let isChuntian := seats.chairs.all fun c => c = landlord.1 ∨ s.discardCount c = 0
  let isFanchun := landlord ≠ winner ∧ s.discardCount landlord = 1
  let multi : Int := 2 ^ (s.bomb + s.multi)
  let multi := if isFanchun ∨ isChuntian = true then multi * 2 else multi
  let multi := if multi < maxTimes then multi else maxTimes
  let isWin := fun c => if winner = landlord then c = landlord.1 else c ≠ landlord.1
  let playerCount : Int := seats.chairs.length
  tableMap seats.chairs fun c =>
    let score := multi * baseScore
    some (if isWin c then (if landlord.1 = c then (playerCount - 1) * score else score)
      else (if landlord.1 = c then -(playerCount - 1) * score else -score))

end FkServer.Land

namespace FkServer.Climbing

end FkServer.Climbing
