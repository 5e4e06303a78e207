import FkServer.Common.Functions
import Mathlib.Algebra.GroupWithZero.Nat

/-!
`base/maajian_is_hu`: the winning test with wildcards. The tiles of each suit are written
as nine digits and looked up in `maajan_data`; the wildcards and the pair are handed out
to the suits case by case, by how many tiles each suit has more than whole melds. The
look-ups do not depend on what a key is, so the case split is stated for keys of any type.
-/
namespace FkServer.MaajanZigong

/-- `TY_VALUE`, the wildcard. -/
def tyValue : Nat := 37

/-- `maajan_data[k][g][key]`: with the pair for `k = 1` and without for `k = 2`, with `g`
wildcards up to 4 and with none for `g = 5`, the last one. -/
abbrev MaajanData (κ : Type) := Nat → Nat → κ → Bool

/-- `cur_tile_men` -/
def curTileMen (tile : Nat) : Nat := if tile = tyValue then 4 else tile / 10 + 1

/-- `table.concat` of the nine counts -/
def concat (tbl : Counts) : String := String.join ((List.range' 1 9).map fun d => toString (tbl d))

/-- What `serialization` counts. -/
def valueCounts (shouPai : List Nat) : Counts :=
  shouPai.foldl (fun tbl v => incr tbl (if 10 < v then v % 10 else v) 1) fun _ => 0

def serialization (shouPai : List Nat) : String := concat (valueCounts shouPai)

/-- What `jiang_num` and `naizi_num` have gone down by. -/
structure Used where
  jiang : Nat
  naizi : Nat

/-- The entry of a suit in `num_group_all_pai` and in `pai_men_ser`, where `none` is `false`. -/
structure Men (κ : Type) where
  num : Nat
  ser : Option κ

variable {κ : Type}

/-- One loop over the suits that hold tiles; `none` where the source gives up. -/
def pass (mens : List (Men κ)) (take : Nat → κ → Option Used) : Option Used :=
  mens.foldlM
    (fun used men =>
      match men.ser with
      | none => some used
      | some ser =>
          (take men.num ser).map fun more => ⟨used.jiang + more.jiang, used.naizi + more.naizi⟩)
    ⟨0, 0⟩

/-- `jiang_num == 0 and naizi_num == 0` -/
def allUsed (n : Nat) (used : Option Used) : Bool :=
  used.any fun u => u.jiang == 1 && u.naizi == n

/-- `naizi_num > -1` -/
def enough (n : Nat) (used : Option Used) : Bool := used.any fun u => decide (u.naizi ≤ n)

section Cases
variable (data : MaajanData κ) (mens : List (Men κ))

def numJiangPai : Nat := (mens.map fun men => men.num % 2).sum

def numAllPai : Nat := (mens.map (·.num)).sum

/-- The loops for no wildcard. -/
def isHuNone : Bool :=
  if numJiangPai mens = 0 ∧ numAllPai mens = 2 then
    allUsed 0 <| pass mens fun v ser =>
      if v = 2 then
        if data 1 5 ser then some ⟨1, 0⟩ else none
      else
        if data 2 5 ser then some ⟨0, 0⟩ else none
  else
    false

/-- The loops for `subs_num == 1`. -/
def isHuOne : Bool :=
  if numJiangPai mens = 0 ∧ numAllPai mens = 4 then
    enough 1 <| pass mens fun v ser =>
      if v = 2 then
        if data 1 5 ser then some ⟨0, 0⟩
        else if data 2 1 ser then some ⟨0, 1⟩
        else none
      else
        if data 2 5 ser then some ⟨0, 0⟩ else none
  else if numAllPai mens = 1 then
    allUsed 1 <| pass mens fun v ser =>
      if v = 1 then
        if data 1 1 ser then some ⟨1, 1⟩ else none
      else
        if data 2 5 ser then some ⟨0, 0⟩ else none
  else
    false

/-- The loops for `subs_num == 2`. -/
def isHuTwo : Bool :=
  if numJiangPai mens = 1 ∧ numAllPai mens = 3 then
    (allUsed 2 <| pass mens fun v ser =>
      if v = 1 then
        if data 1 1 ser then some ⟨1, 1⟩ else none
      else if v = 2 then
        if data 2 1 ser then some ⟨0, 1⟩ else none
      else
        if data 2 5 ser then some ⟨0, 0⟩ else none) ||
    (allUsed 2 <| pass mens fun v ser =>
      if v = 1 then
        if data 2 2 ser then some ⟨0, 2⟩ else none
      else if v = 2 then
        if data 1 5 ser then some ⟨1, 0⟩ else none
      else
        if data 2 5 ser then some ⟨0, 0⟩ else none)
  else if numAllPai mens = 0 then
    -- every suit is whole, and the wildcards are the pair or complete it in one suit
    (pass mens fun _ ser =>
      if data 2 5 ser then some ⟨0, 0⟩
      else if data 1 2 ser then some ⟨1, 2⟩
      else none).any fun u => (u.jiang == 1 && decide (u.naizi ≤ 2)) || u.naizi == 0
  else if numAllPai mens = 6 then
    enough 2 <| pass mens fun v ser =>
      if v = 2 then
        if data 1 5 ser then some ⟨0, 0⟩
        else if data 2 1 ser then some ⟨0, 1⟩
        else none
      else
        none
  else
    false

/-- The loops for `subs_num == 3`. -/
def isHuThree : Bool :=
  if numAllPai mens = 2 then
    (allUsed 3 <| pass mens fun v ser =>
      if v = 2 then
        if data 1 3 ser then some ⟨1, 3⟩ else none
      else
        if data 2 5 ser then some ⟨0, 0⟩ else none) ||
    (enough 3 <| pass mens fun v ser =>
      if v = 2 then
        if data 1 5 ser then some ⟨0, 0⟩ else none
      else
        if data 2 5 ser then some ⟨0, 0⟩
        else if data 2 3 ser then some ⟨0, 3⟩
        else none) ||
    (enough 3 <| pass mens fun v ser =>
      if v = 2 then
        if data 2 1 ser then some ⟨0, 1⟩ else none
      else
        if data 2 5 ser then some ⟨0, 0⟩
        else if data 1 2 ser then some ⟨0, 2⟩
        else none) ||
    (enough 3 <| pass mens fun v ser =>
      if v = 1 then
        if data 1 1 ser then some ⟨0, 1⟩
        else if data 2 2 ser then some ⟨0, 2⟩
        else none
      else
        if data 2 5 ser then some ⟨0, 0⟩ else none)
  else if numAllPai mens = 5 then
    (allUsed 3 <| pass mens fun v ser =>
      if v = 1 then
        if data 1 1 ser then some ⟨1, 1⟩ else none
      else if v = 2 then
        if data 2 1 ser then some ⟨0, 1⟩ else none
      else
        none) ||
    (enough 3 <| pass mens fun v ser =>
      if v = 1 then
        if data 2 2 ser then some ⟨0, 2⟩ else none
      else if v = 2 then
        if data 1 5 ser then some ⟨0, 0⟩
        else if data 2 1 ser then some ⟨0, 1⟩
        else none
      else
        none)
  else
    false

/-- The loops for `subs_num == 4`. -/
def isHuFour : Bool :=
  if numAllPai mens = 4 then
    (enough 4 <| pass mens fun v ser =>
      if v = 2 then
        if data 1 5 ser then some ⟨0, 0⟩
        else if data 2 4 ser then some ⟨0, 4⟩
        else none
      else
        if data 2 5 ser then some ⟨0, 0⟩ else none) ||
    (enough 4 <| pass mens fun v ser =>
      if v = 2 then
        if data 2 1 ser then some ⟨0, 1⟩
        else if data 1 3 ser then some ⟨0, 3⟩
        else none
      else
        if data 2 5 ser then some ⟨0, 0⟩ else none) ||
    (enough 4 <| pass mens fun v ser =>
      if v = 2 then
        if data 2 1 ser then some ⟨0, 1⟩ else none
      else
        if data 1 2 ser then some ⟨0, 2⟩ else none) ||
    (enough 4 <| pass mens fun v ser =>
      if v = 1 then
        if data 1 1 ser then some ⟨0, 1⟩
        else if data 2 2 ser then some ⟨0, 2⟩
        else none
      else if v = 2 then
        if data 2 1 ser then some ⟨0, 1⟩ else none
      else
        none)
  else if numAllPai mens = 1 then
    (enough 4 <| pass mens fun v ser =>
      if v = 1 then
        if data 2 2 ser then some ⟨0, 2⟩ else none
      else
        if data 2 5 ser then some ⟨0, 0⟩
        else if data 1 2 ser then some ⟨0, 2⟩
        else none) ||
    (enough 4 <| pass mens fun v ser =>
      if v = 1 then
        if data 1 4 ser then some ⟨0, 4⟩ else none
      else
        if data 2 5 ser then some ⟨0, 0⟩ else none) ||
    (enough 4 <| pass mens fun v ser =>
      if v = 1 then
        if data 1 1 ser then some ⟨0, 1⟩ else none
      else
        if data 2 5 ser then some ⟨0, 0⟩
        else if data 2 3 ser then some ⟨0, 3⟩
        else none)
  else
    false

/-- `is_hu` once the tiles are sorted into suits. -/
def isHuMen (subsNum : Nat) : Bool :=
  match subsNum with
  | 0 => isHuNone data mens
  | 1 => isHuOne data mens
  | 2 => isHuTwo data mens
  | 3 => isHuThree data mens
  | 4 => isHuFour data mens
  | _ => false

end Cases

/-- `tiles_shou_pai_men[men]` -/
def tilesMen (counts : Counts) (men : Nat) : List Nat :=
  (counts2Tiles counts).filter fun tile => curTileMen tile = men

/-- What the source keeps of a suit. -/
def menOf (counts : Counts) (men : Nat) : Men String :=
  let tiles := tilesMen counts men
  ⟨tiles.length % 3, if 0 < tiles.length then some (serialization tiles) else none⟩

/-- `maajian_is_hu.is_hu` -/
def isHu (data : MaajanData String) (counts : Counts) : Bool :=
  isHuMen data ((List.range' 1 3).map (menOf counts)) (tilesMen counts 4).length

namespace Rule

/-- The entries of `counts` that are `c`, wildcards aside. -/
def countTiles (counts : Counts) (c : Int) : Nat :=
  (List.range' 1 37).countP fun tile => tile ≠ tyValue ∧ counts tile = c

/-- The body shared by `is_qi_dui` and `is_si_dui`: a wildcard makes a pair of a single
tile, and two make a pair. -/
def isDui (pairs : Nat) (counts : Counts) : Bool :=
  let tyNum := counts tyValue
  let twoCount := countTiles counts 2 + countTiles counts 3 + 2 * countTiles counts 4
  let oneCount := countTiles counts 1 + countTiles counts 3
  let forNum := min tyNum oneCount
  let needCount : Int := pairs - twoCount - forNum
  decide (totalCount counts = 2 * pairs) &&
    (decide (needCount = 0) || decide (2 * needCount = tyNum - forNum))

def isQiDui (counts : Counts) : Bool := isDui 7 counts

def isSiDui (counts : Counts) : Bool := isDui 4 counts

/-- The hand `is_hu` looks at. -/
def cache (shouPai : Counts) (inPai : Option Nat) : Counts :=
  let held : Counts := fun tile => if 1 ≤ tile ∧ tile ≤ 37 then shouPai tile else 0
  inPai.elim held fun tile => incr held tile 1

/-- `rule.is_hu` -/
def isHu (data : MaajanData String) (shouPai : Counts) (inPai : Option Nat) (withSiDui : Bool) :
    Bool :=
  let counts := cache shouPai inPai
  MaajanZigong.isHu data counts || isQiDui counts || (withSiDui && isSiDui counts)

end Rule

end FkServer.MaajanZigong
