import FkServer.MaajanXuezhan.Define

/-!
The winning test and the ready-tile computation of `base/rule`. The searches of
the source call themselves on a shared counter table and restore it; here each
call gets its own table, and the recursion is bounded by the number of tiles.
-/
namespace FkServer.MaajanXuezhan.Rule

/-- `local function is_hu`; `jiang` tells whether the pair is already taken. -/
def isHuState : Nat → Counts → Bool → Bool
  | 0, _, _ => false
  | fuel + 1, counts, jiang =>
      match counts2Tiles counts with
      | [] => true
      | index :: _ =>
          (decide (3 ≤ counts index) && isHuState fuel (decr counts index 3) jiang) ||
          (!jiang && decide (2 ≤ counts index) && isHuState fuel (decr counts index 2) true) ||
          (decide (tileValue index ≤ 7 ∧ tileMen index < 3 ∧
              0 < counts (index + 1) ∧ 0 < counts (index + 2)) &&
            isHuState fuel (decr (decr (decr counts index 1) (index + 1) 1) (index + 2) 1) jiang)

/-- The tiles that complete one tile to a pair, or two to a triplet or a run. -/
def feedHuTile : List Nat → List Nat
  | [tile] => [tile]
  | [tile1, tile2] =>
      if tile1 = tile2 then
        [tile1]
      else if tileMen tile1 ≠ tileMen tile2 then
        []
      else
        let lo := min tile1 tile2
        let hi := max tile1 tile2
        if hi - lo = 1 then
          (if 1 < tileValue lo then [lo - 1] else []) ++
            (if tileValue hi < 9 then [hi + 1] else [])
        else if hi - lo = 2 then
          [lo + 1]
        else
          []
  | _ => []

/-- `local function ting`: blocks are taken in every order until one tile is left,
or two when the pair is already taken. -/
def tingState : Nat → Counts → Bool → List Nat
  | 0, _, _ => []
  | fuel + 1, counts, jiang =>
      let tiles := counts2Tiles counts
      if tiles.length = 1 ∧ jiang = false then
        feedHuTile tiles
      else if tiles.length = 2 ∧ jiang = true then
        feedHuTile tiles
      else
        (tiles.flatMap fun tile =>
          if 3 ≤ counts tile then tingState fuel (decr counts tile 3) jiang else []) ++
        (tiles.flatMap fun tile =>
          if jiang = false ∧ 2 ≤ counts tile then tingState fuel (decr counts tile 2) true
          else []) ++
        ((List.range' 1 50).flatMap fun tile =>
          if 0 < counts tile ∧ tileValue tile ≤ 7 ∧ 0 < tileValue tile ∧ tileMen tile < 3 ∧
              0 < counts (tile + 1) ∧ 0 < counts (tile + 2) then
            tingState fuel (decr (decr (decr counts tile 1) (tile + 1) 1) (tile + 2) 1) jiang
          else [])

/-- The group of `table.group(counts,function(c,_) return c end)` under `c`. -/
def countTiles (counts : Counts) (c : Int) : List Nat :=
  (List.range' 1 50).filter fun tile => counts tile = c

def evenCount (counts : Counts) : Nat :=
  (countTiles counts 2).length + (countTiles counts 4).length * 2

/-- The body shared by `ting_qi_dui` and `ting_si_dui`: one odd tile among `pairs` pairs. -/
def tingDui (pairs : Nat) (counts : Counts) : Option Nat :=
  if (countTiles counts 1).length = 1 ∧ evenCount counts + 1 = pairs then
    (countTiles counts 1).head?
  else if (countTiles counts 3).length = 1 ∧ evenCount counts + 2 = pairs then
    (countTiles counts 3).head?
  else
    none

def tingQiDui (counts : Counts) : Option Nat := tingDui 7 counts

def tingSiDui (pai : Pai) (counts : Counts) : Option Nat :=
  if 0 < pai.mingPai.length then none else tingDui 4 counts

def duiZiCount (counts : Counts) : Int :=
  ((List.range' 1 50).map fun tile =>
    if counts tile = 4 then 2 else if counts tile = 2 then 1 else 0).sum

/-- The body shared by `is_qi_dui` and `is_si_dui`. -/
def isDui (pairs : Nat) (pai : Pai) (counts : Counts) : Bool :=
  duiZiCount counts = pairs ∧ totalCount counts = 2 * pairs ∧ pai.mingPai.length = 0

def isQiDui (pai : Pai) (counts : Counts) : Bool := isDui 7 pai counts

def isSiDui (pai : Pai) (counts : Counts) : Bool := isDui 4 pai counts

/-- The concealed tiles, with `in_pai` when there is one. -/
def cache (pai : Pai) : Option Nat → Counts
  | none => pai.shouPai
  | some inPai => incr pai.shouPai inPai 1

def isHu (pai : Pai) (inPai : Option Nat) (withSiDui : Bool) : Bool :=
  let counts := cache pai inPai
  isHuState ((counts2Tiles counts).length + 1) counts false ||
    isQiDui pai counts || (withSiDui && isSiDui pai counts)

def tingTiles (pai : Pai) (siDui : Bool) : List Nat :=
  let counts := cache pai none
  tingState ((counts2Tiles counts).length + 1) counts false ++
    (tingQiDui counts).toList ++
    (if siDui then (tingSiDui pai counts).toList else [])

/-- `rule.ting_full`, entry by entry: discards that leave no ready tile have none. -/
def tingFull (pai : Pai) (siDui : Bool) (discard : Nat) : Option (List Nat) :=
  if pai.shouPai discard ≤ 0 then
    none
  else
    match tingTiles { pai with shouPai := decr pai.shouPai discard 1 } siDui with
    | [] => none
    | tiles => some tiles

end FkServer.MaajanXuezhan.Rule
