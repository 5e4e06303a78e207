import FkServer.ChangpaiZigong.Define
import Mathlib.Algebra.GroupWithZero.Nat

/-!
The winning tests of `base/rule`: the search for pairs that add up to 14, the red and
black kinds of a hand, and the count of red cards a win needs. The searches of the
source restore the counter table they share; here each call gets its own.
-/
namespace FkServer.ChangpaiZigong.Rule

/-- `tile` and `first` are held and make a pair. -/
def Pairs (counts : Counts) (first tile : Nat) : Prop :=
  Card tile ∧ 0 < counts first ∧ 0 < counts tile ∧ tileValue first + tileValue tile = 14

instance (counts : Counts) (first tile : Nat) : Decidable (Pairs counts first tile) := by
  unfold Pairs
  infer_instance

/-- `local function hu`: every way to pair the cards off, as often as it is met. -/
def huState : Nat → Counts → List Section → List (List Section)
  | 0, _, _ => []
  | fuel + 1, counts, sections =>
      match counts2Tiles counts with
      | [] => [sections]
      | firstTile :: _ =>
          (List.range' 1 50).flatMap fun tile =>
            if Card firstTile ∧ Pairs counts firstTile tile then
              huState fuel (decr (decr counts firstTile 1) tile 1)
                (sections ++ [.chi tile firstTile])
            else []

/-- `local function is_hu` -/
def isHuState : Nat → Counts → Bool
  | 0, _ => false
  | fuel + 1, counts =>
      match counts2Tiles counts with
      | [] => true
      | firstTile :: _ =>
          (List.range' 1 50).any fun tile =>
            decide (Pairs counts firstTile tile) &&
              isHuState fuel (decr (decr counts firstTile 1) tile 1)

def isHong (tile : Nat) : Bool := 0 < tileHongcounts tile

/-- What a section adds to the red cards `get_hu_types` counts. -/
def sectionHong : Section → Nat
  | .chi tile othertile => (if isHong tile then 1 else 0) + (if isHong othertile then 1 else 0)
  | .peng tile | .tou tile => if isHong tile then 3 else 0
  | .baGang tile => if isHong tile then 4 else 0

/-- Where only red cards keep the all-red kind. -/
def sectionAllHong : Section → Bool
  | .chi tile othertile => isHong tile && isHong othertile
  | .baGang tile | .peng tile | .tou tile => isHong tile

def sectionAnyHong : Section → Bool
  | .chi tile othertile => isHong tile || isHong othertile
  | .baGang tile | .peng tile | .tou tile => isHong tile

/-- A section of three or four red cards takes the black dragon away. -/
def sectionBigHong : Section → Bool
  | .chi _ _ => false
  | .baGang tile | .peng tile | .tou tile => isHong tile

/-- The red cards of a counter table. -/
def hongCount (counts : Counts) : Int :=
  ((List.range' 1 50).map fun tile =>
    if 0 < counts tile ∧ isHong tile then counts tile else 0).sum

def isTuotuoHong (pai : Pai) (counts : Counts) : Bool :=
  pai.mingPai.all sectionAllHong &&
    (List.range' 1 50).all fun tile => counts tile ≤ 0 || isHong tile

def isBabaHei (pai : Pai) (counts : Counts) : Bool :=
  (pai.mingPai.all fun s => !sectionAnyHong s) &&
    (List.range' 1 50).all fun tile => counts tile ≤ 0 || !isHong tile

def isHeiLong (pai : Pai) (counts : Counts) : Bool :=
  (pai.mingPai.all fun s => !sectionBigHong s) &&
    ((pai.mingPai.map sectionHong).sum : Int) + hongCount counts ≤ 4

def getHuTypes (pai : Pai) (counts : Counts) : Types :=
  let special : Types :=
    (if isTuotuoHong pai counts then [(.tuotuoHong, 1)] else []) ++
    (if isBabaHei pai counts then [(.babaHei, 1)] else []) ++
    (if isHeiLong pai counts then [(.heiLong, 1)] else [])
  if special.isEmpty then [(.pingHu, 1)] else special

/-- What a section counts for in `ming_tuos`. -/
def sectionTuos : Section → Nat
  | .peng tile | .tou tile => if isHong tile then 6 else 3
  | .baGang tile => if isHong tile then 8 else 4
  | .chi tile othertile => (if isHong tile then 1 else 0) + (if isHong othertile then 1 else 0)

def mingTuos (pai : Pai) : Nat := (pai.mingPai.map sectionTuos).sum

def tuos (pai : Pai) (inPai : Option Nat) : Int :=
  mingTuos pai + hongCount pai.shouPai + if inPai.any isHong then 1 else 0

/-- The hand with `in_pai` when there is one. -/
def cache (pai : Pai) : Option Nat → Counts
  | none => pai.shouPai
  | some inPai => incr pai.shouPai inPai 1

/-- How many tuos a win needs. -/
def leastTuos (isZhuang : Bool) : Int := if isZhuang then 14 else 12

def isHu (pai : Pai) (inPai : Option Nat) (isZhuang : Bool) : Bool :=
  let counts := cache pai inPai
  let canHu := isHuState ((counts2Tiles counts).length + 1) counts
  let hutype := getHuTypes pai counts
  let enTuo := leastTuos isZhuang ≤ tuos pai inPai ∨
    (hutype.lookup .heiLong).isSome ∨ (hutype.lookup .babaHei).isSome
  canHu && enTuo

/-- `rule.hu`; its `mo_pai` is handed to `rule.tuos`, which does not look at it. -/
def hu (pai : Pai) (inPai : Option Nat) (isZhuang : Bool) : List Types :=
  if inPai.any fun tile => tileValue tile = 7 then
    [[(.weiHu, 1)]]
  else
    let counts := cache pai inPai
    if (huState ((counts2Tiles counts).length + 1) counts []).isEmpty then
      [[(.weiHu, 1)]]
    else
      let types := getHuTypes pai counts
      if (types.lookup .pingHu).isSome ∧ tuos pai inPai < leastTuos isZhuang then
        [[(.weiHu, 1)]]
      else
        [types]

end FkServer.ChangpaiZigong.Rule
