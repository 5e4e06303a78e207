import FkServer.MaajanXuezhan.Rule

/-!
The kinds of a winning hand: `rule.hu` with the predicates it asks, and the tables
`HU_TYPE_INFO` and `UNIQUE_HU_TYPE` of `base/define`, over the kinds some function
of this game can produce. A table from kinds to counts is an association list; where
the source walks a table with `pairs`, the list is walked from its head.
-/
namespace FkServer.MaajanXuezhan

inductive HuType
  | weiHu
  | tianHu
  | diHu
  | qingYiSe
  | haiDiLaoYue
  | gangShangHua
  | menQing
  | anGang
  | duanYao
  | pingHu
  | ziMo
  | danDiaoJiang
  | mingGang
  | qiangGangHu
  | qiDui
  | daDuiZi
  | longQiDui
  | qingQiDui
  | qingLongBei
  | qingDaDui
  | baGang
  | gangShangPao
  | jiangDui
  | quanYaoJiu
  | daiGou
  | kaWuXing
  | kaErTiao
  | siDui
  | longSiDui
  | qingSiDui
  | qingLongSiDui
  | yiTiaoLong
  | kaWuTiao
deriving DecidableEq

structure HuTypeInfo where
  fan : Nat
  score : Nat

/-- `HU_TYPE_INFO` -/
def huTypeInfo : HuType → HuTypeInfo
  | .weiHu => ⟨0, 0⟩
  | .tianHu => ⟨3, 0⟩
  | .diHu => ⟨2, 0⟩
  | .qingYiSe => ⟨2, 0⟩
  | .haiDiLaoYue => ⟨1, 0⟩
  | .gangShangHua => ⟨1, 0⟩
  | .menQing => ⟨1, 0⟩
  | .anGang => ⟨1, 2⟩
  | .duanYao => ⟨1, 0⟩
  | .pingHu => ⟨0, 1⟩
  | .ziMo => ⟨1, 1⟩
  | .danDiaoJiang => ⟨1, 0⟩
  | .mingGang => ⟨1, 2⟩
  | .qiangGangHu => ⟨1, 0⟩
  | .qiDui => ⟨2, 0⟩
  | .daDuiZi => ⟨1, 0⟩
  | .longQiDui => ⟨3, 0⟩
  | .qingQiDui => ⟨4, 0⟩
  | .qingLongBei => ⟨5, 0⟩
  | .qingDaDui => ⟨3, 0⟩
  | .baGang => ⟨1, 1⟩
  | .gangShangPao => ⟨1, 0⟩
  | .jiangDui => ⟨3, 0⟩
  | .quanYaoJiu => ⟨3, 0⟩
  | .daiGou => ⟨1, 0⟩
  | .kaWuXing => ⟨1, 0⟩
  | .kaErTiao => ⟨1, 0⟩
  | .siDui => ⟨2, 0⟩
  | .longSiDui => ⟨3, 0⟩
  | .qingSiDui => ⟨3, 0⟩
  | .qingLongSiDui => ⟨4, 0⟩
  | .yiTiaoLong => ⟨1, 0⟩
  | .kaWuTiao => ⟨1, 0⟩

/-- `UNIQUE_HU_TYPE`: what a kind stands for when all of it is there. -/
def uniqueHuType : List (HuType × List HuType) :=
  [(.qingQiDui, [.qiDui, .qingYiSe]), (.qingLongBei, [.longQiDui, .qingYiSe]),
    (.qingDaDui, [.daDuiZi, .qingYiSe]), (.qingSiDui, [.siDui, .qingYiSe]),
    (.qingLongSiDui, [.longSiDui, .qingYiSe])]

/-- A table from kinds to how often they count. -/
abbrev Types := List (HuType × Nat)

namespace Types

/-- `table.mergeto(types,other,function(l,r) return (l or 0) + (r or 0) end)` -/
def add (types other : Types) : Types :=
  types.map (fun tc => (tc.1, tc.2 + (other.lookup tc.1).getD 0)) ++
    other.filter fun tc => (types.lookup tc.1).isNone

/-- `table.merge(types,other,function(l,r) return l or r end)` -/
def merge (types other : Types) : Types :=
  types ++ other.filter fun tc => (types.lookup tc.1).isNone

end Types

/-- A section of a decomposition. -/
structure HuSection where
  type : SectionType
  tile : Nat

namespace Rule

/-- `local function hu`: every decomposition of the counts, as often as it is met. -/
def huState : Nat → Counts → Bool → List HuSection → List (List HuSection)
  | 0, _, _, _ => []
  | fuel + 1, counts, jiang, sections =>
      match counts2Tiles counts with
      | [] => [sections]
      | first :: _ =>
          (if 3 ≤ counts first then
            huState fuel (decr counts first 3) jiang (sections ++ [⟨.three, first⟩])
          else []) ++
          (if jiang = false ∧ 2 ≤ counts first then
            huState fuel (decr counts first 2) true (sections ++ [⟨.duiZi, first⟩])
          else []) ++
          ((List.range' 1 50).flatMap fun tile =>
            if 0 < counts tile ∧ 0 < tileValue tile ∧ tileValue tile ≤ 7 ∧ tileMen tile < 3 ∧
                0 < counts (tile + 1) ∧ 0 < counts (tile + 2) then
              huState fuel (decr (decr (decr counts tile 1) (tile + 1) 1) (tile + 2) 1) jiang
                (sections ++ [⟨.chi, tile⟩])
            else [])

/-- The tiles of one suit in a counter table. -/
def menCount (counts : Counts) (men : Nat) : Int :=
  (((List.range' 1 50).filter fun tile => tileMen tile = men).map counts).sum

def isQingYiSe (pai : Pai) (counts : Counts) : Bool :=
  let menCounts := fun men =>
    menCount counts men + (pai.mingPai.countP fun s => tileMen s.tile = men : Nat)
  ((List.range 3).countP fun men => 0 < menCounts men) = 1

def is258 (pai : Pai) (counts : Counts) : Bool :=
  let good := fun tile => tileValue tile = 2 ∨ tileValue tile = 5 ∨ tileValue tile = 8
  ((List.range' 1 50).all fun tile => counts tile = 0 ∨ good tile) &&
    pai.mingPai.all fun s => good s.tile

def isYaoJiu (tile : Nat) : Bool :=
  tileValue tile = 1 ∨ tileValue tile = 9

def isDuanYao (pai : Pai) (inPai : Option Nat) : Bool :=
  !(((List.range' 1 50).any fun tile => 0 < pai.shouPai tile ∧ isYaoJiu tile) ||
    (pai.mingPai.any fun s => isYaoJiu s.tile) || inPai.any isYaoJiu)

def gouCount (pai : Pai) (counts : Counts) : Nat :=
  ((List.range' 1 50).countP fun tile => counts tile = 4) +
    pai.mingPai.countP fun s => s.type = .peng ∧ counts s.tile = 1

/-- The winning search on a table that is no longer a whole hand. -/
def restIsHu (counts : Counts) : Bool :=
  isHuState ((counts2Tiles counts).length + 1) counts false

def isKaWuTiao (pai : Pai) (inPai moPai : Option Nat) : Bool :=
  if inPai.or moPai ≠ some 25 then
    false
  else
    let shouPai := cache pai inPai
    if shouPai 24 = 0 ∨ shouPai 26 = 0 then
      false
    else
      restIsHu (decr (decr (decr shouPai 24 1) 25 1) 26 1)

def isYiTiaoLong (pai : Pai) (inPai : Option Nat) : Bool :=
  let shouPai := cache pai inPai
  if totalCount shouPai < 11 ∨ isQingYiSe pai shouPai = false ∨ 1 < pai.mingPai.length then
    false
  else
    match (counts2Tiles shouPai).head? with
    | none => false
    | some tile =>
        let long := List.range' (tileMen tile * 10 + 1) 9
        if long.any fun t => shouPai t = 0 then
          false
        else
          restIsHu (long.foldl (fun c t => decr c t 1) shouPai)

def isAll19 (pai : Pai) (sections : List HuSection) : Bool :=
  (sections.all fun s =>
    if s.type = .chi then isYaoJiu s.tile || isYaoJiu (s.tile + 1) || isYaoJiu (s.tile + 2)
    else isYaoJiu s.tile) &&
  pai.mingPai.all fun s => isYaoJiu s.tile

def isMenQing (pai : Pai) : Bool :=
  pai.mingPai.all fun s => s.type = .anGang

/-- `unique_hu_types`: a kind that stands for others takes their place. -/
def uniqueHuTypes (base : Types) : Types :=
  let step := fun (st : Types × Types) (u : HuType × List HuType) =>
    if u.2.all fun t => (st.2.lookup t).isSome then
      ((u.1, 1) :: st.1, st.2.filter fun tc => tc.1 ∉ u.2)
    else
      st
  let r := uniqueHuType.foldl step ([], base)
  (r.1.add r.2).filter fun tc => 0 < tc.2

/-- `get_hu_types`, the kinds that depend on the decomposition. -/
def getHuTypes (pai : Pai) (counts : Counts) (sections : List HuSection)
    (inPai moPai : Option Nat) : Types :=
  let shunZi := sections.filter fun s => s.type = .chi
  let winning := inPai.or moPai
  let base : Types :=
    (if shunZi.isEmpty then
      if is258 pai counts then [(.jiangDui, 1)] else [(.daDuiZi, 1)]
    else []) ++
    (if winning = some 22 ∧ shunZi.any fun s => s.tile + 1 = 22 then [(.kaErTiao, 1)] else []) ++
    (if winning.any fun w => w % 10 = 5 ∧ shunZi.any fun s => s.tile + 1 = w then
      [(.kaWuXing, 1)]
    else []) ++
    (if isKaWuTiao pai inPai moPai then [(.kaWuTiao, 1)] else []) ++
    (if isYiTiaoLong pai inPai then [(.yiTiaoLong, 1)] else []) ++
    (if isAll19 pai sections then [(.quanYaoJiu, 1)] else [])
  if base.isEmpty then [(.pingHu, 1)] else base

/-- The kinds of a hand of pairs. -/
def duiTypes (long plain : HuType) (gou : Nat) (qingYiSe duanYao menQing : Bool) : Types :=
  [(if 0 < gou then long else plain, 1)] ++ (if qingYiSe then [(.qingYiSe, 1)] else []) ++
    (if duanYao then [(.duanYao, 1)] else []) ++ (if menQing then [(.menQing, 1)] else [])

/-- `merge_same_type`: of two results over the same kinds the later one stays. -/
def mergeSameType : List Types → List Types
  | [] => []
  | types :: rest =>
      if rest.any fun other =>
          (types.all fun tc => (other.lookup tc.1).isSome) &&
            other.all fun tc => (types.lookup tc.1).isSome then
        mergeSameType rest
      else
        types :: mergeSameType rest

def hu (pai : Pai) (inPai moPai : Option Nat) : List Types :=
  let counts := cache pai inPai
  let found := huState ((counts2Tiles counts).length + 1) counts false []
  let qiDui := isQiDui pai counts
  let siDui := isSiDui pai counts
  if found.isEmpty ∧ qiDui = false ∧ siDui = false then
    [[(.weiHu, 1)]]
  else
    let qingYiSe := isQingYiSe pai counts
    let menQing := isMenQing pai
    let duanYao := isDuanYao pai inPai
    let gou := gouCount pai counts
    let sum := totalCount pai.shouPai
    let danDiao := (sum = 1 ∧ inPai.any fun t => pai.shouPai t = 1) ∨
      (sum = 2 ∧ inPai = none ∧ (List.range' 1 50).any fun t => pai.shouPai t = 2)
    let commonTypes : Types :=
      (if duanYao then [(.duanYao, 1)] else []) ++ (if menQing then [(.menQing, 1)] else []) ++
      (if qingYiSe then [(.qingYiSe, 1)] else []) ++ (if 0 < gou then [(.daiGou, gou)] else []) ++
      (if danDiao then [(.danDiaoJiang, 1)] else [])
    let allTypes :=
      (if qiDui then [duiTypes .longQiDui .qiDui gou qingYiSe duanYao menQing] else []) ++
      (if siDui then [duiTypes .longSiDui .siDui gou qingYiSe duanYao menQing] else []) ++
      found.map fun sections => (getHuTypes pai counts sections inPai moPai).add commonTypes
    mergeSameType (allTypes.map uniqueHuTypes)

end Rule
end FkServer.MaajanXuezhan
