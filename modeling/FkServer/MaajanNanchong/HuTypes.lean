import FkServer.MaajanXuezhan.HuTypes

/-!
The kinds of a winning hand of `maajan_nanchong`: `rule.hu` and the tables
`HU_TYPE_INFO` and `UNIQUE_HU_TYPE` of `base/define`, over the kinds some function of
this game can produce. The searches of `base/rule`, and its predicates on a hand, are
those of `maajan_xuezhan` to the letter and are taken from there.
-/
namespace FkServer.MaajanNanchong

open MaajanXuezhan (Pai HuSection)
open MaajanXuezhan.Rule (cache huState isQiDui isSiDui isQingYiSe is258 gouCount isYiTiaoLong isAll19
  isMenQing menCount)

inductive HuType
  | weiHu
  | tianHu
  | diHu
  | qingYiSe
  | haiDiLaoYue
  | haiDiPao
  | gangShangHua
  | menQing
  | anGang
  | pingHu
  | ziMo
  | danDiaoJiang
  | yiBanGao
  | mingGang
  | qiangGangHu
  | qiDui
  | daDuiZi
  | longQiDui
  | qingQiDui
  | qingLongBei
  | qingDaDui
  | baGang
  | gangShangPao
  | jiangDui
  | quanYaoJiu
  | daiGou
  | kaWuXing
  | kaErTiao
  | siDui
  | longSiDui
  | qingSiDui
  | qingLongSiDui
  | yiTiaoLong
  | queYiMen
deriving DecidableEq

structure HuTypeInfo where
  fan : Nat
  score : Nat

/-- `HU_TYPE_INFO` -/
def huTypeInfo : HuType → HuTypeInfo
  | .weiHu => ⟨0, 0⟩
  | .tianHu => ⟨1, 0⟩
  | .diHu => ⟨1, 0⟩
  | .qingYiSe => ⟨6, 0⟩
  | .haiDiLaoYue => ⟨1, 0⟩
  | .haiDiPao => ⟨1, 0⟩
  | .gangShangHua => ⟨1, 0⟩
  | .menQing => ⟨1, 0⟩
  | .anGang => ⟨1, 0⟩
  | .pingHu => ⟨0, 1⟩
  | .ziMo => ⟨1, 1⟩
  | .danDiaoJiang => ⟨1, 0⟩
  | .yiBanGao => ⟨1, 0⟩
  | .mingGang => ⟨1, 0⟩
  | .qiangGangHu => ⟨1, 0⟩
  | .qiDui => ⟨5, 0⟩
  | .daDuiZi => ⟨4, 0⟩
  | .longQiDui => ⟨6, 0⟩
  | .qingQiDui => ⟨4, 0⟩
  | .qingLongBei => ⟨5, 0⟩
  | .qingDaDui => ⟨3, 0⟩
  | .baGang => ⟨1, 0⟩
  | .gangShangPao => ⟨1, 0⟩
  | .jiangDui => ⟨3, 0⟩
  | .quanYaoJiu => ⟨3, 0⟩
  | .daiGou => ⟨1, 0⟩
  | .kaWuXing => ⟨1, 0⟩
  | .kaErTiao => ⟨1, 0⟩
  | .siDui => ⟨2, 0⟩
  | .longSiDui => ⟨3, 0⟩
  | .qingSiDui => ⟨3, 0⟩
  | .qingLongSiDui => ⟨4, 0⟩
  | .yiTiaoLong => ⟨5, 0⟩
  | .queYiMen => ⟨1, 0⟩

/-- `UNIQUE_HU_TYPE`: what a kind stands for when all of it is there. -/
def uniqueHuType : List (HuType × List HuType) :=
  [(.qingQiDui, [.qiDui, .qingYiSe]), (.qingLongBei, [.longQiDui, .qingYiSe]),
    (.qingDaDui, [.daDuiZi, .qingYiSe]), (.qingSiDui, [.siDui, .qingYiSe]),
    (.qingLongSiDui, [.longSiDui, .qingYiSe])]

/-- A table from kinds to how often they count. -/
abbrev Types := List (HuType × Nat)

namespace Types

/-- `table.mergeto(types,other,function(l,r) return (l or 0) + (r or 0) end)` -/
def add (types other : Types) : Types :=
  types.map (fun tc => (tc.1, tc.2 + (other.lookup tc.1).getD 0)) ++
    other.filter fun tc => (types.lookup tc.1).isNone

/-- `table.merge(types,other,function(l,r) return l or r end)` -/
def merge (types other : Types) : Types :=
  types ++ other.filter fun tc => (types.lookup tc.1).isNone

/-- `ts[t] = n` -/
def set (ts : Types) (t : HuType) (n : Nat) : Types :=
  (t, n) :: ts.filter fun tc => tc.1 ≠ t

end Types

namespace Rule

def isQueYiMen (pai : Pai) (counts : Counts) : Bool :=
  let menCounts := fun men =>
    menCount counts men + (pai.mingPai.countP fun s => MaajanXuezhan.tileMen s.tile = men : Nat)
  ((List.range 3).countP fun men => 0 < menCounts men) ≤ 2

/-- `unique_hu_types`: a kind that stands for others takes their place. -/
def uniqueHuTypes (base : Types) : Types :=
  let step := fun (st : Types × Types) (u : HuType × List HuType) =>
    if u.2.all fun t => (st.2.lookup t).isSome then
      ((u.1, 1) :: st.1, st.2.filter fun tc => tc.1 ∉ u.2)
    else
      st
  let r := uniqueHuType.foldl step ([], base)
  (r.1.add r.2).filter fun tc => 0 < tc.2

/-- `get_hu_types`, the kinds that depend on the decomposition. -/
def getHuTypes (pai : Pai) (counts : Counts) (sections : List HuSection)
    (inPai moPai : Option Nat) : Types :=
  let shunZi := sections.filter fun s => s.type = .chi
  let winning := inPai.or moPai
  let base : Types :=
    (if shunZi.isEmpty then
      if is258 pai counts then [(.jiangDui, 1)] else [(.daDuiZi, 1)]
    else []) ++
    (if winning = some 22 ∧ shunZi.any fun s => s.tile + 1 = 22 then [(.kaErTiao, 1)] else []) ++
    (if winning.any fun w => w % 10 = 5 ∧ shunZi.any fun s => s.tile + 1 = w then
      [(.kaWuXing, 1)]
    else []) ++
    (if (shunZi.map fun s => s.tile).Nodup then [] else [(.yiBanGao, 1)]) ++
    (if isYiTiaoLong pai inPai then [(.yiTiaoLong, 1)] else []) ++
    (if isAll19 pai sections then [(.quanYaoJiu, 1)] else [])
  if base.isEmpty then [(.pingHu, 1)] else base

/-- The kinds of a hand of pairs. -/
def duiTypes (long plain : HuType) (gou : Nat) (qingYiSe menQing queYiMen : Bool) : Types :=
  [(if 0 < gou then long else plain, 1)] ++ (if qingYiSe then [(.qingYiSe, 1)] else []) ++
    (if menQing then [(.menQing, 1)] else []) ++
    (if queYiMen && !qingYiSe then [(.queYiMen, 1)] else [])

/-- `merge_same_type`: of two results over the same kinds the later one stays. -/
def mergeSameType : List Types → List Types
  | [] => []
  | types :: rest =>
      if rest.any fun other =>
          (types.all fun tc => (other.lookup tc.1).isSome) &&
            other.all fun tc => (types.lookup tc.1).isSome then
        mergeSameType rest
      else
        types :: mergeSameType rest

def hu (pai : Pai) (inPai moPai : Option Nat) : List Types :=
  let counts := cache pai inPai
  let found := huState ((counts2Tiles counts).length + 1) counts false []
  let qiDui := isQiDui pai counts
  let siDui := isSiDui pai counts
  if found.isEmpty ∧ qiDui = false ∧ siDui = false then
    [[(.weiHu, 1)]]
  else
    let qingYiSe := isQingYiSe pai counts
    let menQing := isMenQing pai
    let gou := gouCount pai counts
    let queYiMen := isQueYiMen pai counts
    let sum := totalCount pai.shouPai
    let danDiao := (sum = 1 ∧ inPai.any fun t => pai.shouPai t = 1) ∨
      (sum = 2 ∧ inPai = none ∧ (List.range' 1 50).any fun t => pai.shouPai t = 2)
    let commonTypes : Types :=
      (if menQing then [(.menQing, 1)] else []) ++ (if qingYiSe then [(.qingYiSe, 1)] else []) ++
      (if queYiMen && !qingYiSe then [(.queYiMen, 1)] else []) ++
      (if 0 < gou then [(.daiGou, gou)] else []) ++
      (if danDiao then [(.danDiaoJiang, 1)] else [])
    let allTypes :=
      (if qiDui then [duiTypes .longQiDui .qiDui gou qingYiSe menQing queYiMen] else []) ++
      (if siDui then [duiTypes .longSiDui .siDui gou qingYiSe menQing queYiMen] else []) ++
      found.map fun sections => (getHuTypes pai counts sections inPai moPai).add commonTypes
    mergeSameType (allTypes.map uniqueHuTypes)

end Rule
end FkServer.MaajanNanchong
