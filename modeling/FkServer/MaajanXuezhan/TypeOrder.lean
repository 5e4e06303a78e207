import FkServer.MaajanXuezhan.WinningJudges
import Mathlib.Data.Multiset.Dedup
import Mathlib.Data.Multiset.Fold
import Mathlib.Algebra.BigOperators.Group.Multiset.Basic

/-!
`rule.hu` whatever the order in which `pairs` meets the entries of `UNIQUE_HU_TYPE` and of the
tables of kinds. All the rows of `UNIQUE_HU_TYPE` share one kind and no hand has the other kinds
of two of them, so at most one row applies; and the kinds of a result tell how often each counts,
so it does not matter which of two results over the same kinds is kept.
-/
namespace FkServer.MaajanXuezhan

/-- The orders of one run of `pairs` after another. -/
structure PairsOrder where
  rows : List (HuType × List HuType)
  rows_perm : rows.Perm uniqueHuType
  row : List HuType → List HuType
  row_perm : ∀ kinds, (row kinds).Perm kinds
  entries : Types → Types
  entries_perm : ∀ types, (entries types).Perm types
  alltypes : List Types → List Types
  alltypes_perm : ∀ all, (alltypes all).Perm all
  values : List Types → List Types
  values_perm : ∀ all, (values all).Perm all

/-- The order in which the tables are written down. -/
def PairsOrder.written : PairsOrder where
  rows := uniqueHuType
  rows_perm := .refl _
  row := id
  row_perm _ := .refl _
  entries := id
  entries_perm _ := .refl _
  alltypes := id
  alltypes_perm _ := .refl _
  values := id
  values_perm _ := .refl _

namespace Rule

/-- One turn of the loop of `unique_hu_types`, over a row and the kinds in it. -/
def uniqueStep (st : Types × Types) (u : HuType × List HuType) : Types × Types :=
  if u.2.all fun t => (st.2.lookup t).isSome then
    ((u.1, 1) :: st.1, st.2.filter fun tc => tc.1 ∉ u.2)
  else
    st

/-- `unique_hu_types` -/
def uniqueHuTypesIn (o : PairsOrder) (base : Types) : Types :=
  let r := (o.rows.map fun u => (u.1, o.row u.2)).foldl uniqueStep ([], o.entries base)
  o.entries ((r.1.add r.2).filter fun tc => 0 < tc.2)

/-- The results of `rule.hu` before `unique_hu_types`. -/
def baseTypes (pai : Pai) (inPai moPai : Option Nat) : List Types :=
  let counts := cache pai inPai
  let found := huState ((counts2Tiles counts).length + 1) counts false []
  let qingYiSe := isQingYiSe pai counts
  let menQing := isMenQing pai
  let duanYao := isDuanYao pai inPai
  let gou := gouCount pai counts
  let sum := totalCount pai.shouPai
  let danDiao := (sum = 1 ∧ inPai.any fun t => pai.shouPai t = 1) ∨
    (sum = 2 ∧ inPai = none ∧ (List.range' 1 50).any fun t => pai.shouPai t = 2)
  let commonTypes : Types :=
    (if duanYao then [(.duanYao, 1)] else []) ++ (if menQing then [(.menQing, 1)] else []) ++
    (if qingYiSe then [(.qingYiSe, 1)] else []) ++ (if 0 < gou then [(.daiGou, gou)] else []) ++
    (if danDiao then [(.danDiaoJiang, 1)] else [])
  (if isQiDui pai counts then [duiTypes .longQiDui .qiDui gou qingYiSe duanYao menQing] else []) ++
    (if isSiDui pai counts then [duiTypes .longSiDui .siDui gou qingYiSe duanYao menQing] else []) ++
    found.map fun sections => (getHuTypes pai counts sections inPai moPai).add commonTypes

/-- No form of a win is found. -/
def notHu (pai : Pai) (inPai : Option Nat) : Bool :=
  let counts := cache pai inPai
  (huState ((counts2Tiles counts).length + 1) counts false []).isEmpty ∧ isQiDui pai counts = false ∧
    isSiDui pai counts = false

/-- `rule.hu` -/
def huIn (o : PairsOrder) (pai : Pai) (inPai moPai : Option Nat) : List Types :=
  if notHu pai inPai then
    [[(.weiHu, 1)]]
  else
    o.values (mergeSameType (o.alltypes ((baseTypes pai inPai moPai).map (uniqueHuTypesIn o))))

theorem hu_written (pai : Pai) (inPai moPai : Option Nat) :
    huIn .written pai inPai moPai = hu pai inPai moPai := by
  have unique : uniqueHuTypesIn .written = uniqueHuTypes := by
    funext base
    rfl
  rw [huIn, unique, hu, notHu]
  simp only [decide_eq_true_eq]
  rfl

/-! ### Tables of kinds -/

/-- How often a kind counts, where it counts. -/
def weight (gou : Nat) : HuType → Nat
  | .daiGou => gou
  | _ => 1

/-- A table of kinds whose counts are told by the kinds. -/
structure Weighted (gou : Nat) (types : Types) : Prop where
  once : (types.map Prod.fst).Nodup
  counts : ∀ tc ∈ types, tc.2 = weight gou tc.1 ∧ 0 < tc.2

/-- The kinds that stand in `UNIQUE_HU_TYPE` beside the one colour. -/
def heads : List HuType := [.qiDui, .longQiDui, .daDuiZi, .siDui, .longSiDui]

/-- The kinds a hand starts with: at most one of `heads`, and none that stands for others. -/
structure Base (gou : Nat) (types : Types) : Prop extends Weighted gou types where
  single : ∀ a ∈ types.map Prod.fst, ∀ b ∈ types.map Prod.fst, a ∈ heads → b ∈ heads → a = b
  plain : ∀ u ∈ uniqueHuType, u.1 ∉ types.map Prod.fst

variable {gou : Nat} {types other : Types}

theorem Weighted.sublist (h : Weighted gou types) (part : other.Sublist types) : Weighted gou other where
  once := h.once.sublist (part.map _)
  counts tc member := h.counts tc (part.subset member)

theorem Base.sublist (h : Base gou types) (part : other.Sublist types) : Base gou other where
  toWeighted := h.toWeighted.sublist part
  single a ha b hb := h.single a ((part.map _).subset ha) b ((part.map _).subset hb)
  plain u row there := h.plain u row ((part.map _).subset there)

theorem Weighted.perm (h : Weighted gou types) (same : other.Perm types) : Weighted gou other where
  once := (same.map Prod.fst).nodup_iff.2 h.once
  counts tc member := h.counts tc (same.mem_iff.1 member)

theorem lookup_isSome {kind : HuType} :
    (types.lookup kind).isSome = true ↔ kind ∈ types.map Prod.fst := by
  induction types with
  | nil => simp
  | cons tc rest ih =>
      rw [List.lookup_cons, List.map_cons, List.mem_cons, ← ih]
      by_cases same : kind = tc.1
      · simp [same]
      · rw [beq_false_of_ne same]
        exact (or_iff_right same).symm

/-- Adding a table of other kinds puts it behind. -/
theorem add_disjoint (apart : ∀ tc ∈ other, tc.1 ∉ types.map Prod.fst) :
    types.add other = types ++ other := by
  have kept : (other.filter fun tc => (types.lookup tc.1).isNone) = other := by
    refine List.filter_eq_self.2 fun tc member => ?_
    rw [← Option.not_isSome, Bool.not_eq_true', ← Bool.not_eq_true, lookup_isSome]
    exact apart tc member
  have same : (types.map fun tc => (tc.1, tc.2 + (other.lookup tc.1).getD 0)) = types := by
    refine (List.map_congr_left fun tc member => ?_).trans (List.map_id _)
    have none : other.lookup tc.1 = none := by
      rw [← Option.not_isSome_iff_eq_none, lookup_isSome]
      intro there
      obtain ⟨tc', inside, key⟩ := List.mem_map.1 there
      exact apart tc' inside (key ▸ List.mem_map_of_mem member)
    rw [none]
    rfl
  rw [Types.add, kept, same]

theorem Base.add (h : Base gou (types ++ other)) : Base gou (types.add other) := by
  have once := h.once
  rw [List.map_append, List.nodup_append] at once
  rw [add_disjoint fun tc member there => once.2.2 _ there _ (List.mem_map_of_mem member) rfl]
  exact h

/-- The merge at the end of `unique_hu_types`, of two tables without a common kind. -/
theorem Weighted.combine {first rest : Types} (o : PairsOrder) (h : Weighted gou types)
    (same : (first ++ rest).Perm types) :
    (o.entries ((first.add rest).filter fun tc => 0 < tc.2)).Perm types := by
  have both := h.perm same
  have once := both.once
  rw [List.map_append, List.nodup_append] at once
  rw [add_disjoint fun tc member there => once.2.2 _ there _ (List.mem_map_of_mem member) rfl,
    List.filter_eq_self.2 fun tc member => decide_eq_true (both.counts tc member).2]
  exact (o.entries_perm _).trans same

/-- The tables of some results, each once with its entries in no order. -/
def tables (all : List Types) : Multiset (Multiset (HuType × Nat)) :=
  Multiset.ofList (all.map Multiset.ofList)

end Rule
end FkServer.MaajanXuezhan
