import FkServer.Common.Functions
import Mathlib.Data.List.Basic

/-!
The data of `base/define`: actions, sections and the hand of a player. Tiles and
chairs are numbers.
-/
namespace FkServer.MaajanXuezhan

def tileValue (tile : Nat) : Nat := tile % 10

def tileMen (tile : Nat) : Nat := tile / 10

def checkTile (tile : Nat) : Bool :=
  tileMen tile ≤ 4 ∧ 0 < tileValue tile ∧ tileValue tile < 10

/-- The tiles of the three suits, which are all a deck of this game holds. -/
def SuitTile (tile : Nat) : Prop := 0 < tileValue tile ∧ tileMen tile < 3

instance (tile : Nat) : Decidable (SuitTile tile) := by
  unfold SuitTile
  infer_instance

theorem SuitTile.range {tile : Nat} (h : SuitTile tile) : 1 ≤ tile ∧ tile ≤ 29 := by
  simp only [SuitTile, tileValue, tileMen] at h
  omega

theorem SuitTile.mem_range {tile : Nat} (h : SuitTile tile) : tile ∈ List.range' 1 50 := by
  have := h.range
  rw [List.mem_range'_1]
  omega

inductive Action
  | trustee
  | peng
  | anGang
  | mingGang
  | baGang
  | hu
  | pass
  | leftChi
  | midChi
  | rightChi
  | ting
  | jiaBei
  | chuPai
  | ziMo
  | men
  | moPai
  | menZiMo
  | freeBaGang
  | freeAnGang
  | dingQue
  | huanPai
  | qiangGangHu
deriving DecidableEq

def isActionGang : Action → Bool
  | .anGang | .mingGang | .baGang | .freeBaGang | .freeAnGang => true
  | _ => false

inductive SectionType
  | four
  | anGang
  | mingGang
  | baGang
  | duiZi
  | three
  | peng
  | chi
  | leftChi
  | midChi
  | rightChi
deriving DecidableEq

def isSectionGang : SectionType → Bool
  | .anGang | .mingGang | .baGang => true
  | _ => false

/-- An exposed meld. `time` is what the source records (for concealed and added
gangs); `laid` is the moment the meld was laid, which nothing modelled reads. -/
structure Section where
  type : SectionType
  tile : Nat
  whoee : Option Nat
  time : Option Nat
  dianPao : Option Nat
  laid : Nat
deriving DecidableEq

def Section.isPeng (tile : Nat) (sec : Section) : Bool := sec.tile = tile ∧ sec.type = .peng

/-- `pai`: a player's tiles. `huan` is the list given away, `huan.old`. -/
structure Pai where
  shouPai : Counts
  mingPai : List Section
  deskTiles : List Nat
  huan : Option (List Nat)

end FkServer.MaajanXuezhan
