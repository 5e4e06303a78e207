import FkServer.Common.Functions

/-!
The data of `base/define` and the card table `all_tiles` of `base/rule`. Cards are the
numbers 1 to 21; what a player has shown is a list of sections, each of one of the four
kinds the game makes.
-/
namespace FkServer.ChangpaiZigong

inductive Action
  | trustee
  | peng
  | tou
  | baGang
  | hu
  | pass
  | chi
  | ting
  | tianHu
  | chuPai
  | ziMo
  | moPai
  | tuo
  | qiangGangHu
  | fanPai
  | round
deriving DecidableEq

/-- A row of `all_tiles`. -/
structure TileInfo where
  value : Nat
  hong : Nat
  chongfan : Bool

def allTiles : List TileInfo :=
  [⟨2, 2, true⟩, ⟨3, 1, false⟩, ⟨4, 1, true⟩, ⟨4, 0, false⟩, ⟨5, 5, true⟩, ⟨5, 0, false⟩,
    ⟨6, 0, false⟩, ⟨6, 1, false⟩, ⟨6, 4, false⟩, ⟨7, 0, false⟩, ⟨7, 1, false⟩, ⟨7, 4, true⟩,
    ⟨8, 0, false⟩, ⟨8, 0, false⟩, ⟨8, 8, true⟩, ⟨9, 0, false⟩, ⟨9, 4, true⟩, ⟨10, 0, false⟩,
    ⟨10, 4, false⟩, ⟨11, 0, false⟩, ⟨12, 6, true⟩]

/-- `all_tiles[v]`; the source stops with an error where this is `none`. -/
def tileInfo (tile : Nat) : Option TileInfo := if tile = 0 then none else allTiles[tile - 1]?

def tileValue (tile : Nat) : Nat := (tileInfo tile).elim 0 (·.value)

def tileHongcounts (tile : Nat) : Nat := (tileInfo tile).elim 0 (·.hong)

def tileIsChongfan (tile : Nat) : Bool := (tileInfo tile).elim false (·.chongfan)

/-- The cards of the deck. -/
def Card (tile : Nat) : Prop := 1 ≤ tile ∧ tile ≤ 21

instance (tile : Nat) : Decidable (Card tile) := by
  unfold Card
  infer_instance

theorem Card.inside {tile : Nat} (h : Card tile) : 1 ≤ tile ∧ tile ≤ 50 := by
  unfold Card at h
  omega

theorem Card.mem_range {tile : Nat} (h : Card tile) : tile ∈ List.range' 1 50 := by
  rw [List.mem_range'_1]
  have := h.inside
  omega

/-- An exposed section. `chi` pairs the card eaten with `othertile` from the hand. -/
inductive Section
  | baGang (tile : Nat)
  | peng (tile : Nat)
  | tou (tile : Nat)
  | chi (tile othertile : Nat)
deriving DecidableEq

namespace Section

/-- The cards of a section. -/
def cards : Section → List Nat
  | baGang t => [t, t, t, t]
  | peng t | tou t => [t, t, t]
  | chi t o => [t, o]

end Section

/-- `pai`: a player's cards. `unUsecard` is `none` after `clear_unuse_card`. -/
structure Pai where
  shouPai : Counts
  mingPai : List Section
  deskTiles : List Nat
  unUsecard : Option (List Nat)

inductive HuType
  | weiHu
  | pingHu
  | tianHu
  | diHu
  | tuotuoHong
  | babaHei
  | heiLong
  | siZhang
  | chongfanPeng
  | chongfanTou
  | chongfanChi3
  | tuo24
deriving DecidableEq

/-- A table from kinds to how often they count. -/
abbrev Types := List (HuType × Nat)

end FkServer.ChangpaiZigong
