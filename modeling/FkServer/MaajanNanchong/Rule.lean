import FkServer.MaajanNanchong.HuTypes

/-!
What `base/rule` knows about laying cards out: the discards that the rest of the hand
allows and the tiles that complete the cards laid out, each searched for on its own.
-/
namespace FkServer.MaajanNanchong.Rule

open MaajanXuezhan (Pai tileValue tileMen)
open MaajanXuezhan.Rule (countTiles evenCount feedHuTile)

/-- The hand is one tile away from pairs only, with one tile to discard. -/
def quanTingQiDui (counts : Counts) : Bool :=
  let n := fun c => (countTiles counts c).length
  (n 1 = 2 ∧ evenCount counts = 6) ∨ (n 3 = 1 ∧ n 1 = 1 ∧ evenCount counts = 5) ∨
    (n 3 = 2 ∧ evenCount counts = 4)

/-- The body shared by `ban_hu` and `ban_ting` for hands of blocks: triplets, a pair and
runs are taken in every order until `feed` says what the tiles that are left give. -/
def banBlocks (feed : List Nat → Bool → Option (List Nat)) : Nat → Counts → Bool → List Nat
  | 0, _, _ => []
  | fuel + 1, counts, jiang =>
      let tiles := counts2Tiles counts
      match feed tiles jiang with
      | some found => found
      | none =>
          (tiles.flatMap fun tile =>
            if 3 ≤ counts tile then banBlocks feed fuel (decr counts tile 3) jiang else []) ++
          (tiles.flatMap fun tile =>
            if jiang = false ∧ 2 ≤ counts tile then banBlocks feed fuel (decr counts tile 2) true
            else []) ++
          ((List.range' 1 50).flatMap fun tile =>
            if 0 < counts tile ∧ tileValue tile ≤ 7 ∧ 0 < tileValue tile ∧ tileMen tile < 3 ∧
                0 < counts (tile + 1) ∧ 0 < counts (tile + 2) then
              banBlocks feed fuel (decr (decr (decr counts tile 1) (tile + 1) 1) (tile + 2) 1) jiang
            else [])

/-- The body shared by `ban_hu` and `ban_ting` for hands of pairs. -/
def banPairs : Nat → Counts → List Nat
  | 0, _ => []
  | fuel + 1, counts =>
      let tiles := counts2Tiles counts
      if tiles.length = 1 then
        tiles
      else
        tiles.flatMap fun tile =>
          if 2 ≤ counts tile then banPairs fuel (decr counts tile 2) else []

/-- Where `ban_hu` ends: the one tile left is to be discarded. -/
def banHuFeed (tiles : List Nat) (_ : Bool) : Option (List Nat) :=
  if tiles.length = 1 then some tiles else none

/-- Where `ban_ting` ends: one tile waits for its pair, two for a triplet or a run. -/
def banTingFeed (tiles : List Nat) (jiang : Bool) : Option (List Nat) :=
  if tiles.length = 1 ∧ jiang = false then some (feedHuTile tiles)
  else if tiles.length = 2 then some (feedHuTile tiles)
  else none

def banHu (counts : Counts) (isQi : Bool) : List Nat :=
  let fuel := (counts2Tiles counts).length + 1
  if isQi then banPairs fuel counts else banBlocks banHuFeed fuel counts false

def banTing (counts : Counts) (isQi : Bool) : List Nat :=
  let fuel := (counts2Tiles counts).length + 1
  if isQi then banPairs fuel counts else banBlocks banTingFeed fuel counts false

/-- The table of the cards laid out. -/
def laidCounts (cards : List Nat) : Counts := cards.foldl (fun counts tile => incr counts tile 1) fun _ => 0

/-- The hand without the cards laid out. -/
def restCounts (pai : Pai) (cards : List Nat) : Counts :=
  cards.foldl (fun counts tile => decr counts tile 1) pai.shouPai

/-- `cards_can_bai`: what may be discarded, and which tiles are waited for. -/
def cardsCanBai (pai : Pai) (cards : List Nat) : List Nat × List Nat :=
  let qiDui := quanTingQiDui pai.shouPai
  ((banHu (restCounts pai cards) qiDui).dedup, (banTing (laidCounts cards) qiDui).dedup)

end FkServer.MaajanNanchong.Rule
