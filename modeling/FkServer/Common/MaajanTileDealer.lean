import Mathlib.Data.List.Basic
import Mathlib.Data.Multiset.AddSub

/-!
`common/maajan_tile_dealer`: a list of tiles whose first `remain_count` are not
dealt yet. Each random number is an argument `rnd`; `math.random(k)` is the place
`rnd % k + 1` of the source's list, so `rnd % k` here.
-/
namespace FkServer

structure MaajanTileDealer where
  tiles : List Nat
  remainCount : Nat
  within : remainCount ≤ tiles.length

namespace MaajanTileDealer

/-- `tiles[i],tiles[j] = tiles[j],tiles[i]` -/
def swap (tiles : List Nat) (i j : Nat) : List Nat :=
  (tiles.set i (tiles.getD j 0)).set j (tiles.getD i 0)

@[simp] theorem length_swap (tiles : List Nat) (i j : Nat) :
    (swap tiles i j).length = tiles.length := by
  simp [swap]

theorem swap_perm {tiles : List Nat} {i j : Nat} (hi : i < tiles.length)
    (hj : j < tiles.length) : (swap tiles i j).Perm tiles := by
  have at_i : tiles.getD i 0 = tiles[i] := by simp [List.getD, hi]
  have at_j : tiles.getD j 0 = tiles[j] := by simp [List.getD, hj]
  rw [swap, at_i, at_j]
  exact List.set_set_perm hi hj

/-- The loop of `shuffle` from place `i` down. -/
def shuffleFrom (rnd : Nat → Nat) : Nat → List Nat → List Nat
  | 0, tiles => tiles
  | i + 1, tiles => shuffleFrom rnd i (swap tiles (rnd (i + 1) % (i + 1)) (i + 1))

theorem shuffleFrom_perm (rnd : Nat → Nat) {i : Nat} {tiles : List Nat}
    (hi : i < tiles.length ∨ i = 0) : (shuffleFrom rnd i tiles).Perm tiles := by
  induction i generalizing tiles with
  | zero => exact .refl tiles
  | succ i ih =>
      have here : i + 1 < tiles.length := by omega
      have below : rnd (i + 1) % (i + 1) < tiles.length :=
        (Nat.mod_lt _ (Nat.succ_pos i)).trans here
      have rest := @ih (swap tiles (rnd (i + 1) % (i + 1)) (i + 1)) (by simp; omega)
      exact rest.trans (swap_perm below here)

/-- `maajan_tile_dealer:new` and `shuffle`. -/
def shuffle (allTiles : List Nat) (rnd : Nat → Nat) : MaajanTileDealer where
  tiles := shuffleFrom rnd (allTiles.length - 1) allTiles
  remainCount := (shuffleFrom rnd (allTiles.length - 1) allTiles).length
  within := Nat.le_refl _

/-- The tiles not dealt yet. -/
def wall (d : MaajanTileDealer) : Multiset Nat := d.tiles.take d.remainCount

theorem wall_shuffle (allTiles : List Nat) (rnd : Nat → Nat) :
    (shuffle allTiles rnd).wall = (allTiles : Multiset Nat) := by
  rw [wall, shuffle, List.take_length, Multiset.coe_eq_coe]
  exact shuffleFrom_perm rnd (by omega)

@[simp] theorem card_wall (d : MaajanTileDealer) : d.wall.card = d.remainCount := by
  rw [wall, Multiset.coe_card, List.length_take, Nat.min_eq_left d.within]

/-- `deal_one`; the callers look at `remain_count` first, `none` is a dealer without tiles. -/
def dealOne (d : MaajanTileDealer) (rnd : Nat) : Option (Nat × MaajanTileDealer) :=
  match h : d.remainCount with
  | 0 => none
  | k + 1 =>
      some (d.tiles.getD (rnd % (k + 1)) 0,
        { tiles := swap d.tiles (rnd % (k + 1)) k
          remainCount := k
          within := by
            have := d.within
            rw [length_swap]
            omega })

/-- The tile taken out of the undealt part comes to stand right behind what is left. -/
private theorem take_swap_last {tiles : List Nat} {j k : Nat} (hj : j ≤ k)
    (hk : k < tiles.length) :
    (tiles.take (k + 1)).Perm (tiles.getD j 0 :: (swap tiles j k).take k) := by
  have at_j : tiles.getD j 0 = tiles[j] := by simp [List.getD, show j < tiles.length by omega]
  have at_k : tiles.getD k 0 = tiles[k] := by simp [List.getD, hk]
  have rest : (swap tiles j k).take k = (tiles.take k).set j tiles[k] := by
    rw [swap, List.take_set_of_le (Nat.le_refl k), at_k, List.take_set]
  rw [rest, at_j, List.take_succ_eq_append_getElem hk]
  by_cases here : j = k
  · subst here
    rw [List.set_eq_of_length_le (List.length_take_le j tiles)]
    exact List.perm_append_singleton _ _
  · have inside : j < (tiles.take k).length := by rw [List.length_take]; omega
    have same : tiles[j] = (tiles.take k)[j] := by simp
    have put := (List.set_perm_cons_eraseIdx inside tiles[k]).cons tiles[j]
    have back := (List.getElem_cons_eraseIdx_perm inside).cons tiles[k]
    rw [← same] at back
    exact (List.perm_append_singleton _ _).trans
      (back.symm.trans ((List.Perm.swap _ _ _).trans put.symm))

theorem dealOne_wall {d d' : MaajanTileDealer} {rnd tile : Nat}
    (h : d.dealOne rnd = some (tile, d')) :
    d.wall = tile ::ₘ d'.wall ∧ d.remainCount = d'.remainCount + 1 := by
  unfold dealOne at h
  split at h
  · cases h
  · rename_i k remain
    obtain ⟨rfl, rfl⟩ := Prod.mk.inj (Option.some.inj h)
    refine ⟨?_, remain⟩
    have inside := d.within
    refine (congrArg (fun n => (d.tiles.take n : Multiset Nat)) remain).trans ?_
    refine Multiset.coe_eq_coe.2 ?_
    exact take_swap_last (Nat.le_of_lt_succ (Nat.mod_lt _ (Nat.succ_pos k))) (by omega)

theorem wall_of_dealOne_none {d : MaajanTileDealer} {rnd : Nat} (h : d.dealOne rnd = none) :
    d.wall = 0 := by
  unfold dealOne at h
  split at h
  · rename_i none_left
    rw [← Multiset.card_eq_zero, card_wall, none_left]
  · cases h

end MaajanTileDealer
end FkServer
