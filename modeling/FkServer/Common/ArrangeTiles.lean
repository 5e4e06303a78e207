import FkServer.Common.CardDealer

/-!
`maajan_tile_dealer:arrange_tiles` puts given tiles at given places, each by an exchange with the
last undealt tile of its kind. Where that tile has been placed itself, its place is lost again.
-/
namespace FkServer.MaajanTileDealer

/-- `back_indexof` -/
def backIndexof (tiles : List Nat) (k tile : Nat) : Option Nat :=
  CardDealer.lastIndex (fun t => t = tile) tiles k

/-- One round of the loop, for the tile that is to come to place `m`. -/
def place (k m tile : Nat) (tiles : List Nat) : List Nat :=
  match backIndexof tiles k tile with
  | some j => if j ≠ m then swap tiles j m else tiles
  | none => tiles

def arrangeFrom (k : Nat) : Nat → List Nat → List Nat → List Nat
  | _, [], tiles => tiles
  | m, tile :: list, tiles => arrangeFrom k (m + 1) list (place k m tile tiles)

@[simp] theorem length_place (k m tile : Nat) (tiles : List Nat) :
    (place k m tile tiles).length = tiles.length := by
  unfold place
  split
  · split <;> simp
  · rfl

theorem length_arrangeFrom (k m : Nat) (list tiles : List Nat) :
    (arrangeFrom k m list tiles).length = tiles.length := by
  induction list generalizing m tiles with
  | nil => rfl
  | cons tile list ih => rw [arrangeFrom, ih, length_place]

/-- `arrange_tiles` of a list that there is room for. -/
def arrangeTiles (d : MaajanTileDealer) (list : List Nat) (begin_ : Option Nat) : MaajanTileDealer where
  tiles := arrangeFrom d.remainCount (begin_.getD 1 - 1) list d.tiles
  remainCount := d.remainCount
  within := by
    rw [length_arrangeFrom]
    exact d.within

/-- A list of undealt tiles, and where it is to begin. -/
structure Prearranged where
  dealer : MaajanTileDealer
  list : List Nat
  begin_ : Option Nat
  positive : ∀ place ∈ begin_, 1 ≤ place
  room : begin_.getD 1 - 1 + list.length ≤ dealer.remainCount
  inside : (list : Multiset Nat) ≤ dealer.wall

def Prearranged.first (p : Prearranged) : Nat := p.begin_.getD 1 - 1

def Prearranged.after (p : Prearranged) : MaajanTileDealer := p.dealer.arrangeTiles p.list p.begin_

/-- The tiles are the same ones, and those of the list stand where they should. -/
def Prearranged.Arranged (p : Prearranged) : Prop :=
  p.after.tiles.Perm p.dealer.tiles ∧ p.after.wall = p.dealer.wall ∧
    ∀ i < p.list.length, p.after.tiles[p.first + i]? = p.list[i]?

/-! ### What the list needs of the places from its own on -/

/-- Another tile in the place of the last one of a kind. -/
def setLast (tile other : Nat) : List Nat → List Nat
  | [] => []
  | t :: rest =>
      if tile ∈ rest then t :: setLast tile other rest
      else if t = tile then other :: rest
      else t :: rest

/-- The places behind the next one, after that has been filled with the last tile of a kind. -/
def fill (tile : Nat) : List Nat → List Nat
  | [] => []
  | next :: rest => setLast tile next rest

/-- A tile that has been placed already is there once more from the next place on. -/
def Reserves : List Nat → List Nat → List Nat → Prop
  | _, _, [] => True
  | placed, behind, tile :: list =>
      (tile ∈ placed → tile ∈ behind) ∧ Reserves (placed ++ [tile]) (fill tile behind) list

/-- The undealt tiles from the first place of the list on. -/
def Prearranged.behind (p : Prearranged) : List Nat :=
  (p.dealer.tiles.take p.dealer.remainCount).drop p.first

theorem setLast_of_not_mem {tile : Nat} {tiles : List Nat} (missing : tile ∉ tiles) (other : Nat) :
    setLast tile other tiles = tiles := by
  cases tiles with
  | nil => rfl
  | cons t rest =>
      rw [List.mem_cons, not_or] at missing
      rw [setLast, if_neg missing.2, if_neg (Ne.symm missing.1)]

theorem setLast_split {tile : Nat} {left right : List Nat} (last : tile ∉ right) (other : Nat) :
    setLast tile other (left ++ tile :: right) = left ++ other :: right := by
  induction left with
  | nil => rw [List.nil_append, setLast, if_neg last, if_pos rfl, List.nil_append]
  | cons t left ih =>
      rw [List.cons_append, setLast, if_pos (List.mem_append_right _ List.mem_cons_self), ih,
        List.cons_append]

@[simp] theorem length_setLast (tile other : Nat) (tiles : List Nat) :
    (setLast tile other tiles).length = tiles.length := by
  induction tiles with
  | nil => rfl
  | cons t rest ih =>
      rw [setLast]
      split
      · rw [List.length_cons, ih, List.length_cons]
      · split <;> rfl

/-- The last occurrence splits a list. -/
theorem exists_last {tile : Nat} {tiles : List Nat} (mem : tile ∈ tiles) :
    ∃ left right, tiles = left ++ tile :: right ∧ tile ∉ right := by
  induction tiles with
  | nil => cases mem
  | cons t rest ih =>
      by_cases later : tile ∈ rest
      · obtain ⟨left, right, same, last⟩ := ih later
        exact ⟨t :: left, right, by rw [same, List.cons_append], last⟩
      · obtain rfl := (List.mem_cons.1 mem).resolve_right later
        exact ⟨[], rest, rfl, later⟩

/-! ### One round -/

theorem lastIndex_skip {func : Nat → Bool} {tiles : List Nat} {j k : Nat} (le : j ≤ k)
    (others : ∀ i, j ≤ i → i < k → func (tiles.getD i 0) = false) :
    CardDealer.lastIndex func tiles k = CardDealer.lastIndex func tiles j := by
  induction k with
  | zero => rw [Nat.le_zero.1 le]
  | succ k ih =>
      by_cases same : j = k + 1
      · rw [same]
      · rw [CardDealer.lastIndex, others k (by omega) (Nat.lt_succ_self k)]
        exact ih (by omega) fun i low high => others i low (by omega)

theorem backIndexof_last {tile : Nat} (left : List Nat) {right : List Nat} (last : tile ∉ right)
    (tail : List Nat) :
    backIndexof (left ++ tile :: right ++ tail) (left.length + 1 + right.length) tile =
      some left.length := by
  unfold backIndexof
  rw [@lastIndex_skip _ _ (left.length + 1) _ (by omega)]
  · simp [CardDealer.lastIndex]
  · intro i low high
    obtain ⟨d, rfl⟩ : ∃ d, i = left.length + 1 + d := ⟨i - (left.length + 1), by omega⟩
    have inside : d < right.length := by omega
    have there : (left ++ tile :: right ++ tail).getD (left.length + 1 + d) 0 = right[d] := by
      rw [List.getD_eq_getElem?_getD, List.append_assoc, List.getElem?_append_right (by omega),
        show left.length + 1 + d - left.length = d + 1 by omega]
      rw [List.cons_append, List.getElem?_cons_succ, List.getElem?_append_left inside,
        List.getElem?_eq_getElem inside, Option.getD_some]
    rw [there, decide_eq_false_iff_not]
    intro same
    exact last (same ▸ List.getElem_mem inside)

theorem backIndexof_missing {tile : Nat} {tiles : List Nat} {k : Nat} (within : k ≤ tiles.length)
    (missing : tile ∉ tiles.take k) : backIndexof tiles k tile = none := by
  apply (CardDealer.lastIndex_eq_none within).2
  intro t mem
  rw [decide_eq_false_iff_not]
  rintro rfl
  exact missing mem

theorem swap_apart (left between right : List Nat) (x y : Nat) :
    swap (left ++ x :: between ++ y :: right) left.length (left.length + 1 + between.length) =
        left ++ y :: between ++ x :: right ∧
      swap (left ++ x :: between ++ y :: right) (left.length + 1 + between.length) left.length =
        left ++ y :: between ++ x :: right := by
  have second : left.length + 1 + between.length = (left ++ x :: between).length := by
    simp
    omega
  have at_x : (left ++ x :: between ++ y :: right).getD left.length 0 = x := by simp
  have at_y : (left ++ x :: between ++ y :: right).getD (left.length + 1 + between.length) 0 = y := by
    rw [second]
    simp
  constructor
  · rw [swap, at_x, at_y, List.append_assoc, List.set_append_right _ _ (Nat.le_refl _), Nat.sub_self,
      List.cons_append, List.set_cons_zero, List.set_append_right _ _ (by omega),
      show left.length + 1 + between.length - left.length = between.length + 1 by omega,
      List.set_cons_succ, List.set_append_right _ _ (Nat.le_refl _), Nat.sub_self, List.set_cons_zero]
    simp
  · rw [swap, at_x, at_y, List.append_assoc, List.set_append_right _ _ (by omega),
      show left.length + 1 + between.length - left.length = between.length + 1 by omega,
      List.cons_append, List.set_cons_succ, List.set_append_right _ _ (Nat.le_refl _), Nat.sub_self,
      List.set_cons_zero, List.set_append_right _ _ (Nat.le_refl _), Nat.sub_self, List.set_cons_zero]
    simp

section Round

variable {k tile next : Nat} {low done rest tail : List Nat}

/-- There is another tile of the kind from the place on: it comes to the place. -/
theorem place_behind (size : k = low.length + done.length + (rest.length + 1))
    (mem : tile ∈ next :: rest) :
    place k (low.length + done.length) tile (low ++ done ++ next :: rest ++ tail) =
      low ++ (done ++ [tile]) ++ fill tile (next :: rest) ++ tail := by
  by_cases later : tile ∈ rest
  · obtain ⟨left, right, rfl, last⟩ := exists_last later
    have found := backIndexof_last (low ++ done ++ next :: left) last tail
    have other := (swap_apart (low ++ done) left (right ++ tail) next tile).2
    rw [fill, setLast_split last]
    simp only [List.length_append, List.length_cons, List.append_assoc, List.cons_append] at found other size
    unfold place
    simp only [List.append_assoc, List.cons_append, List.nil_append]
    rw [size, show low.length + done.length + (left.length + (right.length + 1) + 1) =
      low.length + (done.length + (left.length + 1)) + 1 + right.length by omega, found]
    simp only []
    rw [if_pos (by omega), show low.length + (done.length + (left.length + 1)) =
      low.length + done.length + 1 + left.length by omega, other]
  · obtain rfl : tile = next := (List.mem_cons.1 mem).resolve_right later
    have found := backIndexof_last (low ++ done) later tail
    rw [fill, setLast_of_not_mem later]
    simp only [List.length_append, List.append_assoc] at found size
    unfold place
    simp only [List.append_assoc, List.cons_append, List.nil_append] at found ⊢
    rw [size, show low.length + done.length + (rest.length + 1) =
      low.length + done.length + 1 + rest.length by omega, found]
    simp only []
    rw [if_neg (not_not.2 rfl)]

/-- There is none from the place on, but one before it: the tile of the place goes there. -/
theorem place_before {left right : List Nat} (before : low ++ done = left ++ tile :: right)
    (last : tile ∉ right ++ next :: rest) (size : k = low.length + done.length + (rest.length + 1)) :
    place k (low.length + done.length) tile (low ++ done ++ next :: rest ++ tail) =
      left ++ next :: right ++ tile :: (rest ++ tail) := by
  have found := backIndexof_last left last tail
  have other := (swap_apart left right (rest ++ tail) tile next).1
  have length := congrArg List.length before
  simp only [List.length_append, List.length_cons] at length found
  rw [before]
  unfold place
  simp only [List.append_assoc, List.cons_append] at found other ⊢
  rw [size, length, show left.length + (right.length + 1) + (rest.length + 1) =
    left.length + 1 + (right.length + (rest.length + 1)) by omega, found]
  simp only []
  rw [if_pos (by omega), show left.length + (right.length + 1) = left.length + 1 + right.length by omega,
    other]

theorem place_nowhere (size : k = low.length + done.length + (rest.length + 1))
    (missing : tile ∉ low ++ done ++ next :: rest) (m : Nat) :
    place k m tile (low ++ done ++ next :: rest ++ tail) = low ++ done ++ next :: rest ++ tail := by
  have length : (low ++ done ++ next :: rest).length = k := by
    simp only [List.length_append, List.length_cons]
    omega
  have none : backIndexof (low ++ done ++ next :: rest ++ tail) k tile = none := by
    apply backIndexof_missing
    · rw [List.length_append]
      omega
    · rw [← length, List.take_left]
      exact missing
  unfold place
  rw [none]

end Round

/-! ### All rounds -/

theorem mem_setLast {tile other t : Nat} {tiles : List Nat} (mem : t ∈ setLast tile other tiles) :
    t = other ∨ t ∈ tiles := by
  by_cases there : tile ∈ tiles
  · obtain ⟨left, right, rfl, last⟩ := exists_last there
    rw [setLast_split last] at mem
    simp only [List.mem_append, List.mem_cons] at mem ⊢
    tauto
  · rw [setLast_of_not_mem there] at mem
    exact .inr mem

theorem fill_perm {tile : Nat} {tiles : List Nat} (mem : tile ∈ tiles) :
    (tile :: fill tile tiles).Perm tiles := by
  cases tiles with
  | nil => cases mem
  | cons next rest =>
      rw [fill]
      by_cases later : tile ∈ rest
      · obtain ⟨left, right, rfl, last⟩ := exists_last later
        rw [setLast_split last]
        apply (List.perm_middle.cons tile).trans
        apply (List.Perm.swap _ _ _).trans
        exact List.perm_middle.symm.cons next
      · rw [setLast_of_not_mem later, (List.mem_cons.1 mem).resolve_right later]

/-- A round moves the tile of the place at most to one that was placed before. -/
theorem place_moves {k tile next : Nat} {low done rest : List Nat} (tail : List Nat)
    (size : k = low.length + done.length + (rest.length + 1)) :
    ∃ low' done' behind', place k (low.length + done.length) tile (low ++ done ++ next :: rest ++ tail) =
        low' ++ done' ++ behind' ++ tail ∧ low'.length = low.length ∧ done'.length = done.length + 1 ∧
      behind'.length = rest.length ∧ (∀ t ∈ behind', t ∈ next :: rest) ∧
        ∀ p < done.length, done'[p]? = done[p]? ∨ done'[p]? = some next := by
  have kept : ∀ t : Nat, ∀ p < done.length, (done ++ [t])[p]? = done[p]? ∨ (done ++ [t])[p]? = some next :=
    fun t p within => .inl (List.getElem?_append_left within)
  by_cases later : tile ∈ next :: rest
  · refine ⟨low, done ++ [tile], fill tile (next :: rest), place_behind size later, rfl, by simp,
      length_setLast _ _ _, ?_, kept tile⟩
    intro t mem
    exact List.mem_cons.2 (mem_setLast mem)
  · by_cases placed : tile ∈ done
    · obtain ⟨left, right, rfl, last⟩ := exists_last placed
      have moved := @place_before k tile next low _ rest tail (low ++ left) right
        (by rw [List.append_assoc]) (by simp only [List.mem_append]; tauto) size
      refine ⟨low, left ++ next :: right ++ [tile], rest, ?_, rfl, by simp; omega, rfl,
        fun t mem => List.mem_cons_of_mem _ mem, ?_⟩
      · rw [moved]
        simp
      · intro p within
        rw [List.length_append, List.length_cons] at within
        rw [List.getElem?_append_left (by simp; omega)]
        by_cases here : p = left.length
        · right
          simp [here]
        · left
          by_cases before : p < left.length
          · rw [List.getElem?_append_left before, List.getElem?_append_left before]
          · obtain ⟨d, rfl⟩ : ∃ d, p = left.length + (d + 1) := ⟨p - left.length - 1, by omega⟩
            rw [List.getElem?_append_right (by omega), List.getElem?_append_right (by omega),
              Nat.add_sub_cancel_left, List.getElem?_cons_succ, List.getElem?_cons_succ]
    · by_cases before : tile ∈ low
      · obtain ⟨left, right, rfl, last⟩ := exists_last before
        have moved := @place_before k tile next _ done rest tail left (right ++ done)
          (by simp) (by simp only [List.mem_append]; tauto) size
        refine ⟨left ++ next :: right, done ++ [tile], rest, ?_, by simp, by simp, rfl,
          fun t mem => List.mem_cons_of_mem _ mem, kept tile⟩
        rw [moved]
        simp
      · refine ⟨low, done ++ [next], rest, ?_, rfl, by simp, rfl,
          fun t mem => List.mem_cons_of_mem _ mem, kept next⟩
        rw [place_nowhere size (by simp only [List.mem_append]; tauto)]
        simp

/-- A placed tile that has been moved away, with none of its kind behind, does not come back. -/
theorem lost_for_good {k wanted p : Nat} {low done behind tail list : List Nat}
    (size : k = low.length + done.length + behind.length) (room : list.length ≤ behind.length)
    (within : p < done.length) (lost : done[p]? ≠ some wanted) (missing : wanted ∉ behind) :
    (arrangeFrom k (low.length + done.length) list (low ++ done ++ behind ++ tail))[low.length + p]? ≠
      some wanted := by
  induction list generalizing low done behind with
  | nil =>
      rw [arrangeFrom, List.append_assoc, List.append_assoc, List.getElem?_append_right (by omega),
        Nat.add_sub_cancel_left, List.getElem?_append_left within]
      exact lost
  | cons tile list ih =>
      cases behind with
      | nil => cases room
      | cons next rest =>
          rw [List.length_cons, List.length_cons] at room
          rw [List.length_cons] at size
          obtain ⟨low', done', behind', moved, low_length, done_length, behind_length, fewer, kept⟩ :=
            @place_moves k tile next low done rest tail size
          have still_lost : done'[p]? ≠ some wanted := by
            rcases kept p within with same | same
            · rw [same]
              exact lost
            · rw [same]
              rintro ⟨⟩
              exact missing List.mem_cons_self
          have later := @ih low' done' behind' (by omega) (by omega) (by omega) still_lost
            fun mem => missing (fewer wanted mem)
          rw [low_length, done_length] at later
          rw [arrangeFrom, moved]
          exact later

/-- The tiles of the list stand where they should from place `low` on. -/
def Stands (tiles : List Nat) (low : Nat) (list : List Nat) : Prop :=
  ∀ i < list.length, tiles[low + i]? = list[i]?

theorem arrangeFrom_iff {k : Nat} {low done behind tail list : List Nat}
    (size : k = low.length + done.length + behind.length) (room : list.length ≤ behind.length)
    (inside : (list : Multiset Nat) ≤ (low : Multiset Nat) + behind) :
    Stands (arrangeFrom k (low.length + done.length) list (low ++ done ++ behind ++ tail)) low.length
      (done ++ list) ↔ Reserves done behind list := by
  induction list generalizing low done behind with
  | nil =>
      refine iff_of_true ?_ trivial
      intro i within
      rw [List.append_nil] at within ⊢
      rw [arrangeFrom, List.append_assoc, List.append_assoc, List.getElem?_append_right (by omega),
        Nat.add_sub_cancel_left, List.getElem?_append_left within]
  | cons tile list ih =>
      cases behind with
      | nil => cases room
      | cons next rest =>
          rw [List.length_cons, List.length_cons] at room
          rw [List.length_cons] at size
          rw [← Multiset.cons_coe] at inside
          have split_ : done ++ tile :: list = done ++ [tile] ++ list := by simp
          rw [arrangeFrom, Reserves]
          by_cases later : tile ∈ next :: rest
          · have perm := fill_perm later
            have fewer := perm.length_eq
            rw [List.length_cons, List.length_cons] at fewer
            rw [← Multiset.coe_eq_coe.2 perm, ← Multiset.cons_coe, Multiset.add_cons,
              Multiset.cons_le_cons_iff] at inside
            have round := @ih low (done ++ [tile]) (fill tile (next :: rest)) (by simp; omega) (by omega) inside
            rw [place_behind size later, and_iff_right fun _ => later, split_, ← round,
              List.length_append, List.length_singleton]
            rfl
          · by_cases placed : tile ∈ done
            · refine iff_of_false ?_ fun reserved => later (reserved.1 placed)
              intro stands
              obtain ⟨left, right, rfl, last⟩ := exists_last placed
              have moved := @place_before k tile next low _ rest tail (low ++ left) right
                (by rw [List.append_assoc]) (by simp only [List.mem_append]; tauto) size
              have lost := @lost_for_good k tile left.length low (left ++ next :: right ++ [tile]) rest tail
                list (by simp at size ⊢; omega) (by omega) (by simp)
                (by simp; rintro rfl; exact later List.mem_cons_self)
                (fun mem => later (List.mem_cons_of_mem _ mem))
              apply lost
              have there := stands left.length (by simp)
              have count : low.length + (left ++ tile :: right).length + 1 =
                  low.length + (left ++ next :: right ++ [tile]).length := by
                simp
                omega
              have whole : low ++ left ++ next :: right ++ tile :: (rest ++ tail) =
                  low ++ (left ++ next :: right ++ [tile]) ++ rest ++ tail := by
                simp
              rw [moved, count, whole] at there
              rw [there]
              simp
            · have before : tile ∈ low := by
                have mem := Multiset.mem_of_le inside (Multiset.mem_cons_self _ _)
                exact (Multiset.mem_add.1 mem).resolve_right later
              obtain ⟨left, right, rfl, last⟩ := exists_last before
              have moved := @place_before k tile next _ done rest tail left (right ++ done)
                (by simp) (by simp only [List.mem_append]; tauto) size
              have exchanged : ((left ++ tile :: right : List Nat) : Multiset Nat) + ↑(next :: rest) =
                  tile ::ₘ (((left ++ next :: right : List Nat) : Multiset Nat) + rest) := by
                simp only [Multiset.coe_add, Multiset.cons_coe, Multiset.coe_eq_coe, List.append_assoc,
                  List.cons_append]
                have first := @List.perm_middle _ tile left (right ++ next :: rest)
                have second := (@List.perm_middle _ next (left ++ right) rest).trans
                  (by rw [List.append_assoc]; exact List.perm_middle.symm :
                    (next :: (left ++ right ++ rest)).Perm (left ++ next :: (right ++ rest)))
                rw [List.append_assoc] at second
                exact first.trans (second.cons tile)
              rw [exchanged, Multiset.cons_le_cons_iff] at inside
              have round := @ih (left ++ next :: right) (done ++ [tile]) rest (by simp at size ⊢; omega)
                (by omega) inside
              rw [moved, and_iff_right fun there => absurd there placed, split_, fill,
                setLast_of_not_mem fun mem => later (List.mem_cons_of_mem _ mem), ← round]
              simp only [List.append_assoc, List.cons_append, List.nil_append, List.length_append,
                List.length_cons, List.length_nil]
              rfl

/-! ### The tiles stay the same -/

theorem take_swap {tiles : List Nat} {i j k : Nat} (hi : i < k) (hj : j < k) :
    (swap tiles i j).take k = swap (tiles.take k) i j := by
  have kept : ∀ n < k, (tiles.take k).getD n 0 = tiles.getD n 0 := by
    intro n low
    rw [List.getD_eq_getElem?_getD, List.getElem?_take_of_lt low, List.getD_eq_getElem?_getD]
  rw [swap, List.take_set, List.take_set, swap, kept i hi, kept j hj]

theorem place_perm {k m tile : Nat} {tiles : List Nat} (inside : m < k) (within : k ≤ tiles.length) :
    (place k m tile tiles).Perm tiles ∧ ((place k m tile tiles).take k).Perm (tiles.take k) := by
  unfold place
  cases found : backIndexof tiles k tile with
  | none => exact ⟨.refl _, .refl _⟩
  | some j =>
      have low := (CardDealer.lastIndex_eq_some found).1
      simp only []
      split
      · rw [take_swap low inside]
        refine ⟨swap_perm (by omega) (by omega), swap_perm ?_ ?_⟩
        · rw [List.length_take]
          omega
        · rw [List.length_take]
          omega
      · exact ⟨.refl _, .refl _⟩

theorem arrangeFrom_perm {k m : Nat} {list tiles : List Nat} (room : m + list.length ≤ k)
    (within : k ≤ tiles.length) : (arrangeFrom k m list tiles).Perm tiles ∧
      ((arrangeFrom k m list tiles).take k).Perm (tiles.take k) := by
  induction list generalizing m tiles with
  | nil => exact ⟨.refl _, .refl _⟩
  | cons tile list ih =>
      rw [List.length_cons] at room
      obtain ⟨all, undealt⟩ := @place_perm k m tile tiles (by omega) within
      obtain ⟨later, later_undealt⟩ := @ih (m + 1) (place k m tile tiles) (by omega)
        (by rw [length_place]; exact within)
      exact ⟨later.trans all, later_undealt.trans undealt⟩

/-! ### Where the list comes to stand -/

/-- The list comes to stand at its places if and only if no tile that it has placed is the last
undealt one of a kind that it places again. -/
theorem arranged_iff (p : Prearranged) : p.Arranged ↔ Reserves [] p.behind p.list := by
  have within := p.dealer.within
  have room : p.first + p.list.length ≤ p.dealer.remainCount := p.room
  obtain ⟨all, undealt⟩ := arrangeFrom_perm room within
  have low_length : (p.dealer.tiles.take p.first).length = p.first := by
    rw [List.length_take]
    omega
  have behind_length : p.behind.length = p.dealer.remainCount - p.first := by
    rw [Prearranged.behind, List.length_drop, List.length_take]
    omega
  have wall_split : p.dealer.tiles.take p.first ++ p.behind = p.dealer.tiles.take p.dealer.remainCount := by
    have parts := List.take_append_drop p.first (p.dealer.tiles.take p.dealer.remainCount)
    rwa [List.take_take, Nat.min_eq_left (by omega)] at parts
  have tiles_split : p.dealer.tiles.take p.first ++ [] ++ p.behind ++
      p.dealer.tiles.drop p.dealer.remainCount = p.dealer.tiles := by
    rw [List.append_nil, wall_split, List.take_append_drop]
  have inside : (p.list : Multiset Nat) ≤ (p.dealer.tiles.take p.first : List Nat) + (p.behind : List Nat) := by
    rw [Multiset.coe_add, wall_split]
    exact p.inside
  have placed := @arrangeFrom_iff p.dealer.remainCount (p.dealer.tiles.take p.first) [] p.behind
    (p.dealer.tiles.drop p.dealer.remainCount) p.list
    (by rw [low_length, behind_length, List.length_nil]; omega) (by omega) inside
  rw [tiles_split, low_length, List.length_nil, Nat.add_zero, List.nil_append] at placed
  rw [← placed]
  constructor
  · rintro ⟨_, _, stands⟩
    exact stands
  · intro stands
    exact ⟨all, Multiset.coe_eq_coe.2 undealt, stands⟩

/-- From the second place on of the tiles 1, 1 and 2, the list of both ones. -/
def twoOnes : Prearranged where
  dealer := ⟨[1, 1, 2], 3, by decide⟩
  list := [1, 1]
  begin_ := some 2
  positive := by decide
  room := by decide
  inside := by decide

/-- The second one takes away the first. -/
theorem placed_tile_taken_away : ¬ twoOnes.Arranged := by
  rintro ⟨_, _, stands⟩
  have first := stands 0 (by decide)
  revert first
  decide

end FkServer.MaajanTileDealer
