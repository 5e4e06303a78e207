import Mathlib.Algebra.Group.Nat.Even
import Mathlib.Algebra.Order.Group.Multiset
import Mathlib.Data.List.Induction
import FkServer.Library.UndoSearch
import FkServer.ChangpaiZigong.WinningJudges

/-!
`is_hu` and `ting` of `base/rule` on the counter table they share. A branch of `is_hu`
that fails puts its two cards back, one that succeeds does not, and `ting` goes on with
what is left. Whether a hand pairs off depends on how many cards there are of each point
value only; sevens need no partner of another value, and a search may even pair a seven
with itself.
-/
namespace FkServer.ChangpaiZigong.Rule
open UndoSearch (Move Answers firstOf firstOf_answers)

variable {counts : Counts} {fuel : Nat}

/-- The branch of `is_hu` that takes `firstTile` together with `tile`. -/
def pairMove (firstTile tile : Nat) : Move Counts where
  allowed counts := decide (Pairs counts firstTile tile)
  take counts := decr (decr counts firstTile 1) tile 1
  undo counts := incr (incr counts firstTile 1) tile 1

/-- `local function is_hu`: the answer and the table it leaves, `none` without fuel. -/
def isHuShared : Nat → Counts → Option (Bool × Counts)
  | 0, _ => none
  | fuel + 1, counts =>
      match counts2Tiles counts with
      | [] => some (true, counts)
      | firstTile :: _ =>
          firstOf (isHuShared fuel) ((List.range' 1 50).map (pairMove firstTile)) counts

/-- The outer loop of `local function ting`; `order` is the order in which `pairs` visits
`all_tiles`. -/
def tingLoop (order : List Nat) :
    List Nat → Counts → List Nat → Option (List Nat × Counts)
  | [], counts, feedTiles => some (feedTiles, counts)
  | k :: rest, counts, feedTiles =>
      if tileValue k ≠ 7 then
        match isHuShared ((counts2Tiles (incr counts k 1)).length + 1) (incr counts k 1) with
        | none => none
        | some (found, left) =>
            tingLoop order rest (decr left k 1)
              (if found then
                feedTiles ++ order.filter fun key => tileValue key = tileValue k
              else feedTiles)
      else tingLoop order rest counts feedTiles

/-- `local function ting`: the `feed_tiles` it collects and the table it leaves. -/
def ting (order : List Nat) (counts : Counts) : Option (List Nat × Counts) :=
  tingLoop order order counts []

/-- A table of cards of the deck. -/
structure CardCounts (counts : Counts) : Prop where
  nonneg : ∀ t, 0 ≤ counts t
  cards : ∀ t, 0 < counts t → Card t

/-- The cards fall into pairs whose point values add up to 14. -/
def PairsOff (hand : Multiset Nat) : Prop :=
  ∃ pairs : Multiset (Nat × Nat),
    (∀ p ∈ pairs, tileValue p.1 + tileValue p.2 = 14) ∧
      pairs.map Prod.fst + pairs.map Prod.snd = hand

/-- As many cards of each value as of the complementary one. -/
def Balanced (values : List Nat) : Prop :=
  ∀ v w, v + w = 14 → v ≠ w → values.count v = values.count w

/-- The point values of the cards of a table. -/
def values (counts : Counts) : List Nat := (counts2Tiles counts).map tileValue

section Balance
variable {l l' : List Nat} {v w : Nat}

theorem Balanced.perm (h : Balanced l) (same : l.Perm l') : Balanced l' := by
  intro v w sum differ
  rw [← same.count_eq, ← same.count_eq]
  exact h v w sum differ

theorem balanced_perm (same : l.Perm l') : Balanced l ↔ Balanced l' :=
  ⟨fun h => h.perm same, fun h => h.perm same.symm⟩

theorem balanced_seven : Balanced (7 :: l) ↔ Balanced l := by
  apply forall_congr'
  intro v
  apply forall_congr'
  intro w
  refine imp_congr_right fun sum => imp_congr_right fun differ => ?_
  have hv : (7 : Nat) ≠ v := by omega
  have hw : (7 : Nat) ≠ w := by omega
  rw [List.count_cons_of_ne hv, List.count_cons_of_ne hw]

theorem balanced_pair (complement : v + w = 14) : Balanced (v :: w :: l) ↔ Balanced l := by
  apply forall_congr'
  intro x
  apply forall_congr'
  intro y
  refine imp_congr_right fun sum => imp_congr_right fun differ => ?_
  simp only [List.count_cons, beq_iff_eq]
  -- `v` is the one of the two values exactly when `w` is the other
  have first : v = x ↔ w = y := by omega
  have second : w = x ↔ v = y := by omega
  simp only [first, second]
  omega

/-- Of two values other than 7 only one completes the same cards. -/
theorem Balanced.unique (hv : Balanced (v :: l)) (hw : Balanced (w :: l)) (odd : v ≠ 7)
    (low : v ≤ 14) : v = w := by
  by_contra differ
  have one := hv v (14 - v) (by omega) (by omega)
  have other := hw v (14 - v) (by omega) (by omega)
  simp only [List.count_cons, beq_iff_eq, if_true] at one other
  rw [if_neg (by omega)] at one
  rw [if_neg (Ne.symm differ)] at other
  omega

theorem Balanced.partner (h : Balanced l) (mem : v ∈ l) (odd : v ≠ 7) (low : v ≤ 14) :
    14 - v ∈ l := by
  have here : 0 < l.count v := List.count_pos_iff.2 mem
  rw [h v (14 - v) (by omega) (by omega)] at here
  exact List.count_pos_iff.1 here

end Balance

theorem tileValue_le (tile : Nat) : tileValue tile ≤ 12 := by
  have table : ∀ info ∈ allTiles, info.value ≤ 12 := by decide
  rw [tileValue, tileInfo]
  split
  · exact Nat.zero_le 12
  · cases h : allTiles[tile - 1]? with
    | none => exact Nat.zero_le 12
    | some info => exact table info (List.mem_of_getElem? h)

section PairsOff
variable {hand : List Nat}

theorem PairsOff.add {a b : Multiset Nat} : PairsOff a → PairsOff b → PairsOff (a + b) := by
  rintro ⟨ps, good, rfl⟩ ⟨qs, good', rfl⟩
  refine ⟨ps + qs, fun p mem => ?_, ?_⟩
  · exact (Multiset.mem_add.1 mem).elim (good p) (good' p)
  · rw [Multiset.map_add, Multiset.map_add, add_add_add_comm]

theorem PairsOff.pair {a b : Nat} (sum : tileValue a + tileValue b = 14) :
    PairsOff {a, b} :=
  ⟨{(a, b)}, by simpa using sum, rfl⟩

/-- An even number of sevens pairs off. -/
theorem pairsOff_sevens {sevens : List Nat} (all : ∀ t ∈ sevens, tileValue t = 7)
    (even : Even sevens.length) : PairsOff sevens := by
  induction sevens using List.twoStepInduction with
  | nil => exact ⟨0, by simp, rfl⟩
  | singleton a => simp at even
  | cons_cons a b rest ih _ =>
      have sum : tileValue a + tileValue b = 14 := by
        rw [all a (by simp), all b (by simp)]
      have rest_even : Even rest.length := by
        rw [List.length_cons, List.length_cons] at even
        obtain ⟨n, double⟩ := even
        exact ⟨n - 1, by omega⟩
      have tail := ih (fun t mem => all t (by simp [mem])) rest_even
      exact (PairsOff.pair sum).add tail

/-- A balanced hand pairs off but for some of its sevens. -/
theorem Balanced.pairs_and_sevens (h : Balanced (hand.map tileValue)) :
    ∃ paired sevens : List Nat, PairsOff paired ∧ (∀ t ∈ sevens, tileValue t = 7) ∧
      hand.Perm (paired ++ sevens) := by
  induction hl : hand.length using Nat.strong_induction_on generalizing hand with
  | _ n ih =>
      cases hand with
      | nil => exact ⟨[], [], ⟨0, by simp, rfl⟩, by simp, .refl []⟩
      | cons a rest =>
          rw [List.length_cons] at hl
          by_cases seven : tileValue a = 7
          · rw [List.map_cons, seven, balanced_seven] at h
            obtain ⟨paired, sevens, off, all, perm⟩ := ih rest.length (by omega) h rfl
            refine ⟨paired, a :: sevens, off, ?_, ?_⟩
            · simpa [seven] using all
            · exact (perm.cons a).trans List.perm_middle.symm
          · have low := tileValue_le a
            have partner := h.partner (v := tileValue a) (by simp) seven (by omega)
            obtain ⟨b, mem, complement⟩ := List.mem_map.1 partner
            have there : b ∈ rest := by
              refine (List.mem_cons.1 mem).resolve_left fun same => ?_
              subst same
              omega
            have sum : tileValue a + tileValue b = 14 := by omega
            have split : rest.Perm (b :: rest.erase b) := List.perm_cons_erase there
            have shorter : (rest.erase b).length < rest.length :=
              List.length_erase_of_mem there ▸ Nat.sub_lt (List.length_pos_of_mem there) Nat.one_pos
            have balanced : Balanced ((rest.erase b).map tileValue) := by
              have here := h.perm ((split.cons a).map tileValue)
              rwa [List.map_cons, List.map_cons, balanced_pair sum] at here
            obtain ⟨paired, sevens, off, all, perm⟩ :=
              ih (rest.erase b).length (by omega) balanced rfl
            refine ⟨a :: b :: paired, sevens, (PairsOff.pair sum).add off, all, ?_⟩
            exact (split.cons a).trans ((perm.cons b).cons a)

theorem PairsOff.balanced {hand : Multiset Nat} :
    PairsOff hand → Even hand.card ∧ ∀ v w, v + w = 14 → v ≠ w →
      (hand.map tileValue).count v = (hand.map tileValue).count w := by
  rintro ⟨pairs, good, rfl⟩
  induction pairs using Multiset.induction with
  | empty => simp
  | cons p pairs ih =>
      have sum := good p (Multiset.mem_cons_self p pairs)
      obtain ⟨even, same⟩ := ih fun q mem => good q (Multiset.mem_cons_of_mem mem)
      rw [Multiset.map_cons, Multiset.map_cons, Multiset.cons_add, Multiset.add_cons]
      refine ⟨?_, fun v w complement differ => ?_⟩
      · obtain ⟨n, double⟩ := even
        rw [Multiset.card_cons, Multiset.card_cons]
        exact ⟨n + 1, by omega⟩
      · rw [Multiset.map_cons, Multiset.map_cons]
        simp only [Multiset.count_cons]
        rw [same v w complement differ]
        have first : v = tileValue p.1 ↔ w = tileValue p.2 := by omega
        have second : v = tileValue p.2 ↔ w = tileValue p.1 := by omega
        simp only [first, second]
        omega

/-- A hand pairs off exactly when it is balanced and the number of its cards is even. -/
theorem pairsOff_iff :
    PairsOff hand ↔ Balanced (hand.map tileValue) ∧ Even hand.length := by
  constructor
  · intro off
    have same := off.balanced.2
    simp only [Multiset.map_coe, Multiset.coe_count] at same
    exact ⟨same, off.balanced.1⟩
  · intro ⟨balanced, even⟩
    obtain ⟨paired, sevens, off, all, perm⟩ := balanced.pairs_and_sevens
    have sevens_even : Even sevens.length := by
      have total := perm.length_eq
      have paired_even : Even paired.length := off.balanced.1
      rw [total, List.length_append] at even
      exact (Nat.even_add.1 even).1 paired_even
    rw [show (hand : Multiset Nat) = (paired : Multiset Nat) + sevens from
      Multiset.coe_eq_coe.2 perm]
    exact off.add (pairsOff_sevens all sevens_even)

end PairsOff

section Search
variable {first tile : Nat} {debt : Counts}

/-- The table a successful search leaves: no card is held, and a card other than a seven
is owed as before. -/
structure Consumed (debt left : Counts) : Prop where
  used : ∀ t, left t ≤ 0
  owed : ∀ t, tileValue t ≠ 7 → left t = debt t

theorem values_decr {t : Nat} (card : Card t) (held : 0 < counts t) :
    (values counts).Perm (tileValue t :: values (decr counts t 1)) :=
  (counts2Tiles_decr card.inside held).map tileValue

theorem pairMove_reversible : (pairMove first tile).Reversible counts := by
  funext t
  simp only [pairMove, incr_apply, decr_apply]
  omega

/-- The cards a branch takes: two, or one seven that is its own partner. -/
theorem values_take (card : Card first) (pair : Pairs counts first tile) :
    (values counts).Perm
        (tileValue first :: tileValue tile :: values (decr (decr counts first 1) tile 1)) ∨
      (tileValue first = 7 ∧
        (values counts).Perm (7 :: values (decr (decr counts first 1) tile 1))) := by
  obtain ⟨card', held, held', sum⟩ := pair
  have once := values_decr card held
  by_cases more : 0 < decr counts first 1 tile
  · exact .inl (once.trans ((values_decr card' more).cons _))
  · have same : tile = first := by
      by_contra differ
      rw [decr_apply, if_neg differ] at more
      omega
    subst same
    have seven : tileValue tile = 7 := by omega
    have none := (counts2Tiles_decr_of_not_pos (Int.not_lt.1 more)).map tileValue
    rw [seven] at once
    exact .inr ⟨seven, once.trans (none.symm.cons _)⟩

theorem balanced_take (card : Card first) (pair : Pairs counts first tile) :
    Balanced (values (decr (decr counts first 1) tile 1)) ↔ Balanced (values counts) := by
  rcases values_take card pair with two | ⟨_, one⟩
  · rw [balanced_perm two, balanced_pair pair.2.2.2]
  · rw [balanced_perm one, balanced_seven]

theorem length_take (card : Card first) (pair : Pairs counts first tile) :
    (counts2Tiles (decr (decr counts first 1) tile 1)).length < (counts2Tiles counts).length := by
  rcases values_take card pair with two | ⟨_, one⟩
  · have := two.length_eq
    simp only [values, List.length_cons, List.length_map] at this
    omega
  · have := one.length_eq
    simp only [values, List.length_cons, List.length_map] at this
    omega

theorem owed_take (pair : Pairs counts first tile) {t : Nat} (odd : tileValue t ≠ 7) :
    min (decr (decr counts first 1) tile 1 t) 0 = min (counts t) 0 := by
  obtain ⟨_, held, held', sum⟩ := pair
  simp only [decr_apply]
  by_cases h : t = first
  · subst h
    have differ : t ≠ tile := by
      rintro rfl
      omega
    simp only [if_true, if_neg differ]
    omega
  · by_cases h' : t = tile
    · subst h'
      simp only [if_true, if_neg h]
      omega
    · simp [h, h']

/-- In a balanced hand the first card has a partner. -/
theorem exists_pair (cards : ∀ t, 0 < counts t → Card t) (card : Card first)
    (held : 0 < counts first) (balanced : Balanced (values counts)) :
    ∃ tile, Pairs counts first tile := by
  by_cases seven : tileValue first = 7
  · exact ⟨first, card, held, held, by omega⟩
  · have mem : first ∈ counts2Tiles counts := mem_counts2Tiles.2 ⟨card.inside, held⟩
    have low := tileValue_le first
    have partner := balanced.partner (List.mem_map_of_mem mem) seven (by omega)
    obtain ⟨tile, there, complement⟩ := List.mem_map.1 partner
    have held' := (mem_counts2Tiles.1 there).2
    exact ⟨tile, cards tile held', held, held', by omega⟩

/-- `is_hu` returns with enough fuel: true exactly on a balanced hand, and otherwise with
the counts it was given. -/
theorem isHuShared_answers (debt : Counts) (cards : ∀ t, 0 < counts t → Card t)
    (owed : ∀ t, tileValue t ≠ 7 → min (counts t) 0 = debt t)
    (enough : (counts2Tiles counts).length < fuel) :
    Answers counts (Balanced (values counts)) (Consumed debt) (isHuShared fuel counts) := by
  induction fuel generalizing counts with
  | zero => omega
  | succ fuel ih =>
      rw [isHuShared]
      cases hl : counts2Tiles counts with
      | nil =>
          have used : ∀ t, counts t ≤ 0 := by
            intro t
            by_contra held
            have held : 0 < counts t := by omega
            have : t ∈ counts2Tiles counts := mem_counts2Tiles.2 ⟨(cards t held).inside, held⟩
            simp [hl] at this
          refine .found ?_ ⟨used, fun t odd => ?_⟩
          · simp [values, hl, Balanced]
          · rw [← owed t odd, min_eq_left (used t)]
      | cons first rest =>
          have mem : first ∈ counts2Tiles counts := by simp [hl]
          obtain ⟨_, held⟩ := mem_counts2Tiles.1 mem
          have card := cards first held
          have branches : Answers counts
              (∃ m ∈ (List.range' 1 50).map (pairMove first), m.allowed counts = true ∧
                Balanced (values (m.take counts))) (Consumed debt)
              (firstOf (isHuShared fuel) ((List.range' 1 50).map (pairMove first)) counts) := by
            apply firstOf_answers
            intro m hm allowed
            obtain ⟨tile, _, rfl⟩ := List.mem_map.1 hm
            have pair : Pairs counts first tile := of_decide_eq_true allowed
            refine ⟨pairMove_reversible, ih ?_ ?_ ?_⟩
            · exact cards_decr cards first tile
            · intro t odd
              exact (owed_take pair odd).trans (owed t odd)
            · have := length_take card pair
              exact Nat.lt_of_lt_of_le this (Nat.le_of_lt_succ enough)
          refine branches.congr ⟨?_, fun balanced => ?_⟩
          · rintro ⟨m, hm, allowed, balanced⟩
            obtain ⟨tile, _, rfl⟩ := List.mem_map.1 hm
            exact (balanced_take card (of_decide_eq_true allowed)).1 balanced
          · obtain ⟨tile, pair⟩ := exists_pair cards card held balanced
            exact ⟨pairMove first tile, List.mem_map_of_mem pair.1.mem_range,
              decide_eq_true pair, (balanced_take card pair).2 balanced⟩

end Search

section Ting
variable {order rest feedTiles : List Nat} {k : Nat}

theorem decr_incr (counts : Counts) (t : Nat) : decr (incr counts t 1) t 1 = counts := by
  funext x
  simp only [decr_apply, incr_apply]
  omega

/-- A table on which nothing is held any more. -/
structure Spent (counts : Counts) (rest : List Nat) : Prop where
  used : ∀ t, counts t ≤ 0
  clear : ∀ k ∈ rest, Card k ∧ (tileValue k ≠ 7 → counts k = 0)

/-- After the counts are spent, `is_hu` fails for every further card. -/
theorem Spent.fails (spent : Spent counts (k :: rest)) (odd : tileValue k ≠ 7) :
    isHuShared ((counts2Tiles (incr counts k 1)).length + 1) (incr counts k 1) =
      some (false, incr counts k 1) := by
  obtain ⟨card, none⟩ := spent.clear k (by simp)
  have cards : ∀ t, 0 < incr counts k 1 t → Card t := by
    intro t held
    by_cases h : t = k
    · exact h ▸ card
    · rw [incr_apply, if_neg h, add_zero] at held
      exact absurd held (Int.not_lt.2 (spent.used t))
  have empty : counts2Tiles counts = [] := by
    refine List.eq_nil_iff_forall_not_mem.2 fun t mem => ?_
    have held := (mem_counts2Tiles.1 mem).2
    exact absurd held (Int.not_lt.2 (spent.used t))
  have one : (values (incr counts k 1)).Perm [tileValue k] := by
    have perm := (counts2Tiles_incr card.inside (none odd).ge).map tileValue
    rwa [empty] at perm
  have answers := isHuShared_answers (fun t => min (incr counts k 1 t) 0) cards
    (fun _ _ => rfl) (Nat.lt_succ_self _)
  generalize hr : isHuShared _ (incr counts k 1) = result at answers
  cases answers with
  | failed _ => rfl
  | found balanced _ =>
      have low := tileValue_le k
      have partner := (balanced.perm one).partner (v := tileValue k) (by simp) odd (by omega)
      rw [List.mem_singleton] at partner
      omega

theorem tingLoop_spent (order feedTiles : List Nat) (spent : Spent counts rest) :
    ∃ left, tingLoop order rest counts feedTiles = some (feedTiles, left) := by
  induction rest with
  | nil => exact ⟨counts, rfl⟩
  | cons k rest ih =>
      have later : Spent counts rest :=
        ⟨spent.used, fun t mem => spent.clear t (List.mem_cons_of_mem k mem)⟩
      rw [tingLoop]
      split
      · rename_i odd
        rw [spent.fails odd]
        simp only [decr_incr]
        exact ih later
      · exact ih later

/-- The cards of a table with one card more. -/
theorem CardCounts.incr (hand : CardCounts counts) (card : Card k) :
    CardCounts (incr counts k 1) where
  nonneg t := by
    have := hand.nonneg t
    rw [incr_apply]
    split <;> omega
  cards t held := by
    by_cases h : t = k
    · exact h ▸ card
    · rw [incr_apply, if_neg h, add_zero] at held
      exact hand.cards t held

/-- While nothing is found the loop has its first table; the first card that completes
the hand brings in all of its value, and after it nothing is found. -/
theorem tingLoop_eq (order : List Nat) (hand : CardCounts counts) (cards : ∀ k ∈ rest, Card k)
    (distinct : rest.Nodup) :
    ∃ found left, tingLoop order rest counts [] = some (found, left) ∧
      ((∃ k ∈ rest, tileValue k ≠ 7 ∧ Balanced (values (incr counts k 1)) ∧
          found = order.filter fun key => tileValue key = tileValue k) ∨
        ((∀ k ∈ rest, tileValue k ≠ 7 → ¬Balanced (values (incr counts k 1))) ∧ found = [])) := by
  induction rest with
  | nil => exact ⟨[], counts, rfl, .inr ⟨by simp, rfl⟩⟩
  | cons k rest ih =>
      obtain ⟨fresh, distinct⟩ := List.nodup_cons.1 distinct
      obtain ⟨found, left, later, result⟩ :=
        ih (fun t mem => cards t (List.mem_cons_of_mem k mem)) distinct
      rw [tingLoop]
      by_cases odd : tileValue k ≠ 7
      · have held := hand.incr (cards k (by simp))
        have answers := isHuShared_answers (fun _ => 0) held.cards
          (fun t _ => min_eq_right (held.nonneg t)) (Nat.lt_succ_self _)
        rw [if_pos odd]
        generalize hr : isHuShared _ (FkServer.incr counts k 1) = answer at answers
        cases answers with
        | failed fails =>
            simp only [decr_incr]
            refine ⟨found, left, later, ?_⟩
            rcases result with ⟨k', mem, completes⟩ | ⟨none, empty⟩
            · exact .inl ⟨k', List.mem_cons_of_mem k mem, completes⟩
            · refine .inr ⟨fun k' mem odd' => ?_, empty⟩
              rcases List.mem_cons.1 mem with rfl | mem
              · exact fails
              · exact none k' mem odd'
        | @found table balanced consumed =>
            have spent : Spent (decr table k 1) rest := by
              refine ⟨fun t => ?_, fun t mem => ?_⟩
              · have := consumed.used t
                rw [decr_apply]
                split <;> omega
              · have card := cards t (List.mem_cons_of_mem k mem)
                have differ : t ≠ k := fun same => fresh (same ▸ mem)
                refine ⟨card, fun odd' => ?_⟩
                rw [decr_apply, if_neg differ, consumed.owed t odd', sub_zero]
            obtain ⟨last, rest_eq⟩ := tingLoop_spent order
              (order.filter fun key => tileValue key = tileValue k) spent
            exact ⟨_, last, rest_eq, .inl ⟨k, by simp, odd, balanced, rfl⟩⟩
      · rw [if_neg odd]
        refine ⟨found, left, later, ?_⟩
        rcases result with ⟨k', mem, completes⟩ | ⟨none, empty⟩
        · exact .inl ⟨k', List.mem_cons_of_mem k mem, completes⟩
        · refine .inr ⟨fun k' mem odd' => ?_, empty⟩
          rcases List.mem_cons.1 mem with rfl | mem
          · exact (odd odd').elim
          · exact none k' mem odd'

/-- A card completes a hand of an odd number of cards to pairs when it makes it balanced. -/
theorem pairsOff_incr (hand : CardCounts counts) (card : Card k)
    (odd : Odd (counts2Tiles counts).length) :
    Balanced (values (incr counts k 1)) ↔ PairsOff (k ::ₘ ↑(counts2Tiles counts)) := by
  have perm := counts2Tiles_incr card.inside (hand.nonneg k)
  have even : Even (k :: counts2Tiles counts).length := by
    rw [List.length_cons]
    exact odd.add_one
  rw [Multiset.cons_coe, pairsOff_iff, values, balanced_perm (perm.map tileValue)]
  exact (and_iff_left even).symm

/-- `is_hu` tells whether an even hand falls into pairs, and `ting` collects the cards
that complete an odd one, in whatever order `pairs` visits the cards. -/
theorem is_hu_and_ting_exact (hand : CardCounts counts) :
    (Even (counts2Tiles counts).length →
      ∃ answer left, isHuShared ((counts2Tiles counts).length + 1) counts = some (answer, left) ∧
        (answer = true ↔ PairsOff (counts2Tiles counts))) ∧
    (Odd (counts2Tiles counts).length →
      ∀ order : List Nat, order.Perm (List.range' 1 21) →
        ∃ feedTiles left, ting order counts = some (feedTiles, left) ∧ feedTiles.Nodup ∧
          ∀ t, t ∈ feedTiles ↔
            Card t ∧ tileValue t ≠ 7 ∧ PairsOff (t ::ₘ ↑(counts2Tiles counts))) := by
  constructor
  · intro even
    have answers := isHuShared_answers (fun _ => 0) hand.cards
      (fun t _ => min_eq_right (hand.nonneg t)) (Nat.lt_succ_self _)
    obtain ⟨answer, left, returned, exact_⟩ := answers.returns
    refine ⟨answer, left, returned, exact_.trans ?_⟩
    rw [pairsOff_iff]
    exact (and_iff_left even).symm
  · intro odd order visits
    have all : ∀ t, t ∈ order ↔ Card t := by
      intro t
      rw [visits.mem_iff, List.mem_range'_1, Card]
      omega
    have distinct : order.Nodup := visits.nodup_iff.2 List.nodup_range'
    obtain ⟨found, left, returned, result⟩ :=
      tingLoop_eq order hand (fun k mem => (all k).1 mem) distinct
    refine ⟨found, left, returned, ?_⟩
    rcases result with ⟨k, mem, seven, completes, rfl⟩ | ⟨none, rfl⟩
    · refine ⟨distinct.filter _, fun t => ?_⟩
      have completed := (counts2Tiles_incr ((all k).1 mem).inside (hand.nonneg k)).map tileValue
      rw [List.mem_filter, decide_eq_true_eq, all]
      refine and_congr_right fun card => ?_
      rw [← pairsOff_incr hand card odd]
      have here := (counts2Tiles_incr card.inside (hand.nonneg t)).map tileValue
      constructor
      · intro same
        refine ⟨same ▸ seven, (completes.perm completed).perm ?_⟩
        rw [List.map_cons, ← same]
        exact here.symm
      · rintro ⟨seven', balanced⟩
        have low := tileValue_le t
        exact (balanced.perm here).unique (completes.perm completed) seven' (by omega)
    · refine ⟨.nil, fun t => ?_⟩
      simp only [List.not_mem_nil, false_iff]
      rintro ⟨card, seven, off⟩
      exact none t ((all t).2 card) seven ((pairsOff_incr hand card odd).2 off)

theorem CardCounts.ofList {cards : List Nat} (known : ∀ t ∈ cards, Card t) :
    CardCounts fun t => (cards.count t : Int) where
  nonneg _ := Int.natCast_nonneg _
  cards t held := known t (List.count_pos_iff.1 (Int.natCast_pos.1 held))

/-- Six pairs and a card of value 4, which the cards of value 10 complete. -/
def thirteenCards : List Nat := [1, 2, 3, 4, 5, 7, 10, 11, 13, 16, 18, 20, 21]

theorem thirteen_cards_ready :
    (∃ left, isHuShared 15 (fun t => (19 :: thirteenCards).count t) = some (true, left)) ∧
    ∃ feedTiles left,
      ting (List.range' 1 21) (fun t => thirteenCards.count t) = some (feedTiles, left) ∧
        19 ∈ feedTiles := by
  have pairs : PairsOff (19 ::ₘ (thirteenCards : Multiset Nat)) :=
    ⟨{(1, 21), (2, 20), (3, 18), (4, 19), (5, 16), (7, 13), (10, 11)}, by decide, by decide⟩
  have won : counts2Tiles (fun t => ((19 :: thirteenCards).count t : Int)) =
      thirteenCards.take 11 ++ 19 :: thirteenCards.drop 11 := by decide +kernel
  have held : counts2Tiles (fun t => (thirteenCards.count t : Int)) = thirteenCards := by
    decide +kernel
  have hu := (is_hu_and_ting_exact (.ofList (show ∀ t ∈ 19 :: thirteenCards, Card t by decide))).1
  have ready := (is_hu_and_ting_exact (.ofList (show ∀ t ∈ thirteenCards, Card t by decide))).2
  rw [won] at hu
  rw [held] at ready
  obtain ⟨answer, left, returned, right⟩ := hu (by decide)
  obtain ⟨feedTiles, left', listed, -, complete⟩ := ready (by decide) _ (.refl _)
  have perm : (thirteenCards.take 11 ++ 19 :: thirteenCards.drop 11).Perm (19 :: thirteenCards) := by
    decide
  rw [Multiset.coe_eq_coe.2 perm] at right
  exact ⟨⟨left, (right.2 pairs) ▸ returned⟩, feedTiles, left', listed,
    (complete 19).2 ⟨by decide, by decide, pairs⟩⟩

end Ting

end FkServer.ChangpaiZigong.Rule
