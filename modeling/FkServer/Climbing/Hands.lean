import FkServer.Climbing.Seek
import Mathlib.Algebra.GroupWithZero.Nat

/-!
Hands of a deck, what the searches of `land` and of `pdk` pick of them, and when a discard is
above the last one.
-/
namespace FkServer.Climbing

/-! ### Hands of a deck -/

/-- Different cards of a deck. -/
structure Hand (deck : List Int) where
  cards : Finset Int
  dealt : ∀ card ∈ cards, card ∈ deck

section Hands

variable {deck : List Int}

/-- The cards of a value. -/
def Hand.count (hand : Hand deck) (v : Int) : Nat := (hand.cards.filter fun card => value card = v).card

/-- How many values up to the two have so many cards. -/
def Hand.valuesWith (hand : Hand deck) (k : Nat) : Nat :=
  ((run 3 13).filter fun v => hand.count v = k).length

/-- How many values at all have so many cards. -/
def Hand.allWith (hand : Hand deck) (k : Nat) : Nat :=
  ((hand.cards.image value).filter fun v => hand.count v = k).card

/-- Different cards of the hand. -/
structure Taken (hand : Hand deck) (list : List Int) : Prop where
  distinct : list.Nodup
  held : ∀ card ∈ list, card ∈ hand.cards

/-- A run above the last discard with so many cards of each value. -/
def RunAbove {Kind : Type} (hand : Hand deck) (last : Played Kind) (copies n : Nat) (b : Int) : Prop :=
  (last.value < b ∧ b + n ≤ 15) ∧ ∀ u ∈ run b n, copies ≤ hand.count u ∧ hand.count u ≤ 3

theorem Taken.perm {hand : Hand deck} {list list' : List Int} (taken : Taken hand list)
    (same : list'.Perm list) : Taken hand list' :=
  ⟨same.nodup_iff.2 taken.distinct, fun card mem => taken.held card (same.subset mem)⟩

/-- A hand has no more cards of a value than the deck. -/
theorem Hand.count_deck (hand : Hand deck) (v : Int) : hand.count v ≤ (deck.map value).count v := by
  have inside : (hand.cards.filter fun card => value card = v) ⊆
      (deck.filter fun card => value card = v).toFinset := by
    intro card mem
    obtain ⟨held, times⟩ := Finset.mem_filter.1 mem
    rw [List.mem_toFinset, List.mem_filter, decide_eq_true_eq]
    exact ⟨hand.dealt card held, times⟩
  apply ((Finset.card_le_card inside).trans (List.toFinset_card_le _)).trans
  rw [List.count, List.countP_map, List.countP_eq_length_filter]
  exact Nat.le_of_eq (congrArg List.length (List.filter_congr fun card _ => rfl))

theorem Hand.count_le (hand : Hand deck) {n : Nat}
    (most : ∀ v ∈ deck.map value, (deck.map value).count v ≤ n) (v : Int) : hand.count v ≤ n := by
  apply (hand.count_deck v).trans
  by_cases known : v ∈ deck.map value
  · exact most v known
  · rw [List.count_eq_zero.2 known]
    exact Nat.zero_le n

/-- The values of a hand are those of the deck. -/
theorem Hand.value_mem (hand : Hand deck) {v : Int} (some_card : 0 < hand.count v) :
    v ∈ deck.map value := by
  obtain ⟨card, mem⟩ := Finset.card_pos.1 some_card
  obtain ⟨held, rfl⟩ := Finset.mem_filter.1 mem
  exact List.mem_map_of_mem (hand.dealt card held)

end Hands

/-! ### Picks of a hand -/

section HandPicks

variable (pairs : List Int → List Int) (hand : Finset Int) (lua : LuaSort)

def pick (count : Nat) (val : Int) : List Int := pickExactly pairs hand count val []

/-- Three or four equal cards with the smallest kickers, or alone if there are none. -/
def pickWith (copies others : Nat) (val : Int) : List Int :=
  pick pairs hand copies val ++
    (searchMinCombination pairs hand lua others (valueCards pairs hand val)).getD []

/-- So many cards of each value of a run. -/
def pickLine (copies : Nat) (val : Int) (len : Nat) : List Int :=
  (run val len).flatMap (pick pairs hand copies)

variable {deck : List Int} {hand : Hand deck} {pairs lua} (same : ∀ values, (pairs values).Perm values)

theorem pick_eq (hand : Finset Int) (n : Nat) (v : Int) :
    pick pairs hand n v = (valueCards pairs hand v).take n := pickExactly_nil n v

include same

theorem valueCounts_eq (v : Int) : valueCounts pairs hand.cards v = hand.count v := by
  unfold valueCounts valueCards Hand.count
  rw [(same _).length_eq, Finset.length_sort]

theorem valueCards_length (v : Int) : (valueCards pairs hand.cards v).length = hand.count v :=
  valueCounts_eq same v

theorem countGroup_eq (n : Nat) : countGroup pairs hand.cards n = hand.allWith n := by
  unfold countGroup Hand.allWith
  simp only [valueCounts_eq same]

theorem freeValues_eq (k : Nat) : (freeValues pairs hand.cards k []).length = hand.valuesWith k := by
  unfold freeValues Hand.valuesWith
  congr 1
  apply List.filter_congr
  intro v _
  simp [valueCounts_eq same]

/-- Beside a value with other cards, the values are as free as without it. -/
theorem free_beside {v : Int} {n k : Nat} (times : hand.count v = n) (pos : 0 < n) (other : k ≠ n) :
    (freeValues pairs hand.cards k (valueCards pairs hand.cards v)).length = hand.valuesWith k := by
  rw [← freeValues_eq same, ← List.nil_append (valueCards pairs hand.cards v),
    freeValues_beside same (by rw [valueCounts_eq same, times]) pos other]

theorem Picked.taken {picks : List (Int × Nat)} {cards : List Int}
    (picked : Picked pairs hand.cards picks cards) : Taken hand cards :=
  ⟨picked.nodup same, picked.subset same⟩

theorem pickLine_picked {copies : Nat} {v : Int} {n : Nat}
    (enough : ∀ u ∈ run v n, copies ≤ hand.count u) :
    Picked pairs hand.cards ((run v n).map fun u => (u, copies))
      (pickLine pairs hand.cards copies v n) where
  made := by
    unfold pickLine
    rw [List.flatMap_map]
    apply List.flatMap_congr
    intro u _
    exact pick_eq hand.cards copies u
  distinct := by
    rw [List.map_map]
    exact (List.map_id (run v n)).symm ▸ run_nodup v n
  enough := by
    intro pick mem
    obtain ⟨u, there, rfl⟩ := List.mem_map.1 mem
    rw [valueCounts_eq same]
    exact enough u there

theorem pickLine_taken {copies : Nat} {v : Int} {n : Nat}
    (enough : ∀ u ∈ run v n, copies ≤ hand.count u) :
    Taken hand (pickLine pairs hand.cards copies v n) ∧
      (pickLine pairs hand.cards copies v n).map value =
        (run v n).flatMap (List.replicate copies) := by
  have picked := pickLine_picked same enough
  refine ⟨picked.taken same, ?_⟩
  rw [picked.keys same, List.flatMap_map]

theorem pick_taken {n : Nat} {v : Int} (enough : n ≤ hand.count v) :
    Taken hand (pick pairs hand.cards n v) ∧
      (pick pairs hand.cards n v).map value = List.replicate n v := by
  have one : ∀ u ∈ run v 1, n ≤ hand.count u := by
    intro u mem
    have := mem_run.1 mem
    rw [show u = v by omega]
    exact enough
  have line := pickLine_taken same one
  have only : run v 1 = [v] := by rw [run_cons]; rfl
  unfold pickLine at line
  rw [only, List.flatMap_singleton, List.flatMap_singleton] at line
  exact line

theorem pick_all {n : Nat} {v : Int} (times : hand.count v = n) :
    pick pairs hand.cards n v = valueCards pairs hand.cards v := by
  rw [pick_eq]
  apply List.take_of_length_le
  rw [valueCards_length same, times]

/-- All cards of some values and kickers that were free besides. -/
theorem kickers_picked {values ws : List Int} (distinct : values.Nodup) (others : ws.Nodup)
    (apart : ∀ v ∈ values, v ∉ ws) :
    Picked pairs hand.cards ((values ++ ws).map fun u => (u, hand.count u))
      (values.flatMap (valueCards pairs hand.cards) ++ ws.flatMap (valueCards pairs hand.cards)) where
  made := by
    rw [← List.flatMap_append, List.flatMap_map]
    apply List.flatMap_congr
    intro u _
    rw [← valueCards_length same, List.take_length]
  distinct := by
    rw [List.map_map]
    have all : (values ++ ws).Nodup := by
      apply List.nodup_append.2 ⟨distinct, others, ?_⟩
      rintro v mem w there rfl
      exact apart v mem there
    exact (List.map_id (values ++ ws)).symm ▸ all
  enough := by
    intro pick mem
    obtain ⟨u, _, rfl⟩ := List.mem_map.1 mem
    rw [valueCounts_eq same]

theorem kickers_keys {values ws : List Int} (distinct : values.Nodup) (others : ws.Nodup)
    (apart : ∀ v ∈ values, v ∉ ws) :
    (values.flatMap (valueCards pairs hand.cards) ++
        ws.flatMap (valueCards pairs hand.cards)).map value =
      (values.flatMap fun u => List.replicate (hand.count u) u) ++
        ws.flatMap fun u => List.replicate (hand.count u) u := by
  rw [(kickers_picked same distinct others apart).keys same, List.flatMap_map, List.flatMap_append]

omit same in
theorem kickers_length (ws : List Int) :
    (ws.flatMap fun u => List.replicate (hand.count u) u).length = (ws.map hand.count).sum := by
  rw [List.length_flatMap]
  simp

theorem pickWith_none {copies others : Nat} {v : Int} (times : hand.count v = copies)
    (none : searchMinCombination pairs hand.cards lua others (valueCards pairs hand.cards v) = none) :
    Taken hand (pickWith pairs hand.cards lua copies others v) ∧
      (pickWith pairs hand.cards lua copies others v).map value = List.replicate copies v := by
  unfold pickWith
  rw [none, Option.getD_none, List.append_nil]
  exact pick_taken same (Nat.le_of_eq times.symm)

/-- What is picked with kickers is made of the value and of the kickers' values. -/
theorem pickWith_some {copies others : Nat} {v : Int} (pos : 0 < copies)
    (times : hand.count v = copies) {comb : List Nat} {cards ws : List Int}
    (found : searchMinCombination pairs hand.cards lua others (valueCards pairs hand.cards v) =
      some cards)
    (kickers : KickersOf pairs hand.cards (valueCards pairs hand.cards v) comb cards ws) :
    Taken hand (pickWith pairs hand.cards lua copies others v) ∧ (v :: ws).Nodup ∧
      ws.map hand.count = comb ∧ (pickWith pairs hand.cards lua copies others v).map value =
        List.replicate copies v ++ ws.flatMap fun u => List.replicate (hand.count u) u := by
  have fresh : v ∉ ws := by
    intro there
    have some_card : 0 < (valueCards pairs hand.cards v).length := by
      rw [valueCards_length same, times]
      exact pos
    obtain ⟨card, held⟩ := List.exists_mem_of_length_pos some_card
    exact (kickers.free v there).2 card held held
  have apart : ∀ u ∈ [v], u ∉ ws := by
    intro u mem
    rw [List.mem_singleton.1 mem]
    exact fresh
  have picked := @kickers_picked pairs deck hand same _ _ (List.nodup_singleton v) kickers.distinct apart
  have keys := @kickers_keys pairs deck hand same _ _ (List.nodup_singleton v) kickers.distinct apart
  rw [List.flatMap_singleton, ← kickers.made] at picked keys
  unfold pickWith
  rw [found, Option.getD_some, pick_all same times]
  refine ⟨picked.taken same, List.nodup_cons.2 ⟨fresh, kickers.distinct⟩, ?_, ?_⟩
  · rw [← kickers.counts]
    exact List.map_congr_left fun u _ => (valueCounts_eq same u).symm
  · rw [keys, List.flatMap_singleton, times]

/-- Kickers of one number of cards. -/
theorem pickWith_consists {copies others k m : Nat} {v : Int} (pos : 0 < copies)
    (times : hand.count v = copies) {cards ws : List Int}
    (found : searchMinCombination pairs hand.cards lua others (valueCards pairs hand.cards v) =
      some cards)
    (kickers : KickersOf pairs hand.cards (valueCards pairs hand.cards v) (List.replicate m k) cards ws) :
    Taken hand (pickWith pairs hand.cards lua copies others v) ∧ ws.length = m ∧
      Consists ((pickWith pairs hand.cards lua copies others v).map value) copies [v] k ws := by
  obtain ⟨taken, distinct, counts, keys⟩ := pickWith_some same pos times found kickers
  obtain ⟨length, each⟩ := List.eq_replicate_iff.1 counts
  rw [List.length_map] at length
  have all : ∀ w ∈ ws, hand.count w = k := fun w mem => each _ (List.mem_map_of_mem mem)
  refine ⟨taken, length, distinct, ?_⟩
  rw [keys, flatMap_each all, List.flatMap_singleton]

/-- Triples with the kickers that the loop finds. -/
theorem planeWithKickers_taken {others : Nat} {left : List Int → Nat}
    (counts : KickerCounts pairs hand.cards lua others left) (few : others ≤ 2)
    {excluded : Int → List Int} {values : List Int} (distinct : values.Nodup)
    (three : ∀ u ∈ values, hand.count u = 3)
    (whole : ∀ u ∈ values, excluded u = valueCards pairs hand.cards u) :
    Taken hand (planeWithKickers pairs hand.cards lua others excluded values []) ∧
      ∃ ws : List Int, (values ++ ws).Nodup ∧ (∀ w ∈ ws, 0 < hand.count w ∧ hand.count w ≤ others) ∧
        (ws.map hand.count).sum = others * min values.length (left []) ∧
        ((planeWithKickers pairs hand.cards lua others excluded values []).map value).Perm
          (values.flatMap (List.replicate 3) ++
            ws.flatMap fun u => List.replicate (hand.count u) u) := by
  have triples : ∀ u ∈ values, valueCounts pairs hand.cards u = 3 := by
    intro u mem
    rw [valueCounts_eq same]
    exact three u mem
  obtain ⟨ws, perm, kickers⟩ := planeWithKickers_made counts triples whole []
  have bounds : ∀ w ∈ ws, 0 < hand.count w ∧ hand.count w ≤ others := by
    intro w mem
    have few := kickers.few w mem
    rw [valueCounts_eq same] at few
    exact few
  have apart : ∀ v ∈ values, v ∉ ws := by
    intro v mem there
    have := three v mem
    have := bounds v there
    omega
  have picked := @kickers_picked pairs deck hand same _ _ distinct kickers.distinct apart
  have keys := @kickers_keys pairs deck hand same _ _ distinct kickers.distinct apart
  refine ⟨(picked.taken same).perm perm, ws, ?_, bounds, ?_, ?_⟩
  · apply List.nodup_append.2 ⟨distinct, kickers.distinct, ?_⟩
    rintro v mem w there rfl
    exact apart v mem there
  · rw [← kickers.sum]
    congr 1
    exact List.map_congr_left fun u _ => (valueCounts_eq same u).symm
  · have mapped := perm.map value
    rw [keys, flatMap_each three] at mapped
    exact mapped

end HandPicks

/-! ### Searches by value and by line -/

section Searches

variable {Kind : Type}

/-- The first value from `begin_` to `upto` that fits. -/
def seekValue (begin_ upto : Int) (fits : Int → Bool) (picks : Int → List Int) : Option (List Int) :=
  ((run begin_ (upto + 1 - begin_).toNat).find? fits).map picks

/-- The longest run above the last discard, which has `per` cards for each value. A length that
is no integer is never met by `n == len`. -/
def seekLine (pairs : List Int → List Int) (lua : LuaSort) (hand : Finset Int) (last : Played Kind)
    (valueCount per : Nat) (enough : Bool) (picks : Int → Nat → List Int) : Option (List Int) :=
  (seekContinuityCardsCount lua (continuable (valueCounts pairs hand) valueCount)
    (fun n => n * per = last.count) (last.value + 1)).bind fun (lianCount, firstValue) =>
      if last.count ≤ lianCount * per ∧ enough then some (picks firstValue lianCount) else none

theorem seekValue_some {begin_ upto : Int} {fits : Int → Bool} {picks : Int → List Int}
    {cards : List Int} (found : seekValue begin_ upto fits picks = some cards) :
    ∃ i, (begin_ ≤ i ∧ i ≤ upto) ∧ fits i = true ∧ cards = picks i := by
  obtain ⟨i, first, same⟩ := Option.map_eq_some_iff.1 found
  have within := mem_run.1 (List.mem_of_find?_eq_some first)
  exact ⟨i, by omega, List.find?_some first, same.symm⟩

theorem seekValue_none {begin_ upto : Int} {fits : Int → Bool} {picks : Int → List Int} :
    seekValue begin_ upto fits picks = none ↔ ∀ i, begin_ ≤ i → i ≤ upto → fits i = false := by
  unfold seekValue
  rw [Option.map_eq_none_iff, List.find?_eq_none]
  constructor
  · intro none i above below
    exact Bool.eq_false_iff.2 (none i (mem_run.2 (by omega)))
  · intro none i mem
    have within := mem_run.1 mem
    exact Bool.eq_false_iff.1 (none i (by omega) (by omega))

theorem seekValue_exists {begin_ upto i : Int} {fits : Int → Bool} {picks : Int → List Int}
    (within : begin_ ≤ i ∧ i ≤ upto) (fit : fits i = true) :
    ∃ cards, seekValue begin_ upto fits picks = some cards := by
  apply Option.ne_none_iff_exists'.1
  intro none
  have unfit := seekValue_none.1 none i within.1 within.2
  rw [fit] at unfit
  cases unfit

variable {pairs : List Int → List Int} (same : ∀ values, (pairs values).Perm values) {lua : LuaSort}
  {deck : List Int} {hand : Hand deck} (four : ∀ v, hand.count v ≤ 4)

include same four

theorem continuable_iff {valueCount : Nat} (pos : 0 < valueCount) (v : Int) :
    continuable (valueCounts pairs hand.cards) valueCount v = true ↔
      valueCount ≤ hand.count v ∧ hand.count v ≤ 3 := by
  have four := four v
  rw [continuable, valueCounts_eq same, decide_eq_true_eq]
  omega

variable {last : Played Kind} {copies per n : Nat} {enough : Bool} {picks : Int → Nat → List Int}
  (pos : 0 < copies) (per_pos : 0 < per) (some_value : 0 < n) (size : last.count = per * n)

include pos per_pos some_value size

theorem seekLine_some {cards : List Int}
    (found : seekLine pairs lua hand.cards last copies per enough picks = some cards) :
    ∃ b, RunAbove hand last copies n b ∧ enough = true ∧ cards = picks b n := by
  obtain ⟨⟨m, b⟩, longest, taken⟩ := Option.bind_eq_some_iff.1 found
  have section_ := seekContinuity_found longest
  simp only [] at taken
  split at taken
  · rename_i passes
    cases taken
    have not_longer : ¬ n < m := by
      intro longer
      have not_full := section_.shorter n some_value longer
      rw [size, Nat.mul_comm] at not_full
      exact of_decide_eq_false not_full rfl
    have long : n ≤ m := by
      have le := passes.1
      rw [size, Nat.mul_comm m per] at le
      exact Nat.le_of_mul_le_mul_left le per_pos
    obtain rfl : m = n := by omega
    have above := section_.above
    refine ⟨b, ⟨⟨by omega, section_.below⟩, ?_⟩, passes.2, rfl⟩
    intro u mem
    exact (continuable_iff same four pos u).1 (section_.inside u mem)
  · cases taken

theorem seekLine_none (can : enough = true)
    (none : seekLine pairs lua hand.cards last copies per enough picks = none) (b : Int) :
    ¬ RunAbove hand last copies n b := by
  rintro ⟨⟨above, below⟩, inside⟩
  have not_full : ∀ m, 0 < m → m < n → decide (m * per = last.count) = false := by
    intro m _ less
    apply decide_eq_false
    rw [size, Nat.mul_comm]
    intro same
    have := Nat.eq_of_mul_eq_mul_left per_pos same
    omega
  obtain ⟨m, b', longest, long⟩ := @seekContinuity_longest _ _ lua _ _ _ some_value
    (by omega : last.value + 1 ≤ b) below
    (fun u mem => (continuable_iff same four pos u).2 (inside u mem)) not_full
  unfold seekLine at none
  rw [longest, Option.bind_some] at none
  simp only [] at none
  rw [if_pos] at none
  · cases none
  · refine ⟨?_, can⟩
    rw [size, Nat.mul_comm]
    exact Nat.mul_le_mul_right per long

end Searches

/-! ### Discards over the last one -/

section Compare

variable {Kind : Type} {number : Kind → Nat} {bomb missle : Nat} {l r : Played Kind}

/-- A discard of the same type and size with a greater value is above the last one. -/
theorem compare_same (not_bomb : number l.kind ≠ bomb) (not_missle : number l.kind ≠ missle)
    (kinds : r.kind = l.kind) (counts : r.count = l.count) (above : r.value < l.value) :
    compareCards number bomb missle l (some r) = some 1 := by
  unfold compareCards
  simp only []
  rw [kinds, counts, if_neg not_missle, if_neg not_missle, if_neg (fun h => not_bomb h.1),
    if_neg not_bomb, if_neg (not_not.2 rfl), if_pos rfl, compareValues, if_pos above]

theorem compare_bomb (is_bomb : number l.kind = bomb) (differ : bomb ≠ missle)
    (above : number r.kind < bomb ∨ number r.kind = bomb ∧ r.value < l.value)
    (not_missle : number r.kind ≠ missle) :
    compareCards number bomb missle l (some r) = some 1 := by
  unfold compareCards
  simp only []
  rw [is_bomb, if_neg differ, if_neg not_missle, if_pos ⟨rfl, above⟩]

/-- Otherwise only a bomb or the missle is above it. -/
theorem compare_above (above : compareCards number bomb missle l (some r) = some 1) :
    number l.kind = missle ∨
      (number l.kind = bomb ∧ (number r.kind < bomb ∨ number r.kind = bomb ∧ r.value < l.value)) ∨
      number l.kind = number r.kind ∧ l.count = r.count ∧ r.value < l.value := by
  unfold compareCards at above
  simp only [] at above
  split at above
  · rename_i is_missle
    exact .inl is_missle
  · split at above
    · cases above
    · split at above
      · rename_i is_bomb
        exact .inr (.inl is_bomb)
      · split at above
        · cases above
        · split at above
          · cases above
          · rename_i kinds
            split at above
            · rename_i counts
              refine .inr (.inr ⟨not_not.1 kinds, counts, ?_⟩)
              unfold compareValues at above
              split at above
              · assumption
              · split at above <;> cases above
            · cases above

/-- A comparison says one or no more than zero. -/
theorem notGreater_iff {r : Option (Played Kind)} :
    notGreater (compareCards number bomb missle l r) = false ↔
      compareCards number bomb missle l r = some 1 := by
  cases r with
  | none => exact iff_of_true rfl rfl
  | some r =>
      unfold compareCards compareValues
      simp only []
      split
      · exact iff_of_true rfl rfl
      · split
        · exact iff_of_false (by decide) (by decide)
        · split
          · exact iff_of_true rfl rfl
          · split
            · exact iff_of_false (by decide) (by decide)
            · split
              · exact iff_of_false (by decide) (by decide)
              · split
                · split
                  · exact iff_of_true rfl rfl
                  · split
                    · exact iff_of_false (by decide) (by decide)
                    · exact iff_of_false (by decide) (by decide)
                · exact iff_of_false (by decide) (by decide)

end Compare

/-- What a search comes to: a Lua error, nothing, or cards. -/
inductive Sought
  | error
  | nothing
  | cards (list : List Int)
deriving DecidableEq

/-- `assert((not cards or #cards > 0) and not check_cards_repeat(cards))` -/
def checked (found : Option (List Int)) : Sought :=
  match found with
  | none => .nothing
  | some cards => if cards ≠ [] ∧ cards.Nodup then .cards cards else .error

theorem checked_iff {found : Option (List Int)} {cards : List Int} :
    checked found = .cards cards ↔ found = some cards ∧ cards ≠ [] ∧ cards.Nodup := by
  cases found with
  | none => simp [checked]
  | some list =>
      rw [checked, Option.some.injEq]
      constructor
      · intro result
        split at result
        · rename_i passes
          cases result
          exact ⟨rfl, passes⟩
        · cases result
      · rintro ⟨rfl, passes⟩
        exact if_pos passes

/-- What a search leaves: cards of the hand, which are over the last discard or not. -/
structure SearchOutcome {deck : List Int} (beats : List Int → Prop) (hand : Hand deck) (cards : List Int)
    (good : Prop) : Prop where
  taken : Taken hand cards
  some_card : cards ≠ []
  beats_iff : beats cards ↔ good

section Outcomes

variable {deck : List Int} {beats : List Int → Prop} {hand : Hand deck} {cards : List Int}

theorem SearchOutcome.congr {good good' : Prop} (outcome : SearchOutcome beats hand cards good)
    (same : good ↔ good') : SearchOutcome beats hand cards good' :=
  ⟨outcome.taken, outcome.some_card, outcome.beats_iff.trans same⟩

theorem keys_length {list keys : List Int} (same : list.map value = keys) : list.length = keys.length := by
  rw [← same, List.length_map]

theorem ne_nil {list keys : List Int} (same : list.map value = keys) (some_key : keys ≠ []) : list ≠ [] := by
  rintro rfl
  exact some_key same.symm

end Outcomes

end FkServer.Climbing
