import FkServer.Climbing.Grammar
import FkServer.PdkSc.Discard

/-!
What the laizi of a list may stand for: `get_cards_type` takes the client's replacements as
they come, and the type it gives has to be one that the list has with some card value for
every laizi.
-/
namespace FkServer.PdkSc

open Climbing

/-! ### Lists with laizi -/

def allCards : List Int :=
  [0, 20, 40, 60].flatMap fun color : Int => (List.range' 5 10).map fun v : Nat => color + v

/-- Cards of a hand, some of them laizi. -/
structure Submitted (c : DiscardConf) where
  laizi : Int
  wild : c.laizi = some laizi
  cards : List Int
  dealt : ∀ card ∈ cards, card = laizi ∨ card ∈ allCards
  some_wild : laizi ∈ cards

/-- The list with the client's replacements in it. -/
def substituted (c : DiscardConf) (cards : List Int) (laiziReplace : Option (List Int)) : List Int :=
  match laiziReplace, c.laizi with
  | some replace, some laizi => replaceLaizi laizi cards replace
  | _, _ => cards

/-- How many equal cards a type is made of; a line has no such number. -/
def CardType.copies : CardType → Nat
  | .single | .laiziSingle => 1
  | .double | .laiziDouble => 2
  | .three | .laiziThree | .softTripleBomb | .tripleBomb | .laiziTripleBomb => 3
  | .four | .laiziFour | .softBomb | .bomb | .laiziBomb => 4
  | .singleLine | .doubleLine => 0

/-- The types of laizi alone. -/
def CardType.onlyLaizi : CardType → Bool
  | .laiziSingle | .laiziDouble | .laiziThree | .laiziFour | .laiziTripleBomb | .laiziBomb => true
  | _ => false

/-- Cards of these values are a combination of the type, its value being `v`. -/
def Combination (c : DiscardConf) (kind : CardType) (v : Int) (values : List Int)
    (onlyWild : Prop) : Prop :=
  match kind with
  | .singleLine => ∃ n : Nat, 3 ≤ n ∧ 5 ≤ v ∧ v + n ≤ 15 ∧ values.Perm (run v n)
  | .doubleLine => ∃ n : Nat, c.minDoubles ≤ n ∧ 5 ≤ v ∧ v + n ≤ 15 ∧
      values.Perm ((run v n).flatMap (List.replicate 2))
  | kind => values = List.replicate kind.copies v ∧ (kind.onlyLaizi = true → onlyWild)

/-- Some card value for every laizi makes the list such a combination. -/
def Justified (c : DiscardConf) (s : Submitted c) (kind : CardType) (v : Int) : Prop :=
  ∃ chosen : List Int, chosen.length = s.cards.count s.laizi ∧ (∀ x ∈ chosen, 5 ≤ x ∧ x ≤ 14) ∧
    Combination c kind v ((s.cards.filter fun card => card ≠ s.laizi).map value ++ chosen)
      (∀ card ∈ s.cards, card = s.laizi)

/-- The type is justified, and a hard bomb has no laizi replaced. -/
def WildcardSafe (c : DiscardConf) (s : Submitted c) (laiziReplace : Option (List Int)) : Prop :=
  ∀ kind v, getCardsType c s.cards laiziReplace = some (kind, v) →
    (∃ value, v = some value ∧ Justified c s kind value) ∧
      (kind = .tripleBomb ∨ kind = .bomb → substituted c s.cards laiziReplace = s.cards)

/-! ### Rows with gaps filled -/

/-- Consecutive values, with at most `remain` cards missing. -/
def Row (need : Int → Nat) (remain : Nat) (values : List Int) : Prop :=
  ∃ (first : Int) (n : Nat), values = run first n ∧ 5 ≤ first ∧ first + n ≤ 15 ∧
    (values.map need).sum ≤ remain

/-- What the loops keep: the values so far end where the loop is, or there are none. -/
structure Reached (need : Int → Nat) (used i : Nat) (values : List Int) : Prop where
  row : ∃ (first : Int) (n : Nat), values = run first n ∧ 5 ≤ first ∧ first + n = i
  cost : (values.map need).sum ≤ used

theorem Reached.push {need : Int → Nat} {used i : Nat} {values : List Int}
    (reached : Reached need used i values) (more : Nat) (cost : need i ≤ more) :
    Reached need (used + more) (i + 1) (values ++ [(i : Int)]) := by
  obtain ⟨⟨first, n, rfl, low, ends⟩, paid⟩ := reached
  constructor
  · refine ⟨first, n + 1, ?_, low, by omega⟩
    rw [run_succ, ends]
  · rw [List.map_append, List.sum_append]
    simp
    omega

theorem Reached.empty (need : Int → Nat) {i : Nat} (low : 5 ≤ i) : Reached need 0 i [] :=
  ⟨⟨i, 0, rfl, by omega, by omega⟩, Nat.le_refl 0⟩

theorem Reached.toRow {need : Int → Nat} {used i remain : Nat} {values : List Int}
    (reached : Reached need used i values) (few : used ≤ remain) (last : i ≤ 15) :
    Row need remain values := by
  obtain ⟨⟨first, n, rfl, low, ends⟩, paid⟩ := reached
  exact ⟨first, n, rfl, low, by omega, by omega⟩

/-- The missing cards of a single line. -/
def needSingle (count : Int → Nat) (v : Int) : Nat := if count v = 1 then 0 else 1

theorem isSingleLine_row (count : Int → Nat) (remain k i used : Nat) (values : List Int)
    (rest : i + k = 15) (low : 5 ≤ i) (few : used ≤ remain)
    (reached : Reached (needSingle count) used i values) :
    Row (needSingle count) remain (isSingleLine count remain values used (valuesFrom i)) ∧
      (isSingleLine count remain values used (valuesFrom i) = [] ∨
        3 ≤ (isSingleLine count remain values used (valuesFrom i)).length ∨
        ∃ first n, isSingleLine count remain values used (valuesFrom i) = run first n ∧
          first + n = 15) := by
  induction k generalizing i used values with
  | zero =>
      have last : i = 15 := by omega
      rw [last] at reached ⊢
      refine ⟨reached.toRow few (Nat.le_refl 15), .inr (.inr ?_)⟩
      obtain ⟨first, n, same, _, ends⟩ := reached.row
      exact ⟨first, n, same, ends⟩
  | succ k ih =>
      rw [valuesFrom_cons (by omega), isSingleLine]
      split
      · rename_i one
        refine ih (i + 1) used _ (by omega) (by omega) few (reached.push 0 ?_)
        rw [needSingle, if_pos one]
      · split
        · rename_i more
          refine ih (i + 1) (used + 1) _ (by omega) (by omega) (by omega) (reached.push 1 ?_)
          unfold needSingle
          split <;> omega
        · split
          · rename_i long
            exact ⟨reached.toRow few (by omega), .inr (.inl long)⟩
          · exact ih (i + 1) 0 [] (by omega) (by omega) (Nat.zero_le _)
              (Reached.empty _ (by omega))

/-- The missing cards of a double line. -/
def needDouble (count : Int → Nat) (v : Int) : Nat := 2 - count v

theorem isDoubleLine_row (least : Nat) (count : Int → Nat) (remain k i used : Nat)
    (values : List Int) (rest : i + k = 15) (low : 5 ≤ i) (few : used ≤ remain)
    (reached : Reached (needDouble count) used i values) :
    Row (needDouble count) remain
      (isDoubleLine least count remain values used (valuesFrom i)) := by
  induction k generalizing i used values with
  | zero =>
      have last : i = 15 := by omega
      rw [last] at reached ⊢
      exact reached.toRow few (Nat.le_refl 15)
  | succ k ih =>
      rw [valuesFrom_cons (by omega), isDoubleLine]
      split
      · rename_i two
        refine ih (i + 1) used _ (by omega) (by omega) few (reached.push 0 ?_)
        rw [needDouble, two]
      · split
        · rename_i one
          refine ih (i + 1) (used + 1) _ (by omega) (by omega) one.2.1 (reached.push 1 ?_)
          rw [needDouble, one.1]
        · split
          · rename_i none
            refine ih (i + 1) (used + 2) _ (by omega) (by omega) none.2.1 (reached.push 2 ?_)
            rw [needDouble, none.1]
          · split
            · exact reached.toRow few (by omega)
            · exact ih (i + 1) 0 [] (by omega) (by omega) (Nat.zero_le _)
                (Reached.empty _ (by omega))

/-! ### The list after the replacements -/

theorem value_bounds (card : Int) : 0 ≤ value card ∧ value card < 20 := by
  unfold value
  omega

section Parts

variable {c : DiscardConf} (s : Submitted c)

theorem Submitted.laizi_bounds : 85 ≤ s.laizi ∧ s.laizi ≤ 94 := c.laizi_card s.laizi s.wild

/-- The cards that are no laizi. -/
def Submitted.own : List Int := s.cards.filter fun card => card ≠ s.laizi

/-- The list is the player's own cards, the replacements used, and the laizi that are left. -/
structure Parts (list subs : List Int) (remain : Nat) : Prop where
  perm : list.Perm (s.own ++ subs ++ List.replicate remain s.laizi)
  others : s.laizi ∉ subs
  count : subs.length + remain = s.cards.count s.laizi

theorem replaceLaizi_parts (laizi : Int) (cards replace : List Int) :
    ∃ subs remain, (replaceLaizi laizi cards replace).Perm
        ((cards.filter fun card => card ≠ laizi) ++ subs ++ List.replicate remain laizi) ∧
      laizi ∉ subs ∧ subs.length + remain = cards.count laizi := by
  induction cards generalizing replace with
  | nil => exact ⟨[], 0, .refl _, List.not_mem_nil, rfl⟩
  | cons card cards ih =>
      unfold replaceLaizi
      split
      · rename_i wild
        have kept : ∀ replace, ∃ subs remain, (laizi :: replaceLaizi laizi cards replace).Perm
            ((cards.filter fun card => card ≠ laizi) ++ subs ++ List.replicate remain laizi) ∧
            laizi ∉ subs ∧ subs.length + remain = cards.count laizi + 1 := by
          intro replace
          obtain ⟨subs, remain, perm, others, count⟩ := ih replace
          refine ⟨subs, remain + 1, ?_, others, by omega⟩
          rw [List.replicate_succ]
          exact (perm.cons laizi).trans List.perm_middle.symm
        rw [wild, List.filter_cons_of_neg (by simp), List.count_cons_self]
        split
        · exact kept replace
        · rename_i other _
          by_cases same : other = laizi
          · rw [same]
            exact kept replace.dropLast
          · obtain ⟨subs, remain, perm, others, count⟩ := ih replace.dropLast
            refine ⟨other :: subs, remain, ?_, ?_, ?_⟩
            · rw [List.append_assoc] at perm ⊢
              exact (perm.cons other).trans List.perm_middle.symm
            · intro mem
              rcases List.mem_cons.1 mem with rfl | mem
              · exact same rfl
              · exact others mem
            · rw [List.length_cons]
              omega
      · rename_i tame
        obtain ⟨subs, remain, perm, others, count⟩ := ih replace
        refine ⟨subs, remain, ?_, others, ?_⟩
        · rw [List.filter_cons_of_pos (by simpa using tame)]
          exact perm.cons card
        · rw [List.count_cons_of_ne tame]
          exact count

theorem substituted_parts (laiziReplace : Option (List Int)) :
    ∃ subs remain, Parts s (substituted c s.cards laiziReplace) subs remain := by
  unfold substituted
  rw [s.wild]
  cases laiziReplace with
  | some replace =>
      obtain ⟨subs, remain, perm, others, count⟩ := replaceLaizi_parts s.laizi s.cards replace
      exact ⟨subs, remain, perm, others, count⟩
  | none =>
      refine ⟨[], s.cards.count s.laizi, ?_, List.not_mem_nil, Nat.zero_add _⟩
      rw [List.append_nil]
      have split_ := List.filter_append_perm (fun card => decide (card ≠ s.laizi)) s.cards
      apply split_.symm.trans
      apply List.Perm.append_left
      have rest : (s.cards.filter fun card => !decide (card ≠ s.laizi)) =
          List.replicate (s.cards.count s.laizi) s.laizi := by
        rw [← List.filter_beq]
        congr 1
        funext card
        by_cases same : card = s.laizi <;> simp [same]
      rw [rest]

variable {s} {list subs : List Int} {remain : Nat}

theorem own_color : ∀ card ∈ s.own, color card ≠ 4 := by
  intro card held
  obtain ⟨there, tame⟩ := List.mem_filter.1 held
  have deck : ∀ card ∈ allCards, color card ≠ 4 := by decide
  exact deck card ((s.dealt card there).resolve_left (by simpa using tame))

theorem laizi_color (s : Submitted c) : color s.laizi = 4 := by
  have := s.laizi_bounds
  unfold color
  omega

/-- The values of the cards that are no laizi any more. -/
def tame (s : Submitted c) (subs : List Int) : List Int := s.own.map value ++ subs.map value

theorem tame_bounds (s : Submitted c) (subs : List Int) :
    ∀ v ∈ tame s subs, 0 ≤ v ∧ v < 20 := by
  intro v mem
  rcases List.mem_append.1 mem with mem | mem
  · obtain ⟨card, _, rfl⟩ := List.mem_map.1 mem
    exact value_bounds card
  · obtain ⟨card, _, rfl⟩ := List.mem_map.1 mem
    exact value_bounds card

theorem laizi_not_tame (s : Submitted c) (subs : List Int) : s.laizi ∉ tame s subs := by
  intro mem
  have high := s.laizi_bounds
  have low := tame_bounds s subs _ mem
  omega

/-- The group keys of the list. -/
def keysOf (_ : Submitted c) (list : List Int) : List Int := list.map (groupKey c.laizi)

theorem Parts.keys (parts : Parts s list subs remain) :
    (keysOf s list).Perm (tame s subs ++ List.replicate remain s.laizi) := by
  have of_tame : ∀ cards : List Int, s.laizi ∉ cards →
      cards.map (groupKey c.laizi) = cards.map value := by
    intro cards free
    apply List.map_congr_left
    intro card mem
    unfold groupKey
    rw [if_neg]
    intro same
    rw [s.wild] at same
    exact free (Option.some.inj same ▸ mem)
  have own_free : s.laizi ∉ s.own := by
    intro mem
    have := (List.mem_filter.1 mem).2
    simp at this
  have self : groupKey c.laizi s.laizi = s.laizi := if_pos s.wild
  have mapped := parts.perm.map (groupKey c.laizi)
  rw [List.map_append, List.map_append, of_tame _ own_free, of_tame _ parts.others,
    List.map_replicate, self] at mapped
  exact mapped

theorem Parts.length (parts : Parts s list subs remain) :
    list.length = (tame s subs).length + remain := by
  rw [parts.perm.length_eq, tame]
  simp only [List.length_append, List.length_map, List.length_replicate]

theorem Parts.remain_eq (parts : Parts s list subs remain) :
    (list.countP fun card => some card = c.laizi) = remain := by
  have free : ∀ cards : List Int, s.laizi ∉ cards →
      (cards.countP fun card => some card = c.laizi) = 0 := by
    intro cards free
    apply List.countP_eq_zero.2
    intro card mem same
    rw [s.wild, decide_eq_true_eq] at same
    exact free (Option.some.inj same ▸ mem)
  have own_free : s.laizi ∉ s.own := by
    intro mem
    have := (List.mem_filter.1 mem).2
    simp at this
  rw [parts.perm.countP_eq, List.countP_append, List.countP_append, free _ own_free,
    free _ parts.others]
  simp [List.countP_replicate, s.wild]

theorem Parts.count_keys (parts : Parts s list subs remain) {v : Int} (other : v ≠ s.laizi) :
    (keysOf s list).count v = (tame s subs).count v := by
  rw [parts.keys.count_eq, List.count_append, List.count_replicate]
  simp [Ne.symm other]

theorem Parts.count_laizi (parts : Parts s list subs remain) :
    (keysOf s list).count s.laizi = remain := by
  rw [parts.keys.count_eq, List.count_append, List.count_eq_zero.2 (laizi_not_tame s subs)]
  simp

/-- Card values for the laizi that are left justify a combination. -/
theorem Parts.justified (parts : Parts s list subs remain)
    (legal : ∀ v ∈ subs.map value, 5 ≤ v ∧ v ≤ 14) (fillers : List Int) (many : fillers.length = remain) (within : ∀ v ∈ fillers, 5 ≤ v ∧ v ≤ 14)
    {kind : CardType} {v : Int}
    (made : Combination c kind v (tame s subs ++ fillers) (∀ card ∈ s.cards, card = s.laizi)) :
    Justified c s kind v := by
  refine ⟨subs.map value ++ fillers, ?_, ?_, ?_⟩
  · rw [List.length_append, List.length_map, many, parts.count]
  · intro x mem
    exact (List.mem_append.1 mem).elim (legal x) (within x)
  · rw [tame, List.append_assoc] at made
    exact made

end Parts

/-! ### Lines -/

section Lines

variable {c : DiscardConf} {s : Submitted c} {list subs : List Int} {remain : Nat}

/-- The laizi left fill a row exactly, if as many cards are in it as the list has. -/
theorem Parts.fill (parts : Parts s list subs remain) {copies : Nat} {first : Int}
    {need : Int → Nat} {n : Nat} (low : 5 ≤ first) (high : first + n ≤ 15)
    (enough : ∀ v, copies ≤ (keysOf s list).count v + need v)
    (few : ((run first n).map need).sum ≤ remain) (all : copies * n = list.length) :
    ∃ fillers : List Int, fillers.length = remain ∧ (∀ v ∈ fillers, 5 ≤ v ∧ v ≤ 14) ∧
      (tame s subs ++ fillers).Perm ((run first n).flatMap (List.replicate copies)) := by
  have inside : ∀ v ∈ run first n, 5 ≤ v ∧ v ≤ 14 := by
    intro v mem
    have := mem_run.1 mem
    omega
  have enough_tame : ∀ v ∈ run first n, copies ≤ (tame s subs).count v + need v := by
    intro v mem
    have := inside v mem
    have high_laizi := s.laizi_bounds
    rw [← parts.count_keys (by omega)]
    exact enough v
  have whole : copies * (run first n).length = (tame s subs).length + remain := by
    rw [run, List.length_map, List.length_range, all, parts.length]
  obtain ⟨perm, many⟩ := filled_row (run_nodup first n) enough_tame few whole
  refine ⟨_, many, ?_, perm⟩
  intro v mem
  obtain ⟨u, there, filler⟩ := List.mem_flatMap.1 mem
  rw [(List.mem_replicate.1 filler).2]
  exact inside u there

/-- What a line that is found says about the list. -/
structure IsLine (c : DiscardConf) (s : Submitted c) (subs : List Int) (remain count : Nat)
    (kind : CardType) (first : Int) (n : Nat) (fillers : List Int) : Prop where
  low : 5 ≤ first
  high : first + n ≤ 15
  many : fillers.length = remain
  within : ∀ v ∈ fillers, 5 ≤ v ∧ v ≤ 14
  made : kind = .doubleLine ∧ c.minDoubles ≤ n ∧
      (tame s subs ++ fillers).Perm ((run first n).flatMap (List.replicate 2)) ∨
    kind = .singleLine ∧ (3 ≤ n ∨ first + n = 15) ∧ count = n ∧
      (tame s subs ++ fillers).Perm (run first n)

theorem Parts.line (parts : Parts s list subs remain) (some_card : 0 < list.length)
    {kind : CardType} {v : Option Int}
    (found : lineType c (keysOf s list) remain list.length = some (kind, v)) :
    ∃ first n fillers, v = some first ∧ IsLine c s subs remain list.length kind first n fillers := by
  have doubles := isDoubleLine_row c.minDoubles (keysOf s list).count remain 10 5 0 [] rfl
    (Nat.le_refl 5) (Nat.zero_le _) (Reached.empty _ (Nat.le_refl 5))
  have singles := isSingleLine_row (keysOf s list).count remain 10 5 0 [] rfl
    (Nat.le_refl 5) (Nat.zero_le _) (Reached.empty _ (Nat.le_refl 5))
  have head : ∀ (first : Int) (n : Nat), 0 < n → (run first n).head? = some first := by
    intro first n pos
    obtain ⟨m, rfl⟩ : ∃ m, n = m + 1 := ⟨n - 1, by omega⟩
    exact run_head first m
  unfold lineType at found
  simp only [] at found
  split at found
  · rename_i long
    cases found
    obtain ⟨first, n, same, low, high, few⟩ := doubles
    rw [same, run_length] at long
    rw [same] at few
    have enough : ∀ v, 2 ≤ (keysOf s list).count v + needDouble (keysOf s list).count v := by
      intro v
      change 2 ≤ (keysOf s list).count v + (2 - (keysOf s list).count v)
      omega
    obtain ⟨fillers, many, within, perm⟩ := parts.fill low high enough few (by omega)
    refine ⟨first, n, fillers, ?_, low, high, many, within, .inl ⟨rfl, long.2, perm⟩⟩
    rw [same, head first n (by omega)]
  · split at found
    · rename_i long
      cases found
      obtain ⟨⟨first, n, same, low, high, few⟩, ends⟩ := singles
      rw [same, run_length] at long
      rw [same] at few ends
      have enough : ∀ v, 1 ≤ (keysOf s list).count v + needSingle (keysOf s list).count v := by
        intro v
        by_cases one : (keysOf s list).count v = 1 <;> simp [needSingle, one]
      obtain ⟨fillers, many, within, perm⟩ := parts.fill low high enough few (by omega)
      have plain : (run first n).flatMap (List.replicate 1) = run first n := List.flatMap_singleton' _
      rw [plain] at perm
      refine ⟨first, n, fillers, ?_, low, high, many, within, .inr ⟨rfl, ?_, long.symm, perm⟩⟩
      · rw [same, head first n (by omega)]
      · rcases ends with none | three | ⟨first', n', same', last⟩
        · have := congrArg List.length none
          rw [run_length] at this
          simp at this
          omega
        · rw [run_length] at three
          exact .inl three
        · have lengths := congrArg List.length same'
          rw [run_length, run_length] at lengths
          have heads := congrArg List.head? same'
          rw [head first n (by omega), head first' n' (by omega)] at heads
          cases heads
          exact .inr (by omega)
    · cases found

end Lines

/-! ### Equal cards -/

section Equals

variable {c : DiscardConf} {s : Submitted c} {list subs : List Int} {remain : Nat}

/-- The cards of a list that have the colour of the laizi. -/
def wildColored (list : List Int) : Nat := list.countP fun card => color card = 4

/-- The types of equal cards. -/
def equalType (c : DiscardConf) (keys : List Int) (laiziCount remain count : Nat) :
    Option (CardType × Int) :=
  ((doubleType (countCounts keys) (countValue c.pairs keys) remain count).or
    (threeType c (countCounts keys) (countValue c.pairs keys) laiziCount remain count)).or
    (fourType c (countCounts keys) (countValue c.pairs keys) laiziCount remain count)

/-- How a type of `n` equal cards comes about. -/
structure EqualKind (c : DiscardConf) (laiziCount remain n : Nat) (kind : CardType) : Prop where
  copies : kind.copies = n
  only : kind.onlyLaizi = true → laiziCount = n ∨ remain = n
  hard : kind = .tripleBomb ∨ kind = .bomb ↔
    laiziCount = 0 ∧ (n = 3 ∧ c.isTripleBomb = true ∨ n = 4 ∧ c.hasBomb = true)

/-- `w` so many times, and the laizi left besides. -/
structure IsEqual (s : Submitted c) (subs : List Int) (remain n : Nat) (w : Int) (k : Nat) :
    Prop where
  other : w ≠ s.laizi
  pos : 0 < k
  all : k + remain = n
  few : n ≤ 4
  not_two : ¬ (k = 2 ∧ remain = 2)
  made : tame s subs = List.replicate k w

theorem Parts.tame_of_count (parts : Parts s list subs remain) {w : Int} {k : Nat}
    (other : w ≠ s.laizi) (times : (keysOf s list).count w = k) (all : k + remain = list.length) :
    tame s subs = List.replicate k w := by
  rw [parts.count_keys other] at times
  have length := parts.length
  have full : (tame s subs).count w = (tame s subs).length := by omega
  apply List.eq_replicate_iff.2
  refine ⟨by omega, ?_⟩
  intro v mem
  exact (List.count_eq_length.1 full v mem).symm

/-- A value for a type of equal cards: that of all cards but the laizi, or the laizi itself. -/
def EqualValue (c : DiscardConf) (s : Submitted c) (keys subs : List Int) (remain n : Nat)
    (v : Int) : Prop :=
  (∃ w k, IsEqual s subs remain n w k ∧
      v = if k = 1 ∧ remain = 1 then countValue c.pairs keys 1 else w) ∨
    (2 ≤ n ∧ n ≤ 4 ∧ remain = n ∨ remain = 2 ∧ ∃ x y, x ≠ y ∧ tame s subs = [x, y]) ∧ v = s.laizi

theorem Parts.value_full (parts : Parts s list subs remain) (two : 2 ≤ list.length)
    (four : list.length ≤ 4) (some_value : 0 < countCounts (keysOf s list) list.length) :
    EqualValue c s (keysOf s list) subs remain list.length
      (countValue c.pairs (keysOf s list) list.length) := by
  have times := countValue_count c.pairs_perm (by omega) some_value
  by_cases wild : countValue c.pairs (keysOf s list) list.length = s.laizi
  · refine .inr ⟨.inl ⟨two, four, ?_⟩, wild⟩
    rw [wild, parts.count_laizi] at times
    exact times
  · have length := parts.length
    have at_most := List.count_le_length
      (a := countValue c.pairs (keysOf s list) list.length) (l := tame s subs)
    rw [← parts.count_keys wild, times] at at_most
    have few : list.length + remain = list.length := by omega
    refine .inl ⟨_, _, ⟨wild, by omega, few, four, by omega, parts.tame_of_count wild times few⟩, ?_⟩
    rw [if_neg (by omega)]

theorem Parts.value_part (parts : Parts s list subs remain) {j : Nat} (pos : 0 < j)
    (some_value : 0 < countCounts (keysOf s list) j) (differ : j ≠ remain)
    (all : j + remain = list.length) (four : list.length ≤ 4) :
    EqualValue c s (keysOf s list) subs remain list.length
      (countValue c.pairs (keysOf s list) j) := by
  have times := countValue_count c.pairs_perm pos some_value
  have tame_value : countValue c.pairs (keysOf s list) j ≠ s.laizi := by
    intro wild
    rw [wild, parts.count_laizi] at times
    exact differ times.symm
  refine .inl ⟨_, _, ⟨tame_value, pos, all, four, by omega,
    parts.tame_of_count tame_value times all⟩, ?_⟩
  rw [if_neg (by omega)]

/-- A card and a laizi: either of them may come first. -/
theorem Parts.value_pair (parts : Parts s list subs remain) (one : remain = 1)
    (two : list.length = 2) :
    EqualValue c s (keysOf s list) subs remain list.length
      (countValue c.pairs (keysOf s list) 1) := by
  have length := parts.length
  obtain ⟨w, only⟩ := List.length_eq_one_iff.1 (by omega : (tame s subs).length = 1)
  refine .inl ⟨w, 1, ⟨?_, Nat.one_pos, by omega, by omega, by omega, only⟩,
    (if_pos ⟨rfl, one⟩).symm⟩
  rintro rfl
  have := laizi_not_tame s subs
  rw [only] at this
  exact this List.mem_cons_self

/-- With two laizi left and one value that occurs twice, this value is the laizi. -/
theorem Parts.value_two (parts : Parts s list subs remain) (two : remain = 2)
    (four : list.length = 4) (one : countCounts (keysOf s list) 2 = 1) :
    EqualValue c s (keysOf s list) subs remain list.length
      (countValue c.pairs (keysOf s list) 2) := by
  obtain ⟨only, single⟩ := List.length_eq_one_iff.1 one
  have alone : ∀ v, (keysOf s list).count v = 2 → v = only := by
    intro v twice
    have there := (mem_valuesOf (by decide : 0 < 2)).2 twice
    rw [single] at there
    exact List.mem_singleton.1 there
  have wild : s.laizi = only := alone s.laizi (parts.count_laizi.trans two)
  have value_twice := countValue_count c.pairs_perm (by decide : 0 < 2)
    (by omega : 0 < countCounts (keysOf s list) 2)
  have length := parts.length
  obtain ⟨x, y, both⟩ := List.length_eq_two.1 (by omega : (tame s subs).length = 2)
  refine .inr ⟨.inr ⟨two, x, y, ?_, both⟩, (alone _ value_twice).trans wild.symm⟩
  rintro rfl
  have other : x ≠ s.laizi := by
    rintro rfl
    have free := laizi_not_tame s subs
    rw [both] at free
    exact free List.mem_cons_self
  have twice : (keysOf s list).count x = 2 := by
    rw [parts.count_keys other, both]
    simp
  exact other ((alone x twice).trans wild.symm)

theorem EqualKind.of_soft {laiziCount n : Nat} {kind : CardType} (copies : kind.copies = n)
    (only : kind.onlyLaizi = true → laiziCount = n ∨ remain = n) (not_three : kind ≠ .tripleBomb)
    (not_four : kind ≠ .bomb)
    (soft : ¬ (laiziCount = 0 ∧ (n = 3 ∧ c.isTripleBomb = true ∨ n = 4 ∧ c.hasBomb = true))) :
    EqualKind c laiziCount remain n kind :=
  ⟨copies, only, iff_of_false (fun hard => hard.elim not_three not_four) soft⟩

theorem bombOf_kind {laiziCount n : Nat} (le : laiziCount ≤ n) (soft hard all : CardType) :
    bombOf laiziCount n soft hard all = all ∧ laiziCount = n ∨
      bombOf laiziCount n soft hard all = soft ∧ laiziCount ≠ 0 ∨
      bombOf laiziCount n soft hard all = hard ∧ laiziCount = 0 := by
  unfold bombOf
  split
  · rename_i whole
    exact .inl ⟨rfl, whole⟩
  · split
    · exact .inr (.inl ⟨rfl, by omega⟩)
    · exact .inr (.inr ⟨rfl, by omega⟩)

theorem Parts.remain_le (parts : Parts s list subs remain) : remain ≤ wildColored list := by
  unfold wildColored
  rw [parts.perm.countP_eq, List.countP_append, List.countP_replicate, if_pos]
  · exact Nat.le_add_left _ _
  · exact decide_eq_true (laizi_color s)

theorem Parts.double (parts : Parts s list subs remain) {kind : CardType} {v : Int}
    (found : doubleType (countCounts (keysOf s list)) (countValue c.pairs (keysOf s list)) remain
      list.length = some (kind, v)) :
    EqualKind c (wildColored list) remain list.length kind ∧
      EqualValue c s (keysOf s list) subs remain list.length v := by
  unfold doubleType at found
  split at found
  · cases found
  · rename_i two
    have two : list.length = 2 := not_not.1 two
    have soft : ¬ (wildColored list = 0 ∧
        (list.length = 3 ∧ c.isTripleBomb = true ∨ list.length = 4 ∧ c.hasBomb = true)) := by
      simp [two]
    split at found
    · rename_i some_value
      cases found
      refine ⟨?_, ?_⟩
      · split
        · rename_i all
          exact .of_soft two.symm (fun _ => .inr all) nofun nofun soft
        · exact .of_soft two.symm nofun nofun nofun soft
      · rw [← two] at some_value
        have full := parts.value_full (by omega) (by omega) some_value
        rw [two] at full ⊢
        exact full
    · split at found
      · rename_i pair
        cases found
        exact ⟨.of_soft two.symm nofun nofun nofun soft, parts.value_pair pair.2 two⟩
      · cases found

theorem Parts.three (parts : Parts s list subs remain) {kind : CardType} {v : Int}
    (found : threeType c (countCounts (keysOf s list)) (countValue c.pairs (keysOf s list))
      (wildColored list) remain list.length = some (kind, v)) :
    EqualKind c (wildColored list) remain list.length kind ∧
      EqualValue c s (keysOf s list) subs remain list.length v := by
  have le : wildColored list ≤ list.length := List.countP_le_length
  have remain_le := parts.remain_le
  unfold threeType at found
  split at found
  · cases found
  · rename_i three
    have three : list.length = 3 := not_not.1 three
    have softened : wildColored list ≠ 0 → EqualKind c (wildColored list) remain list.length
        (if c.isTripleBomb then .softTripleBomb else .three) := by
      intro wild
      split
      · exact .of_soft three.symm nofun nofun nofun fun hard => wild hard.1
      · exact .of_soft three.symm nofun nofun nofun fun hard => wild hard.1
    split at found
    · rename_i one
      cases found
      refine ⟨?_, ?_⟩
      · split
        · rename_i bombs
          rcases bombOf_kind le .softTripleBomb .tripleBomb .laiziTripleBomb with
            ⟨same, whole⟩ | ⟨same, wild⟩ | ⟨same, none⟩
          · rw [same]
            exact .of_soft three.symm (fun _ => .inl whole) nofun nofun fun hard => by omega
          · rw [same]
            exact .of_soft three.symm nofun nofun nofun fun hard => wild hard.1
          · rw [same]
            exact ⟨three.symm, nofun, iff_of_true (.inl rfl) ⟨none, .inl ⟨three, bombs⟩⟩⟩
        · rename_i bombless
          have plain : ¬ (wildColored list = 0 ∧
              (list.length = 3 ∧ c.isTripleBomb = true ∨ list.length = 4 ∧ c.hasBomb = true)) := by
            simp [three, bombless]
          split
          · rename_i whole
            exact .of_soft three.symm (fun _ => .inl whole) nofun nofun plain
          · exact .of_soft three.symm nofun nofun nofun plain
      · have some_value : 0 < countCounts (keysOf s list) list.length := by
          rw [three, one]
          exact Nat.one_pos
        have full := parts.value_full (by omega) (by omega) some_value
        rw [three] at full ⊢
        exact full
    · split at found
      · rename_i pair
        cases found
        exact ⟨softened (by omega),
          parts.value_part (by decide) (by omega) (by omega) (by omega) (by omega)⟩
      · split at found
        · rename_i pair
          cases found
          exact ⟨softened (by omega),
            parts.value_part (by decide) (by omega) (by omega) (by omega) (by omega)⟩
        · cases found

theorem Parts.four (parts : Parts s list subs remain) {kind : CardType} {v : Int}
    (found : fourType c (countCounts (keysOf s list)) (countValue c.pairs (keysOf s list))
      (wildColored list) remain list.length = some (kind, v)) :
    EqualKind c (wildColored list) remain list.length kind ∧
      EqualValue c s (keysOf s list) subs remain list.length v := by
  have le : wildColored list ≤ list.length := List.countP_le_length
  have remain_le := parts.remain_le
  unfold fourType at found
  split at found
  · cases found
  · rename_i four
    have four : list.length = 4 := not_not.1 four
    have softened : wildColored list ≠ 0 → EqualKind c (wildColored list) remain list.length
        (if c.hasBomb then .softBomb else .four) := by
      intro wild
      split
      · exact .of_soft four.symm nofun nofun nofun fun hard => wild hard.1
      · exact .of_soft four.symm nofun nofun nofun fun hard => wild hard.1
    split at found
    · rename_i one
      cases found
      refine ⟨?_, ?_⟩
      · split
        · rename_i bombs
          rcases bombOf_kind le .softBomb .bomb .laiziBomb with
            ⟨same, whole⟩ | ⟨same, wild⟩ | ⟨same, none⟩
          · rw [same]
            exact .of_soft four.symm (fun _ => .inl whole) nofun nofun fun hard => by omega
          · rw [same]
            exact .of_soft four.symm nofun nofun nofun fun hard => wild hard.1
          · rw [same]
            exact ⟨four.symm, nofun, iff_of_true (.inr rfl) ⟨none, .inr ⟨four, bombs⟩⟩⟩
        · rename_i bombless
          have plain : ¬ (wildColored list = 0 ∧
              (list.length = 3 ∧ c.isTripleBomb = true ∨ list.length = 4 ∧ c.hasBomb = true)) := by
            simp [four, bombless]
          split
          · rename_i whole
            exact .of_soft four.symm (fun _ => .inl whole) nofun nofun plain
          · exact .of_soft four.symm nofun nofun nofun plain
      · have some_value : 0 < countCounts (keysOf s list) list.length := by
          rw [four, one]
          exact Nat.one_pos
        have full := parts.value_full (by omega) (by omega) some_value
        rw [four] at full ⊢
        exact full
    · split at found
      · cases found
        exact ⟨softened (by omega),
          parts.value_part (by decide) (by omega) (by omega) (by omega) (by omega)⟩
      · split at found
        · rename_i pair
          cases found
          exact ⟨softened (by omega), parts.value_two pair.2 four pair.1⟩
        · split at found
          · cases found
            exact ⟨softened (by omega),
              parts.value_part (by decide) (by omega) (by omega) (by omega) (by omega)⟩
          · cases found

/-- A type of equal cards is found for a value and laizi, or for laizi alone. -/
theorem Parts.equal (parts : Parts s list subs remain) {kind : CardType} {v : Int}
    (found : equalType c (keysOf s list) (wildColored list) remain list.length = some (kind, v)) :
    EqualKind c (wildColored list) remain list.length kind ∧
      EqualValue c s (keysOf s list) subs remain list.length v := by
  unfold equalType at found
  rw [Option.or_eq_some_iff, Option.or_eq_some_iff] at found
  rcases found with (two | ⟨_, three⟩) | ⟨_, four⟩
  · exact parts.double two
  · exact parts.three three
  · exact parts.four four

end Equals

/-! ### The lists with an unjustified type -/

/-- The replaced lists whose type the list of the client does not justify. -/
inductive Unjustified (c : DiscardConf) (laizi : Int) (cards : List Int) : Prop
  /-- Equal cards of a value that no card has. -/
  | noCard (w : Int) (k m : Nat) : 0 < k → k + m ≤ 4 → ¬ (k = 2 ∧ m = 2) → w ≠ laizi →
      ¬ (5 ≤ w ∧ w ≤ 14) →
      (cards.map (groupKey c.laizi)).Perm (List.replicate k w ++ List.replicate m laizi) →
      Unjustified c laizi cards
  /-- Laizi alone have the laizi card for a value. -/
  | laiziAlone (m : Nat) : 2 ≤ m → m ≤ 4 →
      (cards.map (groupKey c.laizi)).Perm (List.replicate m laizi) → Unjustified c laizi cards
  /-- Two laizi are the only pair among four cards. -/
  | laiziPair (x y : Int) : x ≠ y → x ≠ laizi → y ≠ laizi →
      (cards.map (groupKey c.laizi)).Perm ([x, y] ++ List.replicate 2 laizi) →
      Unjustified c laizi cards
  /-- Lua meets the laizi before the other card. -/
  | laiziFirst (w : Int) : w ≠ laizi →
      (cards.map (groupKey c.laizi)).Perm (List.replicate 1 w ++ List.replicate 1 laizi) →
      countValue c.pairs (cards.map (groupKey c.laizi)) 1 = laizi → Unjustified c laizi cards
  /-- The loop over the values ends with a line of two cards. -/
  | lastTwo : (cards.map (groupKey c.laizi)).Perm [13, 14] → Unjustified c laizi cards
  /-- A hard bomb of replacements. -/
  | hardBomb (w : Int) (n : Nat) : w ≠ laizi →
      (cards.map (groupKey c.laizi)).Perm (List.replicate n w) → (∀ card ∈ cards, color card ≠ 4) →
      n = 3 ∧ c.isTripleBomb = true ∨ n = 4 ∧ c.hasBomb = true → Unjustified c laizi cards

section Unjustified

variable {c : DiscardConf} {s : Submitted c} {list subs : List Int} {remain : Nat}

/-- The type of the replaced list. -/
def typeOf (c : DiscardConf) (cards : List Int) : Option (CardType × Option Int) :=
  let keys := cards.map (groupKey c.laizi)
  let remain := cards.countP fun card => some card = c.laizi
  match cards with
  | [card] => some (if wildColored cards = 1 then .laiziSingle else .single, some (value card))
  | _ =>
      (equalType c keys (wildColored cards) remain cards.length).elim
        (lineType c keys remain cards.length) fun typed => some (typed.1, some typed.2)

theorem getCardsType_eq (c : DiscardConf) (cards : List Int) (laiziReplace : Option (List Int)) :
    getCardsType c cards laiziReplace = typeOf c (substituted c cards laiziReplace) := rfl

theorem Parts.typeOf (parts : Parts s list subs remain) (more : 2 ≤ list.length) :
    typeOf c list = (equalType c (keysOf s list) (wildColored list) remain list.length).elim
      (lineType c (keysOf s list) remain list.length) fun typed => some (typed.1, some typed.2) := by
  have left := parts.remain_eq
  rcases list with _ | ⟨card, _ | ⟨other, list⟩⟩
  · cases more
  · exact absurd more (Nat.lt_irrefl 1)
  · subst left
    rfl

/-! ### Equal cards are justified by a card value -/

theorem combination_equal {kind : CardType} (pos : 0 < kind.copies) {v : Int} {values : List Int}
    {onlyWild : Prop} : Combination c kind v values onlyWild ↔
      values = List.replicate kind.copies v ∧ (kind.onlyLaizi = true → onlyWild) := by
  cases kind with
  | singleLine => cases pos
  | doubleLine => cases pos
  | _ => rfl

theorem Justified.legal {kind : CardType} (pos : 0 < kind.copies) {v : Int}
    (justified : Justified c s kind v) : 5 ≤ v ∧ v ≤ 14 := by
  obtain ⟨chosen, many, within, made⟩ := justified
  have equal := ((combination_equal pos).1 made).1
  have some_chosen : 0 < chosen.length := by
    rw [many]
    exact List.count_pos_iff.2 s.some_wild
  obtain ⟨x, mem⟩ := List.exists_mem_of_length_pos some_chosen
  have same : x = v := by
    have there : x ∈ List.replicate kind.copies v := by
      rw [← equal]
      exact List.mem_append_right _ mem
    exact (List.mem_replicate.1 there).2
  rw [← same]
  exact within x mem

theorem only_wild (none : s.own = []) : ∀ card ∈ s.cards, card = s.laizi := by
  intro card mem
  have out := List.filter_eq_nil_iff.1 none card mem
  simpa using out

theorem Parts.own_none (parts : Parts s list subs remain)
    (wild : wildColored list = list.length ∨ remain = list.length) : s.own = [] := by
  rcases wild with all | all
  · apply List.eq_nil_iff_forall_not_mem.2
    intro card held
    have there : card ∈ list :=
      parts.perm.symm.subset (List.mem_append_left _ (List.mem_append_left _ held))
    have colored := List.countP_eq_length.1 all card there
    exact own_color card held (of_decide_eq_true colored)
  · have length := parts.length
    have empty : tame s subs = [] := List.length_eq_zero_iff.1 (by omega)
    unfold tame at empty
    exact List.map_eq_nil_iff.1 (List.append_eq_nil_iff.1 empty).1

/-- Equal cards of a card's value are a combination of their type. -/
theorem Parts.equal_justified (parts : Parts s list subs remain) {kind : CardType} {w : Int} {k : Nat}
    (kinded : EqualKind c (wildColored list) remain list.length kind) (some_card : 0 < list.length)
    (all : k + remain = list.length) (made : tame s subs = List.replicate k w)
    (legal : 5 ≤ w ∧ w ≤ 14) : Justified c s kind w := by
  have pos : 0 < kind.copies := by
    rw [kinded.copies]
    exact some_card
  have subs_legal : ∀ v ∈ subs.map value, 5 ≤ v ∧ v ≤ 14 := by
    intro v mem
    have there : v ∈ tame s subs := List.mem_append_right _ mem
    rw [made] at there
    rw [(List.mem_replicate.1 there).2]
    exact legal
  apply parts.justified subs_legal (List.replicate remain w) List.length_replicate
  · intro v mem
    rw [(List.mem_replicate.1 mem).2]
    exact legal
  · apply (combination_equal pos).2
    constructor
    · rw [made, ← List.replicate_add, all, kinded.copies]
    · intro laizis
      exact only_wild (parts.own_none (kinded.only laizis))

/-- With one laizi left the first value that occurs once is the laizi or another card's. -/
theorem Parts.first_single (parts : Parts s list subs remain) (one : remain = 1) :
    countValue c.pairs (keysOf s list) 1 = s.laizi ∨
      countValue c.pairs (keysOf s list) 1 ∈ tame s subs := by
  have there : s.laizi ∈ valuesOf (keysOf s list) 1 :=
    (mem_valuesOf Nat.one_pos).2 (parts.count_laizi.trans one)
  have times : (keysOf s list).count (countValue c.pairs (keysOf s list) 1) = 1 :=
    countValue_count c.pairs_perm Nat.one_pos (List.length_pos_of_mem there)
  by_cases wild : countValue c.pairs (keysOf s list) 1 = s.laizi
  · exact .inl wild
  · rw [parts.count_keys wild] at times
    exact .inr (List.count_pos_iff.1 (by omega))

/-- What is asked of a type that is found. -/
def Safe (c : DiscardConf) (s : Submitted c) (list : List Int) (kind : CardType) (v : Int) : Prop :=
  Justified c s kind v ∧ (kind = .tripleBomb ∨ kind = .bomb → list = s.cards)

theorem Parts.equal_safe_iff (parts : Parts s list subs remain) {kind : CardType} {v : Int}
    (some_card : 0 < list.length)
    (kinded : EqualKind c (wildColored list) remain list.length kind)
    (valued : EqualValue c s (keysOf s list) subs remain list.length v) :
    Safe c s list kind v ↔ (5 ≤ v ∧ v ≤ 14) ∧ ¬ (kind = .tripleBomb ∨ kind = .bomb) := by
  have pos : 0 < kind.copies := by
    rw [kinded.copies]
    exact some_card
  constructor
  · rintro ⟨justified, same⟩
    refine ⟨justified.legal pos, fun hard => ?_⟩
    have tame_only := List.countP_eq_zero.1 (kinded.hard.1 hard).1 s.laizi
    rw [same hard] at tame_only
    exact tame_only s.some_wild (decide_eq_true (laizi_color s))
  · rintro ⟨legal, soft⟩
    refine ⟨?_, fun hard => absurd hard soft⟩
    have laizi_high := s.laizi_bounds
    rcases valued with ⟨w, k, equal, chosen⟩ | ⟨_, wild⟩
    · have same : v = w := by
        split at chosen
        · rename_i pair
          have there := parts.first_single pair.2
          rw [← chosen, equal.made] at there
          rcases there with wild | mem
          · omega
          · exact (List.mem_replicate.1 mem).2
        · exact chosen
      rw [same] at legal ⊢
      exact parts.equal_justified kinded some_card equal.all equal.made legal
    · omega

/-! ### Which equal cards are not justified -/

theorem Parts.perm_of_tame (parts : Parts s list subs remain) {values : List Int}
    (made : tame s subs = values) :
    (list.map (groupKey c.laizi)).Perm (values ++ List.replicate remain s.laizi) := by
  rw [← made]
  exact parts.keys

theorem Parts.unjustified_of_equal (parts : Parts s list subs remain) {kind : CardType} {v : Int}
    (kinded : EqualKind c (wildColored list) remain list.length kind)
    (valued : EqualValue c s (keysOf s list) subs remain list.length v)
    (not_safe : ¬ ((5 ≤ v ∧ v ≤ 14) ∧ ¬ (kind = .tripleBomb ∨ kind = .bomb))) :
    Unjustified c s.laizi list := by
  have few := parts.remain_le
  rcases valued with ⟨w, k, equal, chosen⟩ | ⟨wild, _⟩
  · have keys := parts.perm_of_tame equal.made
    have all := equal.all
    by_cases hard : kind = .tripleBomb ∨ kind = .bomb
    · obtain ⟨colorless, bomb⟩ := kinded.hard.1 hard
      have none_left : remain = 0 := by omega
      rw [none_left, List.replicate_zero, List.append_nil] at keys
      refine .hardBomb w k equal.other keys ?_ ?_
      · intro card mem
        simpa using List.countP_eq_zero.1 colorless card mem
      · rcases bomb with ⟨three, bombs⟩ | ⟨four, bombs⟩
        · exact .inl ⟨by omega, bombs⟩
        · exact .inr ⟨by omega, bombs⟩
    · by_cases legal : 5 ≤ w ∧ w ≤ 14
      · split at chosen
        · rename_i pair
          rw [pair.1, pair.2] at keys
          refine .laiziFirst w equal.other keys ?_
          rcases parts.first_single pair.2 with wild | mem
          · exact wild
          · rw [equal.made] at mem
            rw [chosen, (List.mem_replicate.1 mem).2] at not_safe
            exact absurd ⟨legal, hard⟩ not_safe
        · rw [chosen] at not_safe
          exact absurd ⟨legal, hard⟩ not_safe
      · have at_most := equal.few
        exact .noCard w k remain equal.pos (by omega) equal.not_two equal.other legal keys
  · rcases wild with ⟨two, four, alone⟩ | ⟨two, x, y, differ, both⟩
    · have length := parts.length
      have empty : tame s subs = [] := List.length_eq_zero_iff.1 (by omega)
      exact .laiziAlone remain (by omega) (by omega) (parts.perm_of_tame empty)
    · have free := laizi_not_tame s subs
      have keys := parts.perm_of_tame both
      rw [both] at free
      rw [two] at keys
      simp only [List.mem_cons, List.not_mem_nil, or_false, not_or] at free
      exact .laiziPair x y differ (Ne.symm free.1) (Ne.symm free.2) keys

/-- The value of equal cards is one of the group keys. -/
theorem Parts.value_mem (parts : Parts s list subs remain) {v : Int}
    (valued : EqualValue c s (keysOf s list) subs remain list.length v) : v ∈ keysOf s list := by
  have laizi_mem : 0 < remain → s.laizi ∈ keysOf s list := by
    intro some_laizi
    apply List.count_pos_iff.1
    rw [parts.count_laizi]
    exact some_laizi
  rcases valued with ⟨w, k, equal, chosen⟩ | ⟨wild, rfl⟩
  · split at chosen
    · rename_i pair
      rw [chosen]
      rcases parts.first_single pair.2 with wild | mem
      · rw [wild]
        exact laizi_mem (by omega)
      · exact parts.keys.symm.subset (List.mem_append_left _ mem)
    · rw [chosen]
      apply parts.keys.symm.subset
      rw [equal.made]
      exact List.mem_append_left _ (List.mem_replicate.2 ⟨Nat.ne_of_gt equal.pos, rfl⟩)
  · rcases wild with ⟨two, _, alone⟩ | ⟨two, _⟩
    · exact laizi_mem (by omega)
    · exact laizi_mem (by omega)

theorem Parts.not_safe_of_unjustified (parts : Parts s list subs remain) {kind : CardType} {v : Int}
    (kinded : EqualKind c (wildColored list) remain list.length kind)
    (valued : EqualValue c s (keysOf s list) subs remain list.length v)
    (unjustified : Unjustified c s.laizi list) :
    ¬ ((5 ≤ v ∧ v ≤ 14) ∧ ¬ (kind = .tripleBomb ∨ kind = .bomb)) := by
  rintro ⟨legal, soft⟩
  have laizi_high := s.laizi_bounds
  have value_mem := parts.value_mem valued
  have length_of : ∀ {keys : List Int}, (list.map (groupKey c.laizi)).Perm keys →
      list.length = keys.length := by
    intro keys perm
    rw [← perm.length_eq, List.length_map]
  rcases unjustified with ⟨w, k, m, _, _, _, _, bad, keys⟩ | ⟨m, _, _, keys⟩ |
    ⟨x, y, differ, x_other, y_other, keys⟩ | ⟨w, other, keys, first⟩ | keys |
    ⟨w, n, other, keys, colorless, bomb⟩
  · rcases List.mem_append.1 (keys.subset value_mem) with mem | mem
    · exact bad ((List.mem_replicate.1 mem).2 ▸ legal)
    · have := (List.mem_replicate.1 mem).2
      omega
  · have := (List.mem_replicate.1 (keys.subset value_mem)).2
    omega
  · have left : remain = 2 := by
      rw [← parts.count_laizi, show (keysOf s list).count s.laizi = _ from keys.count_eq s.laizi]
      simp [x_other, y_other]
    have four : list.length = 4 := length_of keys
    rcases valued with ⟨w, k, equal, _⟩ | ⟨_, wild⟩
    · have all := equal.all
      exact equal.not_two ⟨by omega, left⟩
    · omega
  · have left : remain = 1 := by
      rw [← parts.count_laizi, show (keysOf s list).count s.laizi = _ from keys.count_eq s.laizi]
      simp [other]
    have two : list.length = 2 := length_of keys
    rcases valued with ⟨w, k, equal, chosen⟩ | ⟨_, wild⟩
    · have all := equal.all
      rw [if_pos ⟨by omega, left⟩] at chosen
      have same : v = s.laizi := chosen.trans first
      omega
    · omega
  · have left : remain = 0 := by
      rw [← parts.count_laizi, show (keysOf s list).count s.laizi = _ from keys.count_eq s.laizi]
      apply List.count_eq_zero.2
      simp only [List.mem_cons, List.not_mem_nil, or_false]
      omega
    have two : list.length = 2 := length_of keys
    rcases valued with ⟨w, k, equal, _⟩ | ⟨_, wild⟩
    · have all := parts.perm_of_tame equal.made
      rw [left, List.replicate_zero, List.append_nil] at all
      have thirteen := (List.mem_replicate.1 (all.subset (keys.symm.subset (List.mem_cons_self)))).2
      have fourteen := (List.mem_replicate.1
        (all.subset (keys.symm.subset (List.mem_cons_of_mem _ List.mem_cons_self)))).2
      omega
    · omega
  · apply soft
    apply kinded.hard.2
    have length : list.length = n := (length_of keys).trans List.length_replicate
    refine ⟨?_, ?_⟩
    · apply List.countP_eq_zero.2
      intro card mem
      simpa using colorless card mem
    · rw [length]
      exact bomb

/-! ### Which types are found -/

theorem equalType_isSome {keys : List Int} {laiziCount count : Nat} : (equalType c keys laiziCount remain count).isSome ↔
    count = 2 ∧ (0 < countCounts keys 2 ∨ 0 < countCounts keys 1 ∧ remain = 1) ∨
    count = 3 ∧ (countCounts keys 3 = 1 ∨ countCounts keys 2 = 1 ∧ remain = 1 ∨
      countCounts keys 1 = 1 ∧ remain = 2) ∨
    count = 4 ∧ (countCounts keys 4 = 1 ∨ countCounts keys 3 = 1 ∧ remain = 1 ∨
      countCounts keys 2 = 1 ∧ remain = 2 ∨ countCounts keys 1 = 1 ∧ remain = 3) := by
  have of_ite : ∀ (p : Prop) [Decidable p] (a b : Option (CardType × Int)),
      (if p then a else b).isSome ↔ p ∧ a.isSome ∨ ¬ p ∧ b.isSome := by
    intro p _ a b
    split <;> simp [*]
  unfold equalType doubleType threeType fourType
  simp only [Option.isSome_or, Bool.or_eq_true, of_ite, Option.isSome_some, Option.isSome_none,
    Bool.false_eq_true]
  grind

/-- Equal cards with laizi left have a type, but for two of each. -/
theorem equal_isSome {keys : List Int} {laiziCount : Nat} {w laizi : Int} {k m : Nat} (pos : 0 < k)
    (two : 2 ≤ k + m) (four : k + m ≤ 4) (not_two : ¬ (k = 2 ∧ m = 2)) (other : w ≠ laizi)
    (perm : keys.Perm (List.replicate k w ++ List.replicate m laizi)) :
    (equalType c keys laiziCount m (k + m)).isSome := by
  have count : keys.count w = k := by
    rw [perm.count_eq, List.count_append, List.count_replicate_self, List.count_replicate]
    simp [Ne.symm other]
  have some_value : 0 < countCounts keys k :=
    List.length_pos_of_mem ((mem_valuesOf pos).2 count)
  have alone : k ≠ m → countCounts keys k = 1 := by
    intro differ
    by_cases some_laizi : 0 < m
    · have made : Consists keys k [w] m [laizi] :=
        ⟨by simpa using other, by simpa [List.flatMap_cons] using perm⟩
      have only := ((consists_iff pos some_laizi differ [w] [laizi]).1 made).1
      exact only.length_eq.symm
    · have none : m = 0 := by omega
      have made : Consists keys k [w] (k + 1) [] := by
        refine ⟨by simp, ?_⟩
        rw [none, List.replicate_zero, List.append_nil] at perm
        simpa [List.flatMap_cons] using perm
      have only := ((consists_iff pos (Nat.succ_pos k) (by omega) [w] []).1 made).1
      exact only.length_eq.symm
  apply equalType_isSome.2
  obtain rfl | rfl | rfl | rfl : k = 1 ∨ k = 2 ∨ k = 3 ∨ k = 4 := by omega
  all_goals grind

/-- A list without a type of equal cards that is not justified is the king's line of two. -/
theorem Parts.last_two_of_none (parts : Parts s list subs remain) (more : 2 ≤ list.length)
    (none : equalType c (keysOf s list) (wildColored list) remain list.length = none)
    (unjustified : Unjustified c s.laizi list) : (keysOf s list).Perm [13, 14] := by
  have missing : ¬ (equalType c (keysOf s list) (wildColored list) remain list.length).isSome := by
    rw [none]
    decide
  have length_of : ∀ {keys : List Int}, (list.map (groupKey c.laizi)).Perm keys →
      list.length = keys.length := by
    intro keys perm
    rw [← perm.length_eq, List.length_map]
  have left_of : ∀ {values : List Int} {m : Nat}, s.laizi ∉ values →
      (keysOf s list).Perm (values ++ List.replicate m s.laizi) → remain = m := by
    intro values m free perm
    rw [← parts.count_laizi, perm.count_eq, List.count_append, List.count_eq_zero.2 free,
      List.count_replicate_self, Nat.zero_add]
  rcases unjustified with ⟨w, k, m, pos, few, not_two, other, _, keys⟩ | ⟨m, two, few, keys⟩ |
    ⟨x, y, differ, x_other, y_other, keys⟩ | ⟨w, other, keys, first⟩ | keys |
    ⟨w, n, other, keys, _, bomb⟩
  · have left := left_of (by simp [Ne.symm other]) keys
    have length : list.length = k + m := by simpa using length_of keys
    rw [left, length] at missing
    exact absurd (equal_isSome pos (by omega) few not_two other keys) missing
  · have length : list.length = m := by simpa using length_of keys
    have made : Consists (keysOf s list) m [s.laizi] (m + 1) [] :=
      ⟨by simp, by simpa [keysOf, List.flatMap_cons] using keys⟩
    have only := ((consists_iff (by omega) (Nat.succ_pos m) (by omega) _ []).1 made).1.length_eq
    have found : countCounts (keysOf s list) m = 1 := only.symm
    apply absurd _ missing
    rw [equalType_isSome, length]
    obtain rfl | rfl | rfl : m = 2 ∨ m = 3 ∨ m = 4 := by omega
    · exact .inl ⟨rfl, .inl (by omega)⟩
    · exact .inr (.inl ⟨rfl, .inl found⟩)
    · exact .inr (.inr ⟨rfl, .inl found⟩)
  · have free : s.laizi ∉ [x, y] := by simp [Ne.symm x_other, Ne.symm y_other]
    have left := left_of free keys
    have length : list.length = 4 := length_of keys
    have made : Consists (keysOf s list) 2 [s.laizi] 1 [x, y] := by
      refine ⟨?_, keys.trans ?_⟩
      · simpa [differ] using free
      · simp only [List.flatMap_cons, List.flatMap_nil, List.append_nil]
        exact List.perm_append_comm
    have only := ((consists_iff (by decide) (by decide) (by decide) _ _).1 made).1.length_eq
    have found : countCounts (keysOf s list) 2 = 1 := only.symm
    apply absurd _ missing
    rw [equalType_isSome, length]
    exact .inr (.inr ⟨rfl, .inr (.inr (.inl ⟨found, left⟩))⟩)
  · have left := left_of (by simp [Ne.symm other]) keys
    have length : list.length = 1 + 1 := by simpa using length_of keys
    rw [left, length] at missing
    exact absurd (equal_isSome Nat.one_pos (by decide) (by decide) (by decide) other keys) missing
  · exact keys
  · have plain : (keysOf s list).Perm (List.replicate n w ++ List.replicate 0 s.laizi) := by
      rw [List.replicate_zero, List.append_nil]
      exact keys
    have left := left_of (by simp [Ne.symm other]) plain
    have length : list.length = n + 0 := by simpa using length_of keys
    rw [left, length] at missing
    exact absurd (equal_isSome (by omega) (by omega) (by omega) (by omega) other plain) missing

/-- The line of two is found. -/
theorem last_two_found {keys : List Int} (perm : keys.Perm [13, 14]) :
    lineType c keys 0 2 = some (.singleLine, some 13) := by
  have counts : keys.count = [13, 14].count := by
    funext v
    exact perm.count_eq v
  have doubles : isDoubleLine c.minDoubles [13, 14].count 0 [] 0 (valuesFrom 5) = [] := by
    unfold DiscardConf.minDoubles
    split <;> decide
  have singles : isSingleLine [13, 14].count 0 [] 0 (valuesFrom 5) = [13, 14] := by decide
  unfold lineType
  rw [counts, doubles, singles]
  rfl

theorem Parts.none_left_of_none (parts : Parts s list subs remain) (two : list.length = 2)
    (none : equalType c (keysOf s list) (wildColored list) remain list.length = none) :
    remain = 0 := by
  by_contra some_left
  have length := parts.length
  have pos : 0 < remain := by omega
  have found : 0 < countCounts (keysOf s list) remain :=
    List.length_pos_of_mem ((mem_valuesOf pos).2 parts.count_laizi)
  have isSome : (equalType c (keysOf s list) (wildColored list) remain list.length).isSome := by
    apply equalType_isSome.2
    refine .inl ⟨two, ?_⟩
    obtain one | both : remain = 1 ∨ remain = 2 := by omega
    · rw [one] at found
      exact .inr ⟨found, one⟩
    · rw [both] at found
      exact .inl found
  rw [none] at isSome
  cases isSome

theorem Parts.line_safe (parts : Parts s list subs remain) (more : 2 ≤ list.length)
    (none : equalType c (keysOf s list) (wildColored list) remain list.length = none)
    {kind : CardType} {v : Option Int}
    (found : lineType c (keysOf s list) remain list.length = some (kind, v))
    (justified : ¬ Unjustified c s.laizi list) :
    (∃ value, v = some value ∧ Justified c s kind value) ∧
      ¬ (kind = .tripleBomb ∨ kind = .bomb) := by
  obtain ⟨first, n, fillers, rfl, line⟩ := parts.line (by omega) found
  have low := line.low
  have high := line.high
  have length := parts.length
  have subs_legal : ∀ {row : List Int}, (∀ v ∈ row, v ∈ run first n) →
      (tame s subs ++ fillers).Perm row → ∀ v ∈ subs.map value, 5 ≤ v ∧ v ≤ 14 := by
    intro row inside perm v mem
    have there := perm.subset (List.mem_append_left fillers (List.mem_append_right _ mem))
    have := mem_run.1 (inside v there)
    omega
  rcases line.made with ⟨rfl, least, perm⟩ | ⟨rfl, long, count, perm⟩
  · refine ⟨⟨first, rfl, parts.justified ?_ fillers line.many line.within ⟨n, least, low, high, perm⟩⟩, by simp⟩
    apply subs_legal _ perm
    intro v mem
    obtain ⟨u, there, filler⟩ := List.mem_flatMap.1 mem
    rw [(List.mem_replicate.1 filler).2]
    exact there
  · have three : 3 ≤ n := by
      rcases long with three | last
      · exact three
      · by_contra short
        have two : n = 2 := by omega
        have thirteen : first = 13 := by omega
        apply justified
        apply Unjustified.lastTwo
        have left := parts.none_left_of_none (count.trans two) none
        rw [two, thirteen, List.length_eq_zero_iff.1 (line.many.trans left), List.append_nil] at perm
        have keys := parts.keys
        rw [left, List.replicate_zero, List.append_nil] at keys
        exact keys.trans perm
    refine ⟨⟨first, rfl, parts.justified ?_ fillers line.many line.within ⟨n, three, low, high, perm⟩⟩, by simp⟩
    exact subs_legal (fun v mem => mem) perm

/-! ### The condition -/

theorem groupKey_laizi (s : Submitted c) : groupKey c.laizi s.laizi = s.laizi := if_pos s.wild

theorem groupKey_other {card : Int} (other : card ≠ s.laizi) : groupKey c.laizi card = value card := by
  unfold groupKey
  rw [s.wild, if_neg]
  rintro ⟨⟩
  exact other rfl

theorem unjustified_one_iff {card : Int} :
    Unjustified c s.laizi [card] ↔ ¬ (5 ≤ value card ∧ value card ≤ 14) := by
  have laizi_high := s.laizi_bounds
  constructor
  · rintro (⟨w, k, m, pos, _, _, other, bad, keys⟩ | ⟨m, two, _, keys⟩ | ⟨x, y, _, _, _, keys⟩ |
      ⟨w, _, keys, _⟩ | keys | ⟨w, n, _, keys, _, bomb⟩) legal
    · have length := keys.length_eq
      simp only [List.map_cons, List.map_nil, List.length_cons, List.length_nil, List.length_append,
        List.length_replicate] at length
      have same : w ∈ [groupKey c.laizi card] := by
        apply keys.symm.subset
        exact List.mem_append_left _ (List.mem_replicate.2 ⟨by omega, rfl⟩)
      rw [List.mem_singleton] at same
      by_cases wild : card = s.laizi
      · rw [wild, groupKey_laizi] at same
        exact other same
      · rw [same, groupKey_other wild] at bad
        exact bad legal
    · have length := keys.length_eq
      simp at length
      omega
    · have length := keys.length_eq
      simp at length
    · have length := keys.length_eq
      simp at length
    · have length := keys.length_eq
      simp at length
    · have length := keys.length_eq
      simp at length
      omega
  · intro illegal
    have other : card ≠ s.laizi := by
      rintro rfl
      unfold value at illegal
      omega
    refine .noCard (value card) 1 0 Nat.one_pos (by decide) (by decide) ?_ illegal ?_
    · have := value_bounds card
      omega
    · rw [List.map_cons, groupKey_other other]
      exact .refl _

/-- A single card. -/
theorem Parts.one_safe_iff {card : Int} (parts : Parts s [card] subs remain) {kind : CardType}
    (kinded : kind = if wildColored [card] = 1 then .laiziSingle else .single) :
    Safe c s [card] kind (value card) ↔ ¬ Unjustified c s.laizi [card] := by
  have soft : ¬ (kind = .tripleBomb ∨ kind = .bomb) := by
    rw [kinded]
    split <;> simp
  have one : kind.copies = 1 := by
    rw [kinded]
    split <;> rfl
  have pos : 0 < kind.copies := by omega
  have some_laizi := List.count_pos_iff.2 s.some_wild
  have length := parts.length
  have count := parts.count
  rw [unjustified_one_iff, not_not]
  constructor
  · intro safe
    exact safe.1.legal pos
  · intro legal
    refine ⟨?_, fun hard => absurd hard soft⟩
    simp only [tame, List.length_append, List.length_map, List.length_cons, List.length_nil] at length
    have onlyWild := only_wild (s := s) (List.length_eq_zero_iff.1 (by omega))
    by_cases wild : card = s.laizi
    · have left : remain = 1 := by
        rw [← parts.count_laizi, wild, keysOf, List.map_cons, groupKey_laizi]
        simp
      have empty : tame s subs = [] := by
        apply List.length_eq_zero_iff.1
        rw [tame, List.length_append, List.length_map, List.length_map]
        omega
      have none_replaced : subs = [] := List.length_eq_zero_iff.1 (by omega)
      refine parts.justified ?_ [value card] ?_ ?_ ?_
      · rw [none_replaced]
        nofun
      · exact left.symm
      · intro v mem
        rw [List.mem_singleton.1 mem]
        exact legal
      · apply (combination_equal pos).2
        rw [empty, one]
        exact ⟨rfl, fun _ => onlyWild⟩
    · have left : remain = 0 := by
        rw [← parts.count_laizi, keysOf, List.map_cons, groupKey_other wild]
        apply List.count_eq_zero.2
        have := value_bounds card
        have := s.laizi_bounds
        simp only [List.map_nil, List.mem_singleton]
        omega
      have keys := parts.keys
      rw [keysOf, List.map_cons, groupKey_other wild, left, List.replicate_zero, List.append_nil] at keys
      have made : tame s subs = [value card] := List.perm_singleton.1 keys.symm
      refine parts.justified ?_ [] ?_ ?_ ?_
      · intro v mem
        have there : v ∈ tame s subs := List.mem_append_right _ mem
        rw [made] at there
        rw [List.mem_singleton.1 there]
        exact legal
      · exact left.symm
      · nofun
      · apply (combination_equal pos).2
        rw [made, one]
        exact ⟨rfl, fun _ => onlyWild⟩

theorem wildcardSafe_iff (c : DiscardConf) (s : Submitted c) (laiziReplace : Option (List Int)) :
    WildcardSafe c s laiziReplace ↔
      ¬ Unjustified c s.laizi (substituted c s.cards laiziReplace) := by
  obtain ⟨subs, remain, parts⟩ := substituted_parts s laiziReplace
  unfold WildcardSafe
  rw [getCardsType_eq]
  generalize substituted c s.cards laiziReplace = list at parts
  have some_card : 0 < list.length := by
    have length := parts.length
    have count := parts.count
    have some_laizi := List.count_pos_iff.2 s.some_wild
    rw [tame, List.length_append, List.length_map, List.length_map] at length
    omega
  by_cases more : 2 ≤ list.length
  · rw [parts.typeOf more]
    cases equal : equalType c (keysOf s list) (wildColored list) remain list.length with
    | none =>
        rw [Option.elim_none]
        constructor
        · intro safe unjustified
          have keys := parts.last_two_of_none more equal unjustified
          have two : list.length = 2 := by
            rw [← List.length_map (groupKey c.laizi)]
            exact keys.length_eq
          have left := parts.none_left_of_none two equal
          rw [left, two, last_two_found keys] at safe
          obtain ⟨⟨value_, same, chosen, _, _, n, long, _, high, _⟩, _⟩ := safe _ _ rfl
          cases same
          omega
        · intro justified kind v found
          have safe := parts.line_safe more equal found justified
          exact ⟨safe.1, fun hard => absurd hard safe.2⟩
    | some typed =>
        obtain ⟨kind, v⟩ := typed
        obtain ⟨kinded, valued⟩ := parts.equal equal
        have safe := parts.equal_safe_iff some_card kinded valued
        rw [Option.elim_some]
        constructor
        · intro given unjustified
          obtain ⟨⟨value_, same, justified⟩, hard⟩ := given kind (some v) rfl
          cases same
          exact parts.not_safe_of_unjustified kinded valued unjustified (safe.1 ⟨justified, hard⟩)
        · intro justified kind' v' same
          cases same
          have fine := not_imp_comm.1 (parts.unjustified_of_equal kinded valued) justified
          have result := safe.2 fine
          exact ⟨⟨v, rfl, result.1⟩, result.2⟩
  · obtain ⟨card, rfl⟩ := List.length_eq_one_iff.1 (by omega : list.length = 1)
    have safe := parts.one_safe_iff rfl
    constructor
    · intro given
      obtain ⟨⟨value_, same, justified⟩, hard⟩ := given _ _ rfl
      cases same
      exact safe.1 ⟨justified, hard⟩
    · intro justified kind v same
      cases same
      have result := safe.2 justified
      exact ⟨⟨_, rfl, result.1⟩, result.2⟩

end Unjustified

/-- Three fives and a laizi that the client replaces by the fourth five are a hard bomb. -/
theorem replaced_bomb_hard :
    ∃ (c : DiscardConf) (s : Submitted c) (laiziReplace : Option (List Int)),
      ¬ WildcardSafe c s laiziReplace := by
  have deck : ∀ card, (some 85 : Option Int) = some card → 85 ≤ card ∧ card ≤ 94 := by
    rintro _ ⟨⟩
    decide
  have dealt : ∀ card ∈ [5, 25, 45, 85], card = (85 : Int) ∨ card ∈ allCards := by decide
  refine ⟨⟨3, none, some 85, id, fun _ => .refl _, deck⟩,
    ⟨85, rfl, [5, 25, 45, 85], dealt, by decide⟩, some [65], ?_⟩
  intro safe
  have hard := (safe .bomb (some 5) rfl).2 (.inr rfl)
  cases hard

end FkServer.PdkSc
