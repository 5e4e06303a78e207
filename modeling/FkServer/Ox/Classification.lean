import FkServer.Ox.Split
import Mathlib.Data.List.Sublists

/-!
What the type of five cards means: the special types as conditions on the cards, the bulls
over all ways to choose three of them, and when `cards_type` gives the greatest of these.
-/
namespace FkServer.Ox

/-! ### The types a hand has -/

/-- Five values in a row. -/
def Run (values : List Int) : Prop := ∃ v, values.Perm [v, v + 1, v + 2, v + 3, v + 4]

/-- In `oxp` the ace also stands behind the king. -/
def RunOxp (values : List Int) : Prop := Run values ∨ values.Perm [1, 10, 11, 12, 13]

/-- What a special type asks of the cards, over what counts as a run. -/
def Satisfies (run : List Int → Prop) (cards : List Int) : CardsType → Prop
  | .small5 => (∀ v ∈ cards.map getValue, v < 5) ∧ (cards.map getValue).sum ≤ 10
  | .bomb => ∃ v, (cards.map getValue).count v = 4
  | .hulu => (∃ v, (cards.map getValue).count v = 3) ∧ ∃ v, (cards.map getValue).count v = 2
  | .jinhua => ∀ v ∈ cards.map getValue, 10 < v
  | .yinhua => ∀ v ∈ cards.map getValue, 10 ≤ v
  | .tonghua => ∃ color, ∀ c ∈ cards.map getColor, c = color
  | .shunzi => run (cards.map getValue)
  | .tonghuashun => (∃ color, ∀ c ∈ cards.map getColor, c = color) ∧ run (cards.map getValue)
  | .oxNone | .ox _ => False

/-- A special type that the cards have and the rules of the table know. -/
def Enabled (opt : CardsType → Bool) (run : List Int → Prop) (cards : List Int)
    (type : CardsType) : Prop :=
  opt type = true ∧ Satisfies run cards type

/-- Three of the cards are a multiple of ten, and the other two give the type. -/
def Bull (cards : List Int) (type : CardsType) : Prop :=
  ∃ triple two, (triple ++ two).Perm cards ∧ triple.length = 3 ∧ oxSum triple % 10 = 0 ∧
    type = oxType (oxSum two)

def BestBull (cards : List Int) (type : CardsType) : Prop :=
  Bull cards type ∧ (∀ other, Bull cards other → other.number ≤ type.number) ∨
    type = .oxNone ∧ ∀ other, ¬ Bull cards other

/-- The greatest enabled type of the cards or, if there is none, the best bull. -/
def Best (opt : CardsType → Bool) (run : List Int → Prop) (cards : List Int)
    (type : CardsType) : Prop :=
  Enabled opt run cards type ∧
      (∀ other, Enabled opt run cards other → other.number ≤ type.number) ∨
    (∀ other, ¬ Enabled opt run cards other) ∧ BestBull cards type

/-! ### The bulls -/

theorem splits_complete {α : Type} {list triple : List α} (five : list.length = 5)
    (part : triple.Subperm list) (three : triple.length = 3) :
    ∃ split ∈ splits list, split.1.Perm triple := by
  obtain ⟨chosen, same, within⟩ := part
  have listed : chosen ∈ List.sublistsLen 3 list :=
    List.mem_sublistsLen.2 ⟨within, same.length_eq.trans three⟩
  match list, five with
  | [a, b, c, d, e], _ =>
      have turned : chosen ∈ ((splits [a, b, c, d, e]).map Prod.fst).reverse := listed
      obtain ⟨split, mem, rfl⟩ := List.mem_map.1 (List.mem_reverse.1 turned)
      exact ⟨split, mem, same⟩

/-- All bulls of the cards have the same type. -/
theorem Bull.type_eq {cards : List Int} {type : CardsType} (bull : Bull cards type) :
    type = oxType (oxSum cards) := by
  obtain ⟨triple, two, whole, _, ten, rfl⟩ := bull
  have rest : (oxSum triple + oxSum two) % 10 = oxSum two % 10 := by omega
  rw [← oxSum_perm whole, oxSum_append]
  unfold oxType
  rw [rest]

theorem hasBull_iff (hand : Hand) (lua : LuaSort) :
    hasBull (sortedValues lua hand.cards) = true ↔ ∃ type, Bull hand.cards type := by
  have order := sortedCards_perm lua hand.cards
  have five : (sortedCards lua hand.cards).length = 5 := order.length_eq.trans hand.five
  constructor
  · intro found
    have some_bull : bulls (sortedCards lua hand.cards) ≠ [] := by
      intro no_bull
      rw [bulls_eq_nil_iff] at no_bull
      exact Bool.eq_false_iff.1 no_bull found
    obtain ⟨bull, mem⟩ := List.exists_mem_of_ne_nil _ some_bull
    obtain ⟨split, found, rfl⟩ := List.mem_map.1 mem
    obtain ⟨listed, ten⟩ := List.mem_filter.1 found
    have three : split.1.length = 3 := by
      have shape : ∀ l : List Int, l.length = 5 → ∀ s ∈ splits l, s.1.length = 3 := by
        intro l len
        match l, len with
        | [_, _, _, _, _], _ => simp [splits]
      exact shape _ five split listed
    exact ⟨_, split.1, split.2, (splits_perm listed).trans order, three, of_decide_eq_true ten, rfl⟩
  · rintro ⟨type, triple, two, whole, three, ten, rfl⟩
    have part : triple.Subperm (sortedCards lua hand.cards) :=
      (List.sublist_append_left triple two).subperm.trans (whole.trans order.symm).subperm
    obtain ⟨split, listed, same⟩ := splits_complete five part three
    have mem : (⟨some (oxType (oxSum split.2)), [split.1, split.2]⟩ : Typed) ∈
        bulls (sortedCards lua hand.cards) := by
      refine List.mem_map.2 ⟨split, List.mem_filter.2 ⟨listed, ?_⟩, rfl⟩
      rw [oxSum_perm same]
      exact decide_eq_true ten
    exact hasBull_of_mem mem

theorem bestBull (hand : Hand) (lua : LuaSort) :
    BestBull hand.cards (if hasBull (sortedValues lua hand.cards) then
      oxType ((sortedValues lua hand.cards).map cap).sum else .oxNone) := by
  rw [sum_sortedValues]
  split
  · rename_i found
    obtain ⟨type, bull⟩ := (hasBull_iff hand lua).1 found
    refine .inl ⟨bull.type_eq ▸ bull, ?_⟩
    intro other another
    rw [another.type_eq]
  · rename_i missing
    refine .inr ⟨rfl, ?_⟩
    intro other bull
    exact missing ((hasBull_iff hand lua).2 ⟨other, bull⟩)

/-! ### The special types -/

/-- A list of types that looks at the cards as the conditions of the types say. -/
def Looks (run : List Int → Prop) (cards : List Int) (types : List (CardsType × Bool)) : Prop :=
  ∀ entry ∈ types, entry.2 = true ↔ Satisfies run cards entry.1

/-- Looking through types that fall in rank finds the greatest one there is. -/
theorem special_greatest {opt : CardsType → Bool} {run : List Int → Prop} {cards : List Int}
    {types : List (CardsType × Bool)} {type : CardsType} (looks : Looks run cards types)
    (falls : types.Pairwise fun a b => b.1.number < a.1.number)
    (found : special opt types = some type) :
    Enabled opt run cards type ∧ type ∈ types.map Prod.fst ∧
      ∀ other ∈ types.map Prod.fst, Enabled opt run cards other → other.number ≤ type.number := by
  have listed := special_mem found
  unfold special at found
  obtain ⟨entry, first, rfl⟩ := Option.map_eq_some_iff.1 found
  obtain ⟨holds, before, after, rfl, earlier⟩ := List.find?_eq_some_iff_append.1 first
  rw [Bool.and_eq_true] at holds
  have mem : entry ∈ before ++ entry :: after := by simp
  refine ⟨⟨holds.1, (looks entry mem).1 holds.2⟩, listed, ?_⟩
  intro other mem_other enabled
  obtain ⟨another, found_at, rfl⟩ := List.mem_map.1 mem_other
  have true_there := (looks another found_at).2 enabled.2
  rcases List.mem_append.1 found_at with was_before | was_after
  · have passed := earlier another was_before
    simp [enabled.1, true_there] at passed
  · rcases List.mem_cons.1 was_after with rfl | later
    · exact Nat.le_refl _
    · have tail := (List.pairwise_append.1 falls).2.1
      exact Nat.le_of_lt ((List.pairwise_cons.1 tail).1 another later)

theorem special_none {opt : CardsType → Bool} {run : List Int → Prop} {cards : List Int}
    {types : List (CardsType × Bool)} (looks : Looks run cards types)
    (missing : special opt types = none) :
    ∀ other ∈ types.map Prod.fst, ¬ Enabled opt run cards other := by
  intro other mem enabled
  obtain ⟨entry, listed, rfl⟩ := List.mem_map.1 mem
  have passed := List.find?_eq_none.1 (Option.map_eq_none_iff.1 missing) entry listed
  simp [enabled.1, (looks entry listed).2 enabled.2] at passed

/-- The special types, the greatest first. -/
def specials : List CardsType :=
  [.tonghuashun, .small5, .bomb, .hulu, .jinhua, .yinhua, .tonghua, .shunzi]

theorem Enabled.mem {opt : CardsType → Bool} {run : List Int → Prop} {cards : List Int}
    {type : CardsType} (enabled : Enabled opt run cards type) : type ∈ specials := by
  cases type with
  | oxNone => exact enabled.2.elim
  | ox v => exact enabled.2.elim
  | shunzi | tonghua | yinhua | jinhua | hulu | bomb | small5 | tonghuashun => decide

/-! ### The conditions on the sorted values -/

section Values

variable (hand : Hand) (lua : LuaSort)

theorem values_perm : (sortedValues lua hand.cards).Perm (hand.cards.map getValue) :=
  (sortedCards_perm lua hand.cards).map getValue

theorem values_five : (sortedValues lua hand.cards).length = 5 := by
  rw [(values_perm hand lua).length_eq, List.length_map, hand.five]

theorem values_fall : (sortedValues lua hand.cards).Pairwise fun a b => b ≤ a := by
  rw [sortedValues, List.pairwise_map]
  apply (lua.sorted _ (LuaSort.strictOrder_key getValue) hand.cards).imp
  intro a b h
  rw [decide_eq_false_iff_not] at h
  omega

theorem isSmall5_iff (run : List Int → Prop) :
    isSmall5 (sortedValues lua hand.cards) = true ↔ Satisfies run hand.cards .small5 := by
  have same := values_perm hand lua
  simp only [isSmall5, Satisfies, Bool.and_eq_true, List.all_eq_true, decide_eq_true_eq,
    same.sum_eq, same.mem_iff]

theorem hasCount_iff {n : Nat} (pos : 0 < n) :
    hasCount (sortedValues lua hand.cards) n = true ↔ ∃ v, (hand.cards.map getValue).count v = n := by
  have same := values_perm hand lua
  unfold hasCount
  rw [List.any_eq_true]
  constructor
  · rintro ⟨v, _, times⟩
    exact ⟨v, (same.count_eq v).symm.trans (of_decide_eq_true times)⟩
  · rintro ⟨v, times⟩
    rw [← same.count_eq v] at times
    exact ⟨v, List.count_pos_iff.1 (times ▸ pos), decide_eq_true times⟩

theorem all_iff (p : Int → Bool) : (sortedValues lua hand.cards).all p = true ↔
    ∀ v ∈ hand.cards.map getValue, p v = true := by
  rw [List.all_eq_true]
  exact forall_congr' fun v => imp_congr_left (values_perm hand lua).mem_iff

theorem sameColor_iff : sameColor (sortedCards lua hand.cards) = true ↔
    ∃ color, ∀ c ∈ hand.cards.map getColor, c = color := by
  rw [sameColor_perm (sortedCards_perm lua hand.cards), sameColor, decide_eq_true_eq,
    List.length_eq_one_iff]
  constructor
  · rintro ⟨color, only⟩
    refine ⟨color, ?_⟩
    intro c mem
    rw [← List.mem_dedup, only] at mem
    exact List.mem_singleton.1 mem
  · rintro ⟨color, only⟩
    have all : hand.cards.map getColor = List.replicate 5 color := by
      apply List.eq_replicate_iff.2
      refine ⟨?_, only⟩
      rw [List.length_map, hand.five]
    exact ⟨color, by rw [all, List.replicate_dedup (by decide)]⟩

/-- Values that fall are known from what they are. -/
theorem values_eq {values : List Int} (same : (hand.cards.map getValue).Perm values)
    (falls : values.reverse.Pairwise fun a b => b ≤ a) :
    sortedValues lua hand.cards = values.reverse := by
  have order := ((values_perm hand lua).trans same).trans values.reverse_perm.symm
  exact order.eq_of_pairwise (fun a b _ _ h h' => Int.le_antisymm h' h) (values_fall hand lua) falls

theorem isSeq_iff : isSeq (sortedValues lua hand.cards) = true ↔
    Run (hand.cards.map getValue) := by
  constructor
  · intro steps
    have falls := values_fall hand lua
    have same := values_perm hand lua
    match values : sortedValues lua hand.cards, values_five hand lua with
    | [a, b, c, d, e], _ =>
        rw [values] at steps falls same
        simp only [isSeq, Bool.and_eq_true, decide_eq_true_eq, and_true] at steps
        simp only [List.pairwise_cons, List.mem_cons, List.not_mem_nil, or_false,
          forall_eq_or_imp, forall_eq] at falls
        obtain ⟨ab, bc, cd, de⟩ := steps
        rw [abs_of_nonneg (by omega)] at ab bc cd de
        have row : [a, b, c, d, e] = [e, e + 1, e + 2, e + 3, e + 4].reverse := by
          simp
          omega
        refine ⟨e, same.symm.trans ?_⟩
        rw [row]
        exact List.reverse_perm _
  · rintro ⟨v, row⟩
    have values := values_eq hand lua row (by simp)
    rw [values]
    simp [isSeq]

theorem isSeqOxp_iff : isSeqOxp (sortedValues lua hand.cards) = true ↔
    RunOxp (hand.cards.map getValue) := by
  unfold isSeqOxp RunOxp
  rw [Bool.or_eq_true, isSeq_iff, decide_eq_true_eq]
  apply or_congr_right
  constructor
  · intro values
    have same := (values_perm hand lua).symm
    rw [values] at same
    exact same.trans (List.reverse_perm [1, 10, 11, 12, 13])
  · intro row
    exact values_eq hand lua row (by decide)

end Values

/-! ### Types that exclude each other -/

section Exclusions

variable {hand : Hand}

theorem value_bounds (hand : Hand) : ∀ v ∈ hand.cards.map getValue, 1 ≤ v ∧ v ≤ 13 := by
  intro v mem
  obtain ⟨card, held, rfl⟩ := List.mem_map.1 mem
  have deck : ∀ card ∈ allCards, 1 ≤ getValue card ∧ getValue card ≤ 13 := by decide
  exact deck card (hand.dealt card held)

theorem exists_value (hand : Hand) : ∃ v, v ∈ hand.cards.map getValue := by
  apply List.exists_mem_of_length_pos
  rw [List.length_map, hand.five]
  decide

theorem run_count_le {values : List Int} (run : Run values) (v : Int) : values.count v ≤ 1 := by
  obtain ⟨first, row⟩ := run
  have distinct : [first, first + 1, first + 2, first + 3, first + 4].Nodup := by simp
  rw [row.count_eq]
  exact List.nodup_iff_count_le_one.1 distinct v

theorem small5_not_run {run : List Int → Prop} (small : Satisfies run hand.cards .small5) :
    ¬ Run (hand.cards.map getValue) := by
  rintro ⟨first, row⟩
  have last := small.1 (first + 4) (row.mem_iff.2 (by simp))
  have low := value_bounds hand first (row.mem_iff.2 (by simp))
  omega

theorem bomb_not_run {run : List Int → Prop} (bomb : Satisfies run hand.cards .bomb) :
    ¬ Run (hand.cards.map getValue) := by
  intro row
  obtain ⟨v, four⟩ := bomb
  have := run_count_le row v
  omega

theorem hulu_not_run {run : List Int → Prop} (hulu : Satisfies run hand.cards .hulu) :
    ¬ Run (hand.cards.map getValue) := by
  intro row
  obtain ⟨⟨v, three⟩, _⟩ := hulu
  have := run_count_le row v
  omega

theorem yinhua_not_run {run : List Int → Prop} (yinhua : Satisfies run hand.cards .yinhua) :
    ¬ Run (hand.cards.map getValue) := by
  rintro ⟨first, row⟩
  have low := yinhua first (row.mem_iff.2 (by simp))
  have high := value_bounds hand (first + 4) (row.mem_iff.2 (by simp))
  omega

theorem yinhua_not_small5 {run : List Int → Prop} (yinhua : Satisfies run hand.cards .yinhua) :
    ¬ Satisfies run hand.cards .small5 := by
  intro small
  obtain ⟨v, mem⟩ := exists_value hand
  have := yinhua v mem
  have := small.1 v mem
  omega

theorem jinhua_yinhua {run : List Int → Prop} (jinhua : Satisfies run hand.cards .jinhua) :
    Satisfies run hand.cards .yinhua := fun v mem => Int.le_of_lt (jinhua v mem)

theorem count_add_count_le {v w : Int} (differ : v ≠ w) (values : List Int) :
    values.count v + values.count w ≤ values.length := by
  induction values with
  | nil => exact Nat.le_refl _
  | cons a rest ih =>
      simp only [List.count_cons, List.length_cons, beq_iff_eq]
      split <;> split <;> omega

theorem bomb_not_hulu {run : List Int → Prop} (bomb : Satisfies run hand.cards .bomb) :
    ¬ Satisfies run hand.cards .hulu := by
  obtain ⟨v, four⟩ := bomb
  rintro ⟨⟨w, three⟩, _⟩
  have differ : v ≠ w := by
    rintro rfl
    omega
  have := count_add_count_le differ (hand.cards.map getValue)
  rw [List.length_map, hand.five] at this
  omega

/-- Any three of five tens are a bull. -/
theorem yinhua_bull {run : List Int → Prop} (yinhua : Satisfies run hand.cards .yinhua) :
    ∃ type, Bull hand.cards type := by
  refine ⟨_, hand.cards.take 3, hand.cards.drop 3, ?_, ?_, ?_, rfl⟩
  · rw [List.take_append_drop]
  · rw [List.length_take, hand.five]
    rfl
  · have tens : ((hand.cards.take 3).map getOxValue) = List.replicate 3 10 := by
      apply List.eq_replicate_iff.2
      constructor
      · rw [List.length_map, List.length_take, hand.five]
        rfl
      · intro v mem
        obtain ⟨card, taken, rfl⟩ := List.mem_map.1 mem
        exact if_pos (yinhua _ (List.mem_map_of_mem (List.mem_of_mem_take taken)))
    rw [oxSum, tens]
    rfl

end Exclusions

/-! ### The greatest type -/

section Greatest

variable (hand : Hand) (lua : LuaSort) (opt : CardsType → Bool)

theorem typeOxp_best : Best opt RunOxp hand.cards
    (typeOxp opt (sortedValues lua hand.cards) (sameColor (sortedCards lua hand.cards))) := by
  unfold typeOxp
  have looks : Looks RunOxp hand.cards
      [(.tonghuashun, sameColor (sortedCards lua hand.cards) &&
          isSeqOxp (sortedValues lua hand.cards)),
        (.small5, isSmall5 (sortedValues lua hand.cards)),
        (.bomb, hasCount (sortedValues lua hand.cards) 4),
        (.hulu, hasCount (sortedValues lua hand.cards) 3 &&
          hasCount (sortedValues lua hand.cards) 2),
        (.jinhua, (sortedValues lua hand.cards).all fun v => 10 < v),
        (.yinhua, (sortedValues lua hand.cards).all fun v => 10 ≤ v),
        (.tonghua, sameColor (sortedCards lua hand.cards)),
        (.shunzi, isSeqOxp (sortedValues lua hand.cards))] := by
    simp only [Looks, List.forall_mem_cons, Bool.and_eq_true, sameColor_iff, isSeqOxp_iff,
      isSmall5_iff hand lua RunOxp, hasCount_iff hand lua (by decide : 0 < 4),
      hasCount_iff hand lua (by decide : 0 < 3), hasCount_iff hand lua (by decide : 0 < 2),
      all_iff, decide_eq_true_eq, Satisfies]
    simp
  cases found : specialOxp opt (sortedValues lua hand.cards)
      (sameColor (sortedCards lua hand.cards)) with
  | some type =>
      obtain ⟨enabled, _, greatest⟩ := special_greatest looks (by simp [CardsType.number]) found
      exact .inl ⟨enabled, fun other there => greatest other there.mem there⟩
  | none =>
      have nothing := special_none looks found
      exact .inr ⟨fun other there => nothing other there.mem there, bestBull hand lua⟩

/-- Where `ox` goes wrong: four or five court cards are found before a full house, and the
types looked for last are not looked for without a bull. -/
def MissedOx (opt : CardsType → Bool) (cards : List Int) : Prop :=
  Enabled opt Run cards .hulu ∧ (Enabled opt Run cards .jinhua ∨ Enabled opt Run cards .yinhua) ∨
    (∀ type, ¬ Bull cards type) ∧ ¬ Enabled opt Run cards .small5 ∧
      ¬ Enabled opt Run cards .bomb ∧
      ∃ type ∈ [CardsType.hulu, .tonghuashun, .tonghua, .shunzi], Enabled opt Run cards type

/-- Court cards and tens make a bull, so that with them only a full house is missed. -/
theorem missed_iff_hulu {hand : Hand} {opt : CardsType → Bool}
    (yinhua : Satisfies Run hand.cards .yinhua)
    (court : Enabled opt Run hand.cards .jinhua ∨ Enabled opt Run hand.cards .yinhua) :
    MissedOx opt hand.cards ↔ Enabled opt Run hand.cards .hulu := by
  constructor
  · rintro (⟨hulu, _⟩ | ⟨no_bull, _⟩)
    · exact hulu
    · obtain ⟨type, bull⟩ := yinhua_bull yinhua
      exact absurd bull (no_bull type)
  · intro hulu
    exact .inl ⟨hulu, court⟩

/-- A type found among the first ones is the greatest unless a full house is above it. -/
theorem first_best_iff {type : CardsType} (enabled : Enabled opt Run hand.cards type)
    (listed : type ∈ [CardsType.small5, .bomb, .jinhua, .yinhua])
    (greatest : ∀ other ∈ [CardsType.small5, .bomb, .jinhua, .yinhua],
      Enabled opt Run hand.cards other → other.number ≤ type.number) :
    Best opt Run hand.cards type ↔ ¬ MissedOx opt hand.cards := by
  have not_run : ¬ Run (hand.cards.map getValue) := by
    simp only [List.mem_cons, List.not_mem_nil, or_false] at listed
    rcases listed with rfl | rfl | rfl | rfl
    · exact small5_not_run enabled.2
    · exact bomb_not_run enabled.2
    · exact yinhua_not_run (jinhua_yinhua enabled.2)
    · exact yinhua_not_run enabled.2
  have best_iff : Best opt Run hand.cards type ↔
      (Enabled opt Run hand.cards .hulu → 25 ≤ type.number) := by
    constructor
    · rintro (best | best) hulu
      · exact best.2 .hulu hulu
      · exact absurd enabled (best.1 type)
    · intro above_hulu
      refine .inl ⟨enabled, ?_⟩
      intro other there
      have low : 23 ≤ type.number := by
        have all : ∀ type ∈ [CardsType.small5, .bomb, .jinhua, .yinhua], 23 ≤ type.number := by
          decide
        exact all type listed
      have mem := there.mem
      simp only [specials, List.mem_cons, List.not_mem_nil, or_false] at mem
      rcases mem with rfl | rfl | rfl | rfl | rfl | rfl | rfl | rfl
      · exact absurd there.2.2 not_run
      · exact greatest _ (by decide) there
      · exact greatest _ (by decide) there
      · exact above_hulu there
      · exact greatest _ (by decide) there
      · exact greatest _ (by decide) there
      · exact Nat.le_trans (by decide) low
      · exact Nat.le_trans (by decide) low
  rw [best_iff]
  simp only [List.mem_cons, List.not_mem_nil, or_false] at listed
  rcases listed with rfl | rfl | rfl | rfl
  · refine iff_of_true (fun _ => by decide) ?_
    rintro (⟨_, jinhua | yinhua⟩ | ⟨_, not_small, _⟩)
    · exact yinhua_not_small5 (jinhua_yinhua jinhua.2) enabled.2
    · exact yinhua_not_small5 yinhua.2 enabled.2
    · exact not_small enabled
  · refine iff_of_true (fun _ => by decide) ?_
    rintro (⟨hulu, _⟩ | ⟨_, _, not_bomb, _⟩)
    · exact bomb_not_hulu enabled.2 hulu.2
    · exact not_bomb enabled
  · rw [missed_iff_hulu (jinhua_yinhua enabled.2) (.inl enabled)]
    exact imp_congr_right fun _ => by decide
  · rw [missed_iff_hulu enabled.2 (.inr enabled)]
    exact imp_congr_right fun _ => by decide

/-- Looking for a full house before a straight flush makes no difference. -/
theorem specialOxLast_eq : specialOxLast opt (sortedValues lua hand.cards)
    (sameColor (sortedCards lua hand.cards)) = special opt
      [(.tonghuashun, sameColor (sortedCards lua hand.cards) &&
          isSeq (sortedValues lua hand.cards)),
        (.hulu, hasCount (sortedValues lua hand.cards) 3 &&
          hasCount (sortedValues lua hand.cards) 2),
        (.tonghua, sameColor (sortedCards lua hand.cards)),
        (.shunzi, isSeq (sortedValues lua hand.cards))] := by
  unfold specialOxLast special
  cases steps : isSeq (sortedValues lua hand.cards) with
  | false => simp [List.find?_cons]
  | true =>
      have row := (isSeq_iff hand lua).1 steps
      have no_hulu : (hasCount (sortedValues lua hand.cards) 3 &&
          hasCount (sortedValues lua hand.cards) 2) = false := by
        apply Bool.eq_false_iff.2
        intro both
        rw [Bool.and_eq_true, hasCount_iff hand lua (by decide),
          hasCount_iff hand lua (by decide)] at both
        exact @hulu_not_run hand Run both row
      rw [no_hulu]
      simp [List.find?_cons]

theorem looks_last : Looks Run hand.cards
    [(.tonghuashun, sameColor (sortedCards lua hand.cards) &&
        isSeq (sortedValues lua hand.cards)),
      (.hulu, hasCount (sortedValues lua hand.cards) 3 &&
        hasCount (sortedValues lua hand.cards) 2),
      (.tonghua, sameColor (sortedCards lua hand.cards)),
      (.shunzi, isSeq (sortedValues lua hand.cards))] := by
  simp only [Looks, List.forall_mem_cons, Bool.and_eq_true, sameColor_iff, isSeq_iff,
    hasCount_iff hand lua (by decide : 0 < 3), hasCount_iff hand lua (by decide : 0 < 2),
    Satisfies]
  simp

/-- Without one of the first types, all is well if there is a bull or no special type. -/
theorem last_best_iff
    (not_first : ∀ other ∈ [CardsType.small5, .bomb, .jinhua, .yinhua],
      ¬ Enabled opt Run hand.cards other) :
    Best opt Run hand.cards (if hasBull (sortedValues lua hand.cards) then
        (specialOxLast opt (sortedValues lua hand.cards)
          (sameColor (sortedCards lua hand.cards))).getD
            (oxType ((sortedValues lua hand.cards).map cap).sum)
      else .oxNone) ↔ ¬ MissedOx opt hand.cards := by
  have no_court : ¬ (Enabled opt Run hand.cards .hulu ∧
      (Enabled opt Run hand.cards .jinhua ∨ Enabled opt Run hand.cards .yinhua)) := by
    rintro ⟨_, jinhua | yinhua⟩
    · exact not_first _ (by decide) jinhua
    · exact not_first _ (by decide) yinhua
  have among : ∀ other, Enabled opt Run hand.cards other →
      other ∈ [CardsType.tonghuashun, .hulu, .tonghua, .shunzi] := by
    intro other there
    have mem := there.mem
    simp only [specials, List.mem_cons, List.not_mem_nil, or_false] at mem
    rcases mem with rfl | rfl | rfl | rfl | rfl | rfl | rfl | rfl
    · decide
    · exact absurd there (not_first _ (by decide))
    · exact absurd there (not_first _ (by decide))
    · decide
    · exact absurd there (not_first _ (by decide))
    · exact absurd there (not_first _ (by decide))
    · decide
    · decide
  have bull := bestBull hand lua
  split
  · rename_i has_bull
    rw [if_pos has_bull] at bull
    refine iff_of_true ?_ ?_
    · rw [specialOxLast_eq]
      cases last : special opt _ with
      | some type =>
          obtain ⟨enabled, _, greatest⟩ :=
            special_greatest (looks_last hand lua) (by simp [CardsType.number]) last
          exact .inl ⟨enabled, fun other there => greatest other (among other there) there⟩
      | none =>
          have not_last := special_none (looks_last hand lua) last
          exact .inr ⟨fun other there => not_last other (among other there) there, bull⟩
    · rintro (court | ⟨no_bull, _⟩)
      · exact no_court court
      · obtain ⟨type, some_bull⟩ := (hasBull_iff hand lua).1 has_bull
        exact no_bull type some_bull
  · rename_i missing
    rw [if_neg missing] at bull
    have no_bull : ∀ type, ¬ Bull hand.cards type :=
      fun type some_bull => missing ((hasBull_iff hand lua).2 ⟨type, some_bull⟩)
    constructor
    · rintro (⟨enabled, _⟩ | ⟨nothing, _⟩) missed
      · exact enabled.2
      · rcases missed with court | ⟨_, _, _, type, _, there⟩
        · exact no_court court
        · exact nothing type there
    · intro not_missed
      refine .inr ⟨?_, bull⟩
      intro other there
      refine not_missed (.inr ⟨no_bull, not_first _ (by decide), not_first _ (by decide),
        other, ?_, there⟩)
      have mem := among other there
      simp only [List.mem_cons, List.not_mem_nil, or_false] at mem ⊢
      tauto

theorem typeOx_best_iff : Best opt Run hand.cards
    (typeOx opt (sortedValues lua hand.cards) (sameColor (sortedCards lua hand.cards))) ↔
      ¬ MissedOx opt hand.cards := by
  have looks : Looks Run hand.cards
      [(.small5, isSmall5 (sortedValues lua hand.cards)),
        (.bomb, hasCount (sortedValues lua hand.cards) 4),
        (.jinhua, (sortedValues lua hand.cards).all fun v => 10 < v),
        (.yinhua, (sortedValues lua hand.cards).all fun v => 10 ≤ v)] := by
    simp only [Looks, List.forall_mem_cons, isSmall5_iff hand lua Run,
      hasCount_iff hand lua (by decide : 0 < 4), all_iff, decide_eq_true_eq, Satisfies]
    simp
  unfold typeOx
  cases first : specialOxFirst opt (sortedValues lua hand.cards) with
  | some type =>
      obtain ⟨enabled, listed, greatest⟩ :=
        special_greatest looks (by simp [CardsType.number]) first
      exact first_best_iff hand opt enabled listed greatest
  | none => exact last_best_iff hand lua opt (special_none looks first)

/-- `oxp` always takes the greatest type. `ox` misses it for a full house of court cards and
tens, and for a full house, a flush or a straight without a bull. -/
theorem cardsType_maximal_iff (lua : LuaSort) (opt : CardsType → Bool) (hand : Hand) :
    (∃ type, (cardsTypeOxp lua opt hand.cards).type = some type ∧
      Best opt RunOxp hand.cards type) ∧
      ((∃ type, (cardsTypeOx lua opt hand.cards).type = some type ∧
        Best opt Run hand.cards type) ↔ ¬ MissedOx opt hand.cards) := by
  refine ⟨⟨_, (cardsTypeOxp_spec lua opt hand.cards).1, typeOxp_best hand lua opt⟩, ?_⟩
  rw [← typeOx_best_iff hand lua opt, (cardsTypeOx_spec lua opt hand.cards).1]
  constructor
  · rintro ⟨type, same, best⟩
    cases same
    exact best
  · intro best
    exact ⟨_, rfl, best⟩

/-- A straight without a bull. -/
def threeToSeven : Hand where
  cards := [3, 24, 45, 66, 7]
  five := rfl
  distinct := by decide
  dealt := by decide

/-- With straights enabled, `ox` takes a straight without a bull for nothing. -/
theorem straight_without_bull_missed :
    (cardsTypeOx LuaSort.insertion (fun type => type = .shunzi) threeToSeven.cards).type =
        some .oxNone ∧
      ¬ ∃ type, (cardsTypeOx LuaSort.insertion (fun type => type = .shunzi) threeToSeven.cards).type =
          some type ∧ Best (fun type => type = .shunzi) Run threeToSeven.cards type := by
  have none_found : (cardsTypeOx LuaSort.insertion (fun type => type = .shunzi)
      threeToSeven.cards).type = some .oxNone := by
    decide
  refine ⟨none_found, ?_⟩
  rintro ⟨type, typed, best⟩
  cases none_found.symm.trans typed
  have straight : Enabled (fun type => type = .shunzi) Run threeToSeven.cards .shunzi :=
    ⟨rfl, 3, by decide⟩
  rcases best with ⟨enabled, _⟩ | ⟨nothing, _⟩
  · exact enabled.2
  · exact nothing .shunzi straight

end Greatest

end FkServer.Ox
