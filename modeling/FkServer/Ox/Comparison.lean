import FkServer.Ox.Classification
import Mathlib.Data.List.Pairwise

/-!
`compare` as an order of the hands of one deal: by the rank of the type, then by the highest
card. `oxp` compares straights in its own way, and leaves some of them level.
-/
namespace FkServer.Ox

/-- Hands dealt from one deck. -/
structure Deal where
  hands : List Hand
  apart : hands.Pairwise fun l r => l.cards.Disjoint r.cards

/-- Of two different hands exactly one beats the other, and in every sorting of the hands the
first one beats all the others. -/
structure Decides (compare : Typed → Typed → Option Bool) (classify : List Int → Typed)
    (hands : List Hand) : Prop where
  irrefl : ∀ hand ∈ hands, compare (classify hand.cards) (classify hand.cards) = some false
  trans : ∀ a ∈ hands, ∀ b ∈ hands, ∀ c ∈ hands,
    compare (classify a.cards) (classify b.cards) = some true →
    compare (classify b.cards) (classify c.cards) = some true →
    compare (classify a.cards) (classify c.cards) = some true
  one : ∀ l ∈ hands, ∀ r ∈ hands, l ≠ r →
    compare (classify l.cards) (classify r.cards) = some true ∧
        compare (classify r.cards) (classify l.cards) = some false ∨
      compare (classify l.cards) (classify r.cards) = some false ∧
        compare (classify r.cards) (classify l.cards) = some true
  first : hands ≠ [] → ∀ lua : LuaSort, ∃ first,
    (lua.sort (fun l r : { hand // hand ∈ hands } =>
      (compare (classify l.1.cards) (classify r.1.cards)).getD false) hands.attach).head? =
        some first ∧
      ∀ other, other ≠ first →
        compare (classify first.1.cards) (classify other.1.cards) = some true

/-! ### Comparison by a strength -/

section Strength

variable {compare : Typed → Typed → Option Bool} {classify : List Int → Typed}
  {hands : List Hand} {strength : Hand → Int}

/-- A comparison of strengths decides the hands if no two are of the same strength. -/
theorem decides_iff_strength
    (by_strength : ∀ l ∈ hands, ∀ r ∈ hands,
      compare (classify l.cards) (classify r.cards) = some (decide (strength r < strength l))) :
    Decides compare classify hands ↔
      ∀ l ∈ hands, ∀ r ∈ hands, l ≠ r → strength l ≠ strength r := by
  constructor
  · intro decides l l_mem r r_mem differ same
    rcases decides.one l l_mem r r_mem differ with ⟨wins, _⟩ | ⟨_, wins⟩
    · rw [by_strength l l_mem r r_mem, same] at wins
      simp at wins
    · rw [by_strength r r_mem l l_mem, same] at wins
      simp at wins
  · intro distinct
    exact {
      irrefl := by
        intro hand mem
        rw [by_strength hand mem hand mem]
        simp
      trans := by
        intro a a_mem b b_mem c c_mem ab bc
        rw [by_strength a a_mem b b_mem] at ab
        rw [by_strength b b_mem c c_mem] at bc
        rw [by_strength a a_mem c c_mem]
        simp only [Option.some.injEq, decide_eq_true_eq] at ab bc ⊢
        omega
      one := by
        intro l l_mem r r_mem differ
        have apart := distinct l l_mem r r_mem differ
        rw [by_strength l l_mem r r_mem, by_strength r r_mem l l_mem]
        simp only [Option.some.injEq, decide_eq_true_eq, decide_eq_false_iff_not]
        omega
      first := by
        intro some_hand lua
        have as_strength : (fun l r : { hand // hand ∈ hands } =>
            (compare (classify l.1.cards) (classify r.1.cards)).getD false) =
            fun l r => decide (strength r.1 < strength l.1) := by
          funext l r
          rw [by_strength l.1 l.2 r.1 r.2]
          rfl
        rw [as_strength]
        cases found : (lua.sort (fun l r : { hand // hand ∈ hands } =>
            decide (strength r.1 < strength l.1)) hands.attach).head? with
        | none => exact absurd (List.attach_eq_nil_iff.1 (lua.head_eq_none_iff.1 found)) some_hand
        | some first =>
            refine ⟨first, rfl, ?_⟩
            intro other differ
            have le := lua.key_le_head (fun hand : { hand // hand ∈ hands } => strength hand.1)
              found other (List.mem_attach hands other)
            have apart := distinct other.1 other.2 first.1 first.2
              (fun same => differ (Subtype.ext same))
            rw [by_strength first.1 first.2 other.1 other.2]
            simp only [Option.some.injEq, decide_eq_true_eq]
            omega }

end Strength

/-! ### The cards in the order of the comparison -/

/-- The greater value is above and, for equal values, the smaller colour. -/
def above (l r : Int) : Bool :=
  if getValue r ≠ getValue l then getValue r < getValue l else getColor l < getColor r

theorem card_eq {l r : Int} (value : getValue l = getValue r) (color : getColor l = getColor r) :
    l = r := by
  unfold getValue at value
  unfold getColor at color
  omega

theorem above_strict : StrictOrder above where
  asymm := by
    intro l r h
    unfold above at h ⊢
    split at h <;> split <;> simp only [decide_eq_true_eq, decide_eq_false_iff_not] at h ⊢ <;> omega
  trans := by
    intro a b c ab bc
    unfold above at ab bc ⊢
    split at ab <;> split at bc <;> split <;>
      simp only [decide_eq_false_iff_not] at ab bc ⊢ <;> omega

theorem above_total {l r : Int} (not_lr : above l r = false) (not_rl : above r l = false) :
    l = r := by
  unfold above at not_lr not_rl
  split at not_lr <;> split at not_rl <;> simp only [decide_eq_false_iff_not] at not_lr not_rl
  · omega
  · omega
  · omega
  · exact card_eq (by omega) (by omega)

section Ranked

variable (lua : LuaSort) (hand : Hand)

/-- The cards of the hand in the order of the comparison, however they are grouped. -/
def ranked : List Int := sortedPairValues lua [hand.cards]

theorem sortedPairValues_eq {pair : List (List Int)} (whole : pair.flatten.Perm hand.cards) :
    sortedPairValues lua pair = ranked lua hand := by
  have same : (sortedPairValues lua pair).Perm (ranked lua hand) :=
    ((lua.perm above _).trans (by simpa using whole)).trans (lua.perm above _).symm
  exact same.eq_of_pairwise (fun a b _ _ not_ba not_ab => above_total not_ab not_ba)
    (lua.sorted above above_strict _) (lua.sorted above above_strict _)

theorem ranked_perm : (ranked lua hand).Perm hand.cards := by
  have whole : [hand.cards].flatten.Perm hand.cards := by simp
  exact (lua.perm above [hand.cards].flatten).trans whole

theorem ranked_values : (ranked lua hand).map getValue = sortedValues lua hand.cards := by
  have same := ((ranked_perm lua hand).map getValue).trans (values_perm hand lua).symm
  apply same.eq_of_pairwise (fun a b _ _ h h' => Int.le_antisymm h' h) _ (values_fall hand lua)
  rw [List.pairwise_map]
  apply (lua.sorted above above_strict [hand.cards].flatten).imp
  intro a b not_above
  unfold above at not_above
  split at not_above <;> simp only [decide_eq_false_iff_not] at not_above <;> omega

/-- The highest card. -/
def topCard : Int := (ranked lua hand).headD 0

/-- The lowest card. -/
def lowCard : Int := (ranked lua hand).getD 4 0

theorem ranked_length : (ranked lua hand).length = 5 :=
  (ranked_perm lua hand).length_eq.trans hand.five

theorem ranked_top : (ranked lua hand)[0]? = some (topCard lua hand) := by
  have five := ranked_length lua hand
  unfold topCard
  cases order : ranked lua hand with
  | nil =>
      rw [order] at five
      cases five
  | cons card rest => rfl

theorem ranked_low : (ranked lua hand)[4]? = some (lowCard lua hand) := by
  have inside : 4 < (ranked lua hand).length := by
    rw [ranked_length]
    decide
  rw [lowCard, List.getD_eq_getElem?_getD, List.getElem?_eq_getElem inside]
  rfl

theorem topCard_mem : topCard lua hand ∈ hand.cards :=
  (ranked_perm lua hand).mem_iff.1 (List.mem_of_getElem? (ranked_top lua hand))

theorem top_value : (sortedValues lua hand.cards)[0]? = some (getValue (topCard lua hand)) := by
  rw [← ranked_values, List.getElem?_map, ranked_top]
  rfl

theorem low_value : (sortedValues lua hand.cards)[4]? = some (getValue (lowCard lua hand)) := by
  rw [← ranked_values, List.getElem?_map, ranked_low]
  rfl

theorem card_bounds {card : Int} (held : card ∈ hand.cards) :
    1 ≤ getValue card ∧ getValue card ≤ 13 ∧ 0 ≤ getColor card ∧ getColor card ≤ 3 := by
  have deck : ∀ card ∈ allCards,
      1 ≤ getValue card ∧ getValue card ≤ 13 ∧ 0 ≤ getColor card ∧ getColor card ≤ 3 := by
    decide
  exact deck card (hand.dealt card held)

end Ranked

theorem Deal.topCard_ne (deal : Deal) (lua : LuaSort) {l r : Hand} (l_mem : l ∈ deal.hands)
    (r_mem : r ∈ deal.hands) (differ : l ≠ r) : topCard lua l ≠ topCard lua r := by
  have symm : Std.Symm fun l r : Hand => l.cards.Disjoint r.cards :=
    ⟨fun _ _ disjoint => disjoint.symm⟩
  have apart : l.cards.Disjoint r.cards := deal.apart.forall l_mem r_mem differ
  intro same
  exact apart (topCard_mem lua l) (same ▸ topCard_mem lua r)

/-! ### `ox` -/

section Ox

variable (lua : LuaSort) (opt : CardsType → Bool)

/-- The rank of the type, then the value of the highest card, then its colour. -/
def strengthOx (type : CardsType) (top : Int) : Int :=
  type.number * 10000 + getValue top * 100 - getColor top

def typeOfOx (hand : Hand) : CardsType :=
  typeOx opt (sortedValues lua hand.cards) (sameColor (sortedCards lua hand.cards))

theorem typeOfOx_eq (hand : Hand) :
    (cardsTypeOx lua opt hand.cards).type = some (typeOfOx lua opt hand) :=
  (cardsTypeOx_spec lua opt hand.cards).1

theorem compareOx_strength (l r : Hand) :
    compareOx lua (cardsTypeOx lua opt l.cards) (cardsTypeOx lua opt r.cards) =
      some (decide (strengthOx (typeOfOx lua opt r) (topCard lua r) <
        strengthOx (typeOfOx lua opt l) (topCard lua l))) := by
  have l_whole := (cardsTypeOx_spec lua opt l.cards).2
  have r_whole := (cardsTypeOx_spec lua opt r.cards).2
  have l_bounds := card_bounds l (topCard_mem lua l)
  have r_bounds := card_bounds r (topCard_mem lua r)
  unfold compareOx compareTypes strengthOx
  rw [sortedPairValues_eq lua l l_whole, sortedPairValues_eq lua r r_whole, ranked_top, ranked_top,
    typeOfOx_eq, typeOfOx_eq]
  simp only []
  split
  · simp only [Option.some.injEq, decide_eq_decide]
    omega
  · split <;> simp only [Option.some.injEq, decide_eq_decide] <;> omega

/-- The comparison of `ox` always decides. -/
theorem ox_decides (deal : Deal) : Decides (compareOx lua) (cardsTypeOx lua opt) deal.hands := by
  rw [decides_iff_strength fun l _ r _ => compareOx_strength lua opt l r]
  intro l l_mem r r_mem differ same
  have l_bounds := card_bounds l (topCard_mem lua l)
  have r_bounds := card_bounds r (topCard_mem lua r)
  unfold strengthOx at same
  exact deal.topCard_ne lua l_mem r_mem differ (card_eq (by omega) (by omega))

end Ox

/-! ### `oxp` -/

section Oxp

variable (lua : LuaSort) (opt : CardsType → Bool)

def typeOfOxp (hand : Hand) : CardsType :=
  typeOxp opt (sortedValues lua hand.cards) (sameColor (sortedCards lua hand.cards))

theorem typeOfOxp_eq (hand : Hand) :
    (cardsTypeOxp lua opt hand.cards).type = some (typeOfOxp lua opt hand) :=
  (cardsTypeOxp_spec lua opt hand.cards).1

def IsStraight (type : CardsType) : Prop := type = .tonghuashun ∨ type = .shunzi

instance (type : CardsType) : Decidable (IsStraight type) :=
  inferInstanceAs (Decidable (_ ∨ _))

/-- Between straights the highest value counts, the ace behind a king above all. Only two
straights from the nine to the king are told apart by a colour. -/
def strengthOxp (type : CardsType) (top low : Int) : Int :=
  if IsStraight type then
    type.number * 10000 +
      if getValue top = 13 then if getValue low = 1 then 1400 else 1300 - getColor top
      else getValue top * 100
  else strengthOx type top

/-- The rank of the type comes first. -/
theorem strengthOxp_rank (hand : Hand) {top : Int} (held : top ∈ hand.cards) (type : CardsType)
    (low : Int) :
    type.number * 10000 < strengthOxp type top low ∧
      strengthOxp type top low < type.number * 10000 + 10000 := by
  have bounds := card_bounds hand held
  unfold strengthOxp strengthOx
  split
  · split
    · split <;> omega
    · omega
  · omega

/-- No two types that occur share a number. -/
theorem Best.straight_iff {run : List Int → Prop} {cards : List Int} {type : CardsType}
    (best : Best opt run cards type) : IsStraight type ↔ type.number = 28 ∨ type.number = 21 := by
  unfold IsStraight
  rcases best with ⟨enabled, _⟩ | ⟨_, ⟨bull, _⟩ | ⟨rfl, _⟩⟩
  · have mem := enabled.mem
    simp only [specials, List.mem_cons, List.not_mem_nil, or_false] at mem
    rcases mem with rfl | rfl | rfl | rfl | rfl | rfl | rfl | rfl <;> decide
  · rw [bull.type_eq]
    have low := (number_oxType (oxSum cards)).2
    constructor
    · rintro (same | same) <;> rw [same] at low <;> exact absurd low (by decide)
    · omega
  · decide

theorem compareStraights_strength {l r : Hand} {lc1 rc1 lc5 rc5 : Int} (l1 : lc1 ∈ l.cards)
    (r1 : rc1 ∈ r.cards) (l_type r_type : CardsType) (l_straight : IsStraight l_type)
    (r_straight : IsStraight r_type) (same : l_type.number = r_type.number) :
    compareStraights lc1 rc1 lc5 rc5 =
      decide (strengthOxp r_type rc1 rc5 < strengthOxp l_type lc1 lc5) := by
  have l_bounds := card_bounds l l1
  have r_bounds := card_bounds r r1
  unfold strengthOxp compareStraights
  rw [if_pos l_straight, if_pos r_straight, same]
  by_cases l_king : getValue lc1 = 13
  · by_cases r_king : getValue rc1 = 13
    · by_cases l_ace : getValue lc5 = 1
      · by_cases r_ace : getValue rc5 = 1
        · simp [l_king, r_king, l_ace, r_ace]
        · simp [l_king, r_king, l_ace, r_ace]
          omega
      · by_cases r_ace : getValue rc5 = 1
        · simp [l_king, r_king, l_ace, r_ace]
          omega
        · simp [l_king, r_king, l_ace, r_ace]
    · simp only [l_king, if_neg r_king, decide_eq_decide, false_and, Ne.symm r_king, if_true,
        if_false]
      split <;> omega
  · have not_kings : ¬ (getValue lc1 = getValue rc1 ∧ getValue lc1 = 13) :=
      fun kings => l_king kings.2
    simp only [if_neg not_kings, if_neg l_king, decide_eq_decide]
    split
    · split <;> omega
    · omega

theorem compareOxp_strength (l r : Hand) :
    compareOxp lua (cardsTypeOxp lua opt l.cards) (cardsTypeOxp lua opt r.cards) =
      some (decide (
        strengthOxp (typeOfOxp lua opt r) (topCard lua r) (lowCard lua r) <
          strengthOxp (typeOfOxp lua opt l) (topCard lua l) (lowCard lua l))) := by
  have l_whole := (cardsTypeOxp_spec lua opt l.cards).2
  have r_whole := (cardsTypeOxp_spec lua opt r.cards).2
  have l_bounds := card_bounds l (topCard_mem lua l)
  have r_bounds := card_bounds r (topCard_mem lua r)
  have l_iff := Best.straight_iff opt (typeOxp_best l lua opt)
  have r_iff := Best.straight_iff opt (typeOxp_best r lua opt)
  unfold compareOxp compareTypes
  rw [sortedPairValues_eq lua l l_whole, sortedPairValues_eq lua r r_whole]
  simp only [ranked_top, ranked_low, typeOfOxp_eq, Option.some.injEq]
  split
  · simp only [Option.some.injEq, decide_eq_decide]
    have l_rank := strengthOxp_rank l (topCard_mem lua l) (typeOfOxp lua opt l) (lowCard lua l)
    have r_rank := strengthOxp_rank r (topCard_mem lua r) (typeOfOxp lua opt r) (lowCard lua r)
    omega
  · rename_i numbers
    have same : (typeOfOxp lua opt l).number = (typeOfOxp lua opt r).number := not_not.1 numbers
    split
    · rename_i l_straight
      have r_straight : IsStraight (typeOfOxp lua opt r) :=
        r_iff.2 (same ▸ l_iff.1 l_straight)
      rw [compareStraights_strength (topCard_mem lua l) (topCard_mem lua r) _ _ l_straight
        r_straight same]
    · rename_i l_not
      have r_not : ¬ IsStraight (typeOfOxp lua opt r) :=
        fun r_straight => l_not (l_iff.2 (same ▸ r_iff.1 r_straight))
      have l_not : ¬ IsStraight (typeOfOxp lua opt l) := l_not
      unfold strengthOxp strengthOx
      rw [if_neg l_not, if_neg r_not, same]
      split <;> simp only [Option.some.injEq, decide_eq_decide] <;> omega

/-- Two straights of the same type and the same values that `oxp` does not tell apart. -/
def Level (l r : Hand) : Prop :=
  (Best opt RunOxp l.cards .shunzi ∧ Best opt RunOxp r.cards .shunzi ∨
      Best opt RunOxp l.cards .tonghuashun ∧ Best opt RunOxp r.cards .tonghuashun) ∧
    (l.cards.map getValue).Perm (r.cards.map getValue) ∧
    ¬ (l.cards.map getValue).Perm [9, 10, 11, 12, 13]

theorem Best.unique {run : List Int → Prop} {cards : List Int} {type type' : CardsType}
    (best : Best opt run cards type) (best' : Best opt run cards type') : type = type' := by
  rcases best with ⟨enabled, greatest⟩ | ⟨nothing, bull⟩
  · rcases best' with ⟨enabled', greatest'⟩ | ⟨nothing, _⟩
    · have number := Nat.le_antisymm (greatest' type enabled) (greatest type' enabled')
      have distinct : ∀ a ∈ specials, ∀ b ∈ specials, a.number = b.number → a = b := by decide
      exact distinct type enabled.mem type' enabled'.mem number
    · exact absurd enabled (nothing type)
  · rcases best' with ⟨enabled', _⟩ | ⟨_, bull'⟩
    · exact absurd enabled' (nothing type')
    · rcases bull with ⟨bull, _⟩ | ⟨rfl, no_bull⟩
      · rcases bull' with ⟨bull', _⟩ | ⟨_, no_bull⟩
        · rw [bull.type_eq, bull'.type_eq]
        · exact absurd bull (no_bull type)
      · rcases bull' with ⟨bull', _⟩ | ⟨rfl, _⟩
        · exact absurd bull' (no_bull type')
        · rfl

theorem Best.run {run : List Int → Prop} {cards : List Int} {type : CardsType}
    (best : Best opt run cards type) (straight : IsStraight type) : run (cards.map getValue) := by
  rcases best with ⟨enabled, _⟩ | ⟨_, bull⟩
  · rcases straight with rfl | rfl
    · exact enabled.2.2
    · exact enabled.2
  · exfalso
    rcases bull with ⟨bull, _⟩ | ⟨rfl, _⟩
    · have low := (number_oxType (oxSum cards)).2
      rw [← bull.type_eq] at low
      rcases straight with rfl | rfl <;> exact absurd low (by decide)
    · rcases straight with same | same <;> cases same

/-- The highest and the lowest value of a straight tell its values. -/
theorem straight_values (hand : Hand) (run : RunOxp (hand.cards.map getValue)) :
    (getValue (topCard lua hand) = getValue (lowCard lua hand) + 4 ∧
        (hand.cards.map getValue).Perm ((List.range' 0 5).map fun i : Nat =>
          getValue (lowCard lua hand) + i)) ∨
      getValue (topCard lua hand) = 13 ∧ getValue (lowCard lua hand) = 1 ∧
        (hand.cards.map getValue).Perm [1, 10, 11, 12, 13] := by
  have top := top_value lua hand
  have low := low_value lua hand
  rcases run with ⟨first, row⟩ | row
  · rw [values_eq hand lua row (by simp)] at top low
    simp at top low
    refine .inl ⟨by omega, row.trans ?_⟩
    rw [← low]
    simp [List.range']
  · rw [values_eq hand lua row (by decide)] at top low
    simp at top low
    exact .inr ⟨top.symm, low.symm, row⟩

/-- Straights are of equal strength if the same values, the ace behind the king or a highest
value below the king make them so; two kings tell the others apart by their colours. -/
theorem straights_eq_iff {l r : Hand} (l_run : RunOxp (l.cards.map getValue))
    (r_run : RunOxp (r.cards.map getValue)) (tops : topCard lua l ≠ topCard lua r)
    {type : CardsType} (straight : IsStraight type) :
    strengthOxp type (topCard lua l) (lowCard lua l) =
        strengthOxp type (topCard lua r) (lowCard lua r) ↔
      (l.cards.map getValue).Perm (r.cards.map getValue) ∧
        ¬ (l.cards.map getValue).Perm [9, 10, 11, 12, 13] := by
  have l_bounds := card_bounds l (topCard_mem lua l)
  have r_bounds := card_bounds r (topCard_mem lua r)
  unfold strengthOxp
  rw [if_pos straight, if_pos straight]
  constructor
  · intro same
    rcases straight_values lua l l_run with ⟨l_top, l_row⟩ | ⟨l_top, l_low, l_row⟩
    · rcases straight_values lua r r_run with ⟨r_top, r_row⟩ | ⟨r_top, r_low, r_row⟩
      · have not_kings : getValue (topCard lua l) ≠ 13 := by
          intro l_king
          rw [if_pos l_king, if_neg (by omega)] at same
          split at same
          · rename_i r_king
            rw [if_neg (by omega)] at same
            exact tops (card_eq (by omega) (by omega))
          · omega
        rw [if_neg not_kings] at same
        split at same
        · split at same <;> omega
        · have lows : getValue (lowCard lua l) = getValue (lowCard lua r) := by omega
          refine ⟨?_, ?_⟩
          · rw [lows] at l_row
            exact l_row.trans r_row.symm
          · intro court
            have has_king := court.symm.mem_iff.1 (by simp : (13 : Int) ∈ [9, 10, 11, 12, 13])
            rw [l_row.mem_iff] at has_king
            simp [List.range'] at has_king
            omega
      · rw [if_pos r_top, if_pos r_low] at same
        split at same
        · rw [if_neg (by omega)] at same
          omega
        · omega
    · rw [if_pos l_top, if_pos l_low] at same
      rcases straight_values lua r r_run with ⟨r_top, r_row⟩ | ⟨r_top, r_low, r_row⟩
      · split at same
        · rw [if_neg (by omega)] at same
          omega
        · omega
      · refine ⟨l_row.trans r_row.symm, ?_⟩
        intro court
        exact absurd (l_row.symm.trans court) (by decide)
  · rintro ⟨values, not_court⟩
    have sorted : sortedValues lua l.cards = sortedValues lua r.cards :=
      (((values_perm l lua).trans values).trans (values_perm r lua).symm).eq_of_pairwise
        (fun a b _ _ h h' => Int.le_antisymm h' h) (values_fall l lua) (values_fall r lua)
    have top : getValue (topCard lua l) = getValue (topCard lua r) := by
      apply Option.some.inj
      rw [← top_value, ← top_value, sorted]
    have low : getValue (lowCard lua l) = getValue (lowCard lua r) := by
      apply Option.some.inj
      rw [← low_value, ← low_value, sorted]
    rw [top, low]
    split
    · rename_i king
      rcases straight_values lua l l_run with ⟨l_top, l_row⟩ | ⟨_, l_low, _⟩
      · have nine : getValue (lowCard lua l) = 9 := by omega
        rw [nine] at l_row
        exact absurd (l_row.trans (by decide)) not_court
      · have r_low : getValue (lowCard lua r) = 1 := low ▸ l_low
        rw [if_pos r_low, if_pos r_low]
    · rfl

theorem strength_eq_iff (deal : Deal) {l r : Hand} (l_mem : l ∈ deal.hands)
    (r_mem : r ∈ deal.hands) (differ : l ≠ r) :
    strengthOxp (typeOfOxp lua opt l) (topCard lua l) (lowCard lua l) =
        strengthOxp (typeOfOxp lua opt r) (topCard lua r) (lowCard lua r) ↔ Level opt l r := by
  have tops := deal.topCard_ne lua l_mem r_mem differ
  have l_best : Best opt RunOxp l.cards (typeOfOxp lua opt l) := typeOxp_best l lua opt
  have r_best : Best opt RunOxp r.cards (typeOfOxp lua opt r) := typeOxp_best r lua opt
  constructor
  · intro same
    have l_rank := strengthOxp_rank l (topCard_mem lua l) (typeOfOxp lua opt l) (lowCard lua l)
    have r_rank := strengthOxp_rank r (topCard_mem lua r) (typeOfOxp lua opt r) (lowCard lua r)
    have number : (typeOfOxp lua opt l).number = (typeOfOxp lua opt r).number := by omega
    by_cases straight : IsStraight (typeOfOxp lua opt l)
    · have r_straight := (r_best.straight_iff opt).2 (number ▸ (l_best.straight_iff opt).1 straight)
      have types : typeOfOxp lua opt r = typeOfOxp lua opt l := by
        rcases straight with l_is | l_is <;> rcases r_straight with r_is | r_is <;>
          rw [l_is, r_is] at number ⊢ <;> exact absurd number (by decide)
      rw [types] at same r_best
      have values := (straights_eq_iff lua (l_best.run opt straight) (r_best.run opt straight) tops
        straight).1 same
      refine ⟨?_, values⟩
      rcases straight with flush | plain
      · rw [flush] at l_best r_best
        exact .inr ⟨l_best, r_best⟩
      · rw [plain] at l_best r_best
        exact .inl ⟨l_best, r_best⟩
    · have r_not : ¬ IsStraight (typeOfOxp lua opt r) := fun r_straight =>
        straight ((l_best.straight_iff opt).2 (number ▸ (r_best.straight_iff opt).1 r_straight))
      have l_bounds := card_bounds l (topCard_mem lua l)
      have r_bounds := card_bounds r (topCard_mem lua r)
      unfold strengthOxp strengthOx at same
      rw [if_neg straight, if_neg r_not] at same
      exact absurd (card_eq (by omega) (by omega)) tops
  · rintro ⟨types, values⟩
    rcases types with ⟨l_type, r_type⟩ | ⟨l_type, r_type⟩
    · rw [l_best.unique opt l_type, r_best.unique opt r_type]
      exact (straights_eq_iff lua (l_type.run opt (.inr rfl)) (r_type.run opt (.inr rfl)) tops
        (.inr rfl)).2 values
    · rw [l_best.unique opt l_type, r_best.unique opt r_type]
      exact (straights_eq_iff lua (l_type.run opt (.inl rfl)) (r_type.run opt (.inl rfl)) tops
        (.inl rfl)).2 values

end Oxp

/-- `ox` decides every deal, and `oxp` every deal without level straights. -/
theorem compare_decides_iff (lua : LuaSort) (opt : CardsType → Bool) (deal : Deal) :
    Decides (compareOx lua) (cardsTypeOx lua opt) deal.hands ∧
      (Decides (compareOxp lua) (cardsTypeOxp lua opt) deal.hands ↔
        ∀ l ∈ deal.hands, ∀ r ∈ deal.hands, l ≠ r → ¬ Level opt l r) := by
  refine ⟨ox_decides lua opt deal, ?_⟩
  rw [decides_iff_strength fun l _ r _ => compareOxp_strength lua opt l r]
  constructor
  · intro distinct l l_mem r r_mem differ level
    exact distinct l l_mem r r_mem differ
      ((strength_eq_iff lua opt deal l_mem r_mem differ).2 level)
  · intro no_level l l_mem r r_mem differ same
    exact no_level l l_mem r r_mem differ
      ((strength_eq_iff lua opt deal l_mem r_mem differ).1 same)

/-- Two straights from the three to the seven. -/
def levelStraights : Deal where
  hands := [⟨[3, 24, 45, 66, 7], by decide, threeToSeven.distinct, threeToSeven.dealt⟩,
    ⟨[23, 44, 65, 6, 27], by decide, by decide, by decide⟩]
  apart := by simp

/-- Neither of two straights with the same values beats the other. -/
theorem equal_straights_undecided :
    ¬ Decides (compareOxp LuaSort.insertion)
      (cardsTypeOxp LuaSort.insertion fun type => type = .shunzi) levelStraights.hands := by
  intro decides
  have one := decides.one _ (List.mem_cons_self ..) _ (List.mem_cons_of_mem _ (List.mem_cons_self ..))
    (fun same => absurd (congrArg Hand.cards same) (by decide))
  revert one
  decide

end FkServer.Ox
