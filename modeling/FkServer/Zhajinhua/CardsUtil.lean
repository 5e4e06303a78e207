import Mathlib.Data.List.Dedup
import Mathlib.Data.List.GetD
import Mathlib.Data.List.Sort

/-!
Three-card hands of `base/cards_util`: the type of a hand with its values and colours, and
the comparison of two types, with the table options that `compare_player` adds to it.
A card is `20 * color + value`. Compared with colours, hands are compared by one number,
which has the type in its highest place and the colour of a card in its lowest.
-/
namespace FkServer.Zhajinhua

def cardValue (card : Nat) : Nat := card % 20

def cardColor (card : Nat) : Nat := card / 20

/-- A card of `all_cards`. -/
def Card (card : Nat) : Prop := 2 ≤ cardValue card ∧ cardValue card ≤ 14 ∧ cardColor card ≤ 3

instance (card : Nat) : Decidable (Card card) := inferInstanceAs (Decidable (_ ∧ _ ∧ _))

/-- `CARDS_TYPE` -/
inductive CardsKind
  | ct235
  | single
  | double
  | shunZi
  | jinHua
  | shunJin
  | baoZi
deriving DecidableEq

/-- `ZHAJINHUA_CARD_TYPE` -/
def CardsKind.rank : CardsKind → Nat
  | .ct235 => 1
  | .single => 2
  | .double => 3
  | .shunZi => 4
  | .jinHua => 5
  | .shunJin => 6
  | .baoZi => 7

/-- What `get_cards_type` returns; the tables `vals` and `colors` are empty where they have
no entry. -/
structure CardsType where
  type : CardsKind
  vals : Nat → List Nat
  colors : Nat → List Nat

namespace CardsType

/-- `vals[count][i]` -/
def val (ct : CardsType) (count i : Nat) : Nat := (ct.vals count).getD (i - 1) 0

/-- `colors[value][1]` -/
def color (ct : CardsType) (value : Nat) : Nat := (ct.colors value).headD 0

end CardsType

/-- `countvalues[count]`: the values that `count` of the cards have. -/
def countValues (cards : List Nat) (count : Nat) : List Nat :=
  (cards.map cardValue).dedup.filter fun v => (cards.map cardValue).count v = count

/-- `valuecolors[value]` -/
def valueColors (cards : List Nat) (value : Nat) : List Nat :=
  (cards.filter fun card => cardValue card = value).map cardColor

/-- `table.sort` of numbers. -/
def sortUp (list : List Nat) : List Nat := list.insertionSort (· ≤ ·)

/-- Three values in a row, or A-2-3. -/
def isShunZi (vals : List Nat) : Bool :=
  vals.length = 3 &&
    ((vals.getD 0 0 + 1 = vals.getD 1 0 && vals.getD 1 0 + 1 = vals.getD 2 0) ||
      (vals.getD 0 0 = 2 && vals.getD 1 0 = 3 && vals.getD 2 0 = 14))

def isSameColor (cards : List Nat) : Bool :=
  (cards.map cardColor).any fun color => (cards.map cardColor).count color = 3

/-- The type of three cards of different values. -/
def plainType (cards vals : List Nat) : CardsKind :=
  if isSameColor cards then
    if isShunZi vals then .shunJin else .jinHua
  else if isShunZi vals then
    .shunZi
  else if vals.getD 0 0 = 2 && vals.getD 1 0 = 3 && vals.getD 2 0 = 5 then
    .ct235
  else
    .single

/-- `utils.get_cards_type` -/
def getCardsType (cards : List Nat) : CardsType :=
  if countValues cards 3 ≠ [] then
    ⟨.baoZi, fun count => if count = 3 then countValues cards 3 else [], valueColors cards⟩
  else if countValues cards 2 ≠ [] then
    let pair := (countValues cards 2).getD 0 0
    ⟨.double,
      fun count => if count = 2 then countValues cards 2 else
        if count = 1 then countValues cards 1 else [],
      fun value => if value = pair then sortUp (valueColors cards pair)
        else valueColors cards value⟩
  else
    let vals := sortUp (countValues cards 1)
    ⟨plainType cards vals, fun count => if count = 1 then vals else [], valueColors cards⟩

/-- `single_full_compare_vals` -/
def singleFullCompareVals (l r : CardsType) : Int :=
  if r.val 1 3 < l.val 1 3 then 1
  else if l.val 1 3 < r.val 1 3 then -1
  else if r.val 1 2 < l.val 1 2 then 1
  else if l.val 1 2 < r.val 1 2 then -1
  else if r.val 1 1 < l.val 1 1 then 1
  else if l.val 1 1 < r.val 1 1 then -1
  else 0

/-- The comparison of two pairs, and then of the cards beside them. -/
def doubleCompareVals (l r : CardsType) : Int :=
  if r.val 2 1 < l.val 2 1 then 1
  else if l.val 2 1 = r.val 2 1 then
    if r.val 1 1 < l.val 1 1 then 1
    else if l.val 1 1 < r.val 1 1 then -1
    else 0
  else -1

/-- `utils.compare` -/
def compare (l r : CardsType) (withColor : Bool) : Bool :=
  if l.type ≠ r.type then
    decide (r.type.rank < l.type.rank)
  else
    match l.type with
    | .baoZi => decide (r.val 3 1 < l.val 3 1)
    | .shunZi | .shunJin | .jinHua | .single =>
        if singleFullCompareVals l r = 0 then
          withColor && decide (l.color (l.val 1 3) < r.color (r.val 1 3))
        else decide (0 < singleFullCompareVals l r)
    | .double =>
        if doubleCompareVals l r = 0 then
          withColor && decide (l.color (l.val 2 1) < r.color (r.val 2 1))
        else decide (0 < doubleCompareVals l r)
    | .ct235 => withColor && decide (l.color (l.val 1 3) < r.color (r.val 1 3))

/-- `rule.play` -/
structure Play where
  smallA23 : Bool
  baoziLessThan235 : Bool
  colorCompare : Bool

/-- `is_A_2_3` -/
def isA23 (ct : CardsType) : Bool :=
  (ct.type = .shunZi || ct.type = .shunJin) &&
    (ct.val 1 1 = 2 && ct.val 1 2 = 3 && ct.val 1 3 = 14)

/-- `zhajinhua_table:compare_player`, on the types of the two hands. -/
def comparePlayer (play : Option Play) (l r : CardsType) (withColor withEachOther : Bool) : Bool :=
  let comp := compare l r (withColor || play.any (·.colorCompare))
  if !withEachOther && play.any (·.baoziLessThan235) &&
      (l.type = .baoZi && r.type = .ct235) then
    false
  else if !withEachOther && play.any (·.baoziLessThan235) &&
      (l.type = .ct235 && r.type = .baoZi) then
    true
  else if play.any (·.smallA23) && (l.type = r.type && isA23 l && !isA23 r) then
    false
  else if play.any (·.smallA23) && (l.type = r.type && isA23 r && !isA23 l) then
    true
  else comp

namespace CardsType

/-- The values a comparison of one type looks at, the heaviest first. -/
def weights (ct : CardsType) : Nat × Nat × Nat :=
  match ct.type with
  | .baoZi => (ct.val 3 1, 0, 0)
  | .double => (ct.val 2 1, ct.val 1 1, 0)
  | .ct235 => (0, 0, 0)
  | _ => (ct.val 1 3, ct.val 1 2, ct.val 1 1)

/-- The colour that breaks a tie; three of a kind need none. -/
def tieColor (ct : CardsType) : Nat :=
  match ct.type with
  | .baoZi => 0
  | .double => ct.color (ct.val 2 1)
  | _ => ct.color (ct.val 1 3)

/-- The place of a hand among the hands of its type. -/
def within (ct : CardsType) : Nat :=
  ((ct.weights.1 * 20 + ct.weights.2.1) * 20 + ct.weights.2.2) * 4 + (3 - ct.tieColor)

/-- A-2-3 is the lowest of its type when the table says so. -/
def level (play : Option Play) (ct : CardsType) : Nat :=
  if play.any (·.smallA23) && isA23 ct then 0 else 1

/-- The place of a hand among all hands. -/
def key (play : Option Play) (ct : CardsType) : Nat :=
  (ct.type.rank * 2 + ct.level play) * 32000 + ct.within

/-- Values and colours as the cards have them. -/
structure Bounded (ct : CardsType) : Prop where
  val : ∀ count i, ct.val count i < 20
  color : ∀ value, ct.color value ≤ 3

end CardsType

section Key
variable {l r : CardsType} {play : Option Play}

theorem CardsType.Bounded.weights (h : l.Bounded) :
    l.weights.1 < 20 ∧ l.weights.2.1 < 20 ∧ l.weights.2.2 < 20 := by
  have val := h.val
  unfold CardsType.weights
  split <;> simp [val]

theorem CardsType.Bounded.tieColor (h : l.Bounded) : l.tieColor ≤ 3 := by
  have color := h.color
  unfold CardsType.tieColor
  split <;> simp [color]

theorem CardsType.Bounded.within (h : l.Bounded) : l.within < 32000 := by
  obtain ⟨first, second, third⟩ := h.weights
  unfold CardsType.within
  omega

theorem rank_injective {a b : CardsKind} (h : a.rank = b.rank) : a = b := by
  cases a <;> cases b <;> first | rfl | cases h

/-- Within one type, hands are compared by their places. -/
theorem compare_of_same (hl : l.Bounded) (hr : r.Bounded) (same : l.type = r.type) :
    compare l r true = decide (r.within < l.within) := by
  have lc := hl.tieColor
  have rc := hr.tieColor
  have lw := hl.weights
  have rw' := hr.weights
  rw [compare, if_neg (not_not.2 same)]
  cases kind : l.type
  all_goals
    have kind' := same.symm.trans kind
    simp only [CardsType.tieColor, CardsType.weights, kind, kind'] at lc rc lw rw'
    simp only [CardsType.within, CardsType.weights, CardsType.tieColor, kind, kind',
      singleFullCompareVals, doubleCompareVals, Bool.true_and]
    grind

/-- Where the exception of the 235 is out of play, colours compare hands by their keys. -/
theorem comparePlayer_of_usual (hl : l.Bounded) (hr : r.Bounded) {withEachOther : Bool}
    (usual : (!withEachOther && play.any (·.baoziLessThan235)) = false ∨
      ¬(l.type = .baoZi ∧ r.type = .ct235) ∧ ¬(l.type = .ct235 ∧ r.type = .baoZi)) :
    comparePlayer play l r true withEachOther = decide (r.key play < l.key play) := by
  have lw := hl.within
  have rw' := hr.within
  have first : (!withEachOther && play.any (·.baoziLessThan235) &&
      (l.type = .baoZi && r.type = .ct235)) = false := by
    rcases usual with off | ⟨apart, _⟩
    · rw [off, Bool.false_and]
    · simpa using fun _ _ left right => apart ⟨left, right⟩
  have second : (!withEachOther && play.any (·.baoziLessThan235) &&
      (l.type = .ct235 && r.type = .baoZi)) = false := by
    rcases usual with off | ⟨_, apart⟩
    · rw [off, Bool.false_and]
    · simpa using fun _ _ left right => apart ⟨left, right⟩
  simp only [comparePlayer, first, second, Bool.true_or, Bool.false_eq_true, if_false]
  by_cases same : l.type = r.type
  · simp only [same, decide_true, Bool.true_and, CardsType.key, CardsType.level,
      compare_of_same hl hr same]
    cases play.any (·.smallA23) <;> cases isA23 l <;> cases isA23 r <;> simp <;> omega
  · have apart : l.type.rank ≠ r.type.rank := fun h => same (rank_injective h)
    have lv : l.level play ≤ 1 := by
      unfold CardsType.level
      split <;> simp
    have rv : r.level play ≤ 1 := by
      unfold CardsType.level
      split <;> simp
    simp only [same, decide_false, Bool.false_and, Bool.and_false, Bool.false_eq_true, if_false,
      compare, ne_eq, not_false_eq_true, if_true, CardsType.key]
    exact decide_eq_decide.2 (by omega)

/-- The exception: the 235 beats three of a kind. -/
theorem comparePlayer_of_exception (on : play.any (·.baoziLessThan235) = true) :
    (l.type = .baoZi → r.type = .ct235 → comparePlayer play l r true false = false) ∧
      (l.type = .ct235 → r.type = .baoZi → comparePlayer play l r true false = true) := by
  constructor
  · intro left right
    simp [comparePlayer, on, left, right]
  · intro left right
    simp [comparePlayer, on, left, right]

end Key

/-- Three cards of the deck, as they are dealt. -/
structure Hand where
  cards : List Nat
  three : cards.length = 3
  deck : ∀ card ∈ cards, Card card
  distinct : cards.Nodup

namespace Hand
variable (h : Hand)

def type : CardsType := getCardsType h.cards

end Hand

section Hands
variable {cards : List Nat} {h h' : Hand}

theorem mem_countValues {n v : Nat} (mem : v ∈ countValues cards n) :
    v ∈ cards.map cardValue :=
  List.mem_dedup.1 (List.mem_of_mem_filter mem)

theorem mem_sortUp {list : List Nat} {v : Nat} : v ∈ sortUp list ↔ v ∈ list :=
  (List.perm_insertionSort _ list).mem_iff

/-- A value of the tables is the value of a card, and so are the colours. -/
theorem getCardsType_vals {count v : Nat} (mem : v ∈ (getCardsType cards).vals count) :
    v ∈ cards.map cardValue := by
  unfold getCardsType at mem
  split at mem
  · simp only at mem
    split at mem
    · exact mem_countValues mem
    · cases mem
  · split at mem
    · simp only at mem
      split at mem
      · exact mem_countValues mem
      · split at mem
        · exact mem_countValues mem
        · cases mem
    · simp only at mem
      split at mem
      · exact mem_countValues (mem_sortUp.1 mem)
      · cases mem

theorem getCardsType_colors (cards : List Nat) (v color : Nat) :
    color ∈ (getCardsType cards).colors v ↔ color ∈ valueColors cards v := by
  unfold getCardsType
  split
  · rfl
  · split
    · simp only
      split
      · rename_i same
        rw [mem_sortUp, same]
      · rfl
    · rfl

theorem getD_mem_or (list : List Nat) (i : Nat) : list.getD i 0 ∈ list ∨ list.getD i 0 = 0 := by
  rcases Nat.lt_or_ge i list.length with short | long
  · refine .inl ?_
    rw [List.getD_eq_getElem _ _ short]
    exact List.getElem_mem short
  · exact .inr (List.getD_eq_default _ _ long)

theorem Hand.bounded (h : Hand) : h.type.Bounded where
  val count i := by
    rcases getD_mem_or (h.type.vals count) (i - 1) with mem | zero
    · obtain ⟨card, _, value⟩ := List.mem_map.1 (getCardsType_vals mem)
      have : card % 20 < 20 := Nat.mod_lt _ (by omega)
      unfold CardsType.val
      rw [← value]
      exact this
    · unfold CardsType.val
      rw [zero]
      omega
  color value := by
    unfold CardsType.color
    cases colors : h.type.colors value with
    | nil => exact Nat.zero_le 3
    | cons color rest =>
        have mem : color ∈ h.type.colors value := colors ▸ List.mem_cons_self
        obtain ⟨card, there, rfl⟩ := List.mem_map.1 ((getCardsType_colors _ _ _).1 mem)
        exact (h.deck card (List.mem_of_mem_filter there)).2.2

/-- The three shapes of a hand, as `get_cards_type` meets them. -/
inductive Shape (h : Hand) : Prop
  | baoZi : h.type.type = .baoZi → h.type.vals 3 = countValues h.cards 3 →
      countValues h.cards 3 ≠ [] → Shape h
  | double : h.type.type = .double → h.type.vals 2 = countValues h.cards 2 →
      countValues h.cards 2 ≠ [] → Shape h
  | plain : h.type.type = plainType h.cards (h.type.vals 1) → (h.type.vals 1).length = 3 → Shape h

theorem mem_countValues_iff {count v : Nat} :
    v ∈ countValues cards count ↔
      v ∈ cards.map cardValue ∧ (cards.map cardValue).count v = count := by
  rw [countValues, List.mem_filter, List.mem_dedup, decide_eq_true_eq]

/-- Without a value that comes two or three times there are three values. -/
theorem Hand.values_apart (h : Hand) (two : countValues h.cards 2 = [])
    (three : countValues h.cards 3 = []) : (countValues h.cards 1).length = 3 := by
  have once : ∀ v ∈ h.cards.map cardValue, (h.cards.map cardValue).count v = 1 := by
    intro v mem
    have some := List.count_pos_iff.2 mem
    have most : (h.cards.map cardValue).count v ≤ 3 := by
      have := List.count_le_length (a := v) (l := h.cards.map cardValue)
      rwa [List.length_map, h.three] at this
    have not_two : (h.cards.map cardValue).count v ≠ 2 := fun same =>
      List.eq_nil_iff_forall_not_mem.1 two v (mem_countValues_iff.2 ⟨mem, same⟩)
    have not_three : (h.cards.map cardValue).count v ≠ 3 := fun same =>
      List.eq_nil_iff_forall_not_mem.1 three v (mem_countValues_iff.2 ⟨mem, same⟩)
    omega
  have nodup : (h.cards.map cardValue).Nodup := List.nodup_iff_count_eq_one.2 once
  have all : countValues h.cards 1 = h.cards.map cardValue := by
    rw [countValues, nodup.dedup]
    exact List.filter_eq_self.2 fun v mem => decide_eq_true (once v mem)
  rw [all, List.length_map, h.three]

theorem Hand.shape (h : Hand) : Shape h := by
  by_cases three : countValues h.cards 3 = []
  · by_cases two : countValues h.cards 2 = []
    · refine .plain ?_ ?_
      · simp [Hand.type, getCardsType, three, two]
      · have apart := h.values_apart two three
        have sorted : (sortUp (countValues h.cards 1)).length = 3 := by
          rw [sortUp, (List.perm_insertionSort _ _).length_eq, apart]
        simpa [Hand.type, getCardsType, three, two] using sorted
    · exact .double (by simp [Hand.type, getCardsType, three, two])
        (by simp [Hand.type, getCardsType, three, two]) two
  · exact .baoZi (by simp [Hand.type, getCardsType, three])
      (by simp [Hand.type, getCardsType, three]) three

/-- The card that the first colour of a value stands for. -/
theorem Hand.colored_mem (h : Hand) {v : Nat} (mem : v ∈ h.cards.map cardValue) :
    20 * h.type.color v + v ∈ h.cards := by
  obtain ⟨card, there, value⟩ := List.mem_map.1 mem
  have some : cardColor card ∈ h.type.colors v := by
    refine (getCardsType_colors _ _ _).2 (List.mem_map_of_mem ?_)
    exact List.mem_filter.2 ⟨there, decide_eq_true value⟩
  cases colors : h.type.colors v with
  | nil => simp [colors] at some
  | cons color rest =>
      have head : color ∈ h.type.colors v := colors ▸ List.mem_cons_self
      obtain ⟨card', there', same⟩ := List.mem_map.1 ((getCardsType_colors _ _ _).1 head)
      obtain ⟨mem', value'⟩ := List.mem_filter.1 there'
      have whole : 20 * color + v = card' := by
        have value' : card' % 20 = v := of_decide_eq_true value'
        have same : card' / 20 = color := same
        omega
      rw [CardsType.color, colors]
      exact whole ▸ mem'

theorem getD_mem {list : List Nat} {i : Nat} (short : i < list.length) : list.getD i 0 ∈ list := by
  rw [List.getD_eq_getElem _ _ short]
  exact List.getElem_mem short

theorem plainType_ne (cards vals : List Nat) :
    plainType cards vals ≠ .baoZi ∧ plainType cards vals ≠ .double := by
  unfold plainType
  split_ifs <;> simp

/-- The 235 is what its name says. -/
theorem plainType_ct235 {vals : List Nat} (kind : plainType cards vals = .ct235) :
    vals.getD 2 0 = 5 := by
  unfold plainType at kind
  split_ifs at kind
  rename_i shape
  simp only [Bool.and_eq_true, decide_eq_true_eq] at shape
  exact shape.2

/-- In three of a kind every card has the one value. -/
theorem Hand.baoZi_values (h : Hand) (some : countValues h.cards 3 ≠ []) {v : Nat}
    (lead : (countValues h.cards 3).getD 0 0 = v) : ∀ card ∈ h.cards, cardValue card = v := by
  have mem : v ∈ countValues h.cards 3 := lead ▸ getD_mem (List.length_pos_of_ne_nil some)
  have all := (mem_countValues_iff.1 mem).2
  rw [show (3 : Nat) = (h.cards.map cardValue).length by rw [List.length_map, h.three]] at all
  intro card there
  exact (List.count_eq_length.1 all (cardValue card) (List.mem_map_of_mem there)).symm

/-- A value comes in four colours, which are too few for two triples. -/
theorem Hand.baoZi_share (h h' : Hand) {v : Nat} (values : ∀ card ∈ h.cards, cardValue card = v)
    (values' : ∀ card ∈ h'.cards, cardValue card = v) : ∃ card ∈ h.cards, card ∈ h'.cards := by
  by_contra apart
  push Not at apart
  have nodup : (h.cards ++ h'.cards).Nodup :=
    List.nodup_append'.2 ⟨h.distinct, h'.distinct, fun card mem mem' => apart card mem mem'⟩
  have subset : h.cards ++ h'.cards ⊆ [v, 20 + v, 40 + v, 60 + v] := by
    intro card mem
    have both : Card card ∧ cardValue card = v := by
      rcases List.mem_append.1 mem with here | here
      · exact ⟨h.deck card here, values card here⟩
      · exact ⟨h'.deck card here, values' card here⟩
    obtain ⟨⟨_, _, color⟩, value⟩ := both
    simp only [cardColor, cardValue] at color value
    simp only [List.mem_cons, List.not_mem_nil, or_false]
    omega
  have few := (List.subperm_of_subset nodup subset).length_le
  rw [List.length_append, h.three, h'.three] at few
  simp at few

/-- The value and the colour that break a tie make a card of the hand. -/
theorem Hand.lead_card (h h' : Hand) {v : Nat} (mem : v ∈ h.cards.map cardValue)
    (mem' : v ∈ h'.cards.map cardValue) (color : h.type.color v = h'.type.color v) :
    ∃ card ∈ h.cards, card ∈ h'.cards :=
  ⟨_, h.colored_mem mem, color ▸ h'.colored_mem mem'⟩

theorem within_injective {l r : CardsType} (hl : l.Bounded) (hr : r.Bounded)
    (same : l.within = r.within) :
    l.weights.1 = r.weights.1 ∧ l.weights.2.1 = r.weights.2.1 ∧ l.weights.2.2 = r.weights.2.2 ∧
      l.tieColor = r.tieColor := by
  have lw := hl.weights
  have rw' := hr.weights
  have lc := hl.tieColor
  have rc := hr.tieColor
  simp only [CardsType.within] at same
  omega

theorem key_injective {l r : CardsType} {play : Option Play} (hl : l.Bounded) (hr : r.Bounded)
    (same : l.key play = r.key play) : l.type = r.type ∧ l.within = r.within := by
  have lw := hl.within
  have rw' := hr.within
  have level : ∀ ct : CardsType, ct.level play ≤ 1 := by
    intro ct
    unfold CardsType.level
    split <;> simp
  have ll := level l
  have rl := level r
  simp only [CardsType.key] at same
  exact ⟨rank_injective (by omega), by omega⟩

/-- Hands with the same key share a card. -/
theorem Hand.share_of_key {play : Option Play} (same : h.type.key play = h'.type.key play) :
    ∃ card ∈ h.cards, card ∈ h'.cards := by
  obtain ⟨kinds, places⟩ := key_injective h.bounded h'.bounded same
  obtain ⟨first, _, _, color⟩ := within_injective h.bounded h'.bounded places
  cases h.shape with
  | baoZi kind vals some =>
      have kind' := kinds.symm.trans kind
      simp only [CardsType.weights, kind, kind', CardsType.val, vals] at first
      cases h'.shape with
      | baoZi _ vals' some' =>
          rw [vals'] at first
          exact h.baoZi_share h' (h.baoZi_values some rfl) (h'.baoZi_values some' first.symm)
      | double other => simp [kind'] at other
      | plain other => exact ((plainType_ne _ _).1 (other.symm.trans kind')).elim
  | double kind vals some =>
      have kind' := kinds.symm.trans kind
      have mem : h.type.val 2 1 ∈ h.cards.map cardValue := by
        refine mem_countValues (n := 2) ?_
        rw [CardsType.val, vals]
        exact getD_mem (List.length_pos_of_ne_nil some)
      simp only [CardsType.weights, CardsType.tieColor, kind, kind'] at first color
      cases h'.shape with
      | baoZi other => simp [kind'] at other
      | double _ vals' some' =>
          have mem' : h'.type.val 2 1 ∈ h'.cards.map cardValue := by
            refine mem_countValues (n := 2) ?_
            rw [CardsType.val, vals']
            exact getD_mem (List.length_pos_of_ne_nil some')
          rw [← first] at color mem'
          exact h.lead_card h' mem mem' color
      | plain other => exact ((plainType_ne _ _).2 (other.symm.trans kind')).elim
  | plain kind three =>
      have kind' := kinds.symm.trans kind
      have ne := plainType_ne h.cards (h.type.vals 1)
      cases h'.shape with
      | baoZi other => exact (ne.1 (kind'.symm.trans other)).elim
      | double other => exact (ne.2 (kind'.symm.trans other)).elim
      | plain kind₂ three' =>
          have short : 3 - 1 < (h.type.vals 1).length := by omega
          have short' : 3 - 1 < (h'.type.vals 1).length := by omega
          have mem : h.type.val 1 3 ∈ h.cards.map cardValue :=
            getCardsType_vals (getD_mem short)
          have mem' : h'.type.val 1 3 ∈ h'.cards.map cardValue :=
            getCardsType_vals (getD_mem short')
          have lead : h.type.val 1 3 = h'.type.val 1 3 := by
            by_cases special : h.type.type = .ct235
            · have five := plainType_ct235 (kind.symm.trans special)
              have five' := plainType_ct235 (kind₂.symm.trans (kinds.symm.trans special))
              exact five.trans five'.symm
            · cases hk : h.type.type <;>
                simp_all [CardsType.weights]
          have tie : ∀ ct : CardsType, ct.type ≠ .baoZi → ct.type ≠ .double →
              ct.tieColor = ct.color (ct.val 1 3) := by
            intro ct one two
            unfold CardsType.tieColor
            split <;> simp_all
          rw [tie _ (kind ▸ ne.1) (kind ▸ ne.2), tie _ (kind' ▸ ne.1) (kind' ▸ ne.2),
            ← lead] at color
          exact h.lead_card h' mem (lead ▸ mem') color

end Hands
end FkServer.Zhajinhua
