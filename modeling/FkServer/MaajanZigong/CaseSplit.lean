import FkServer.MaajanZigong.Hands
import Mathlib.Tactic.IntervalCases

/-!
The case split of `is_hu` against what it looks for. All the source reads of a suit is the
rest of its tile count and ten table entries, and these are known from the two numbers of
wildcards the suit needs, with the pair and without. Where a hand has at most four
wildcards only finitely many needs differ, and the case split is compared with the least
number of wildcards on all of them. Where a suit may not have a fifth tile of a kind its needs
do not say it all, and the case split is compared on what the tables can say.
-/
namespace FkServer.MaajanZigong
open WildcardCover WildcardCover.Deck

/-- What the tables say about a suit, `maajan_data[1]` and `maajan_data[2]` at 1 to 5. -/
structure Row where
  jiang : Fin 5 → Bool
  men : Fin 5 → Bool

variable {κ : Type} {data : MaajanData κ} {counts : Counts} {n : Nat}

/-- A row is a key of the table of all rows. -/
def rows : MaajanData Row := fun k g row =>
  if k = 1 then row.jiang (Fin.ofNat 5 (g - 1)) else row.men (Fin.ofNat 5 (g - 1))

def rowOf (data : MaajanData κ) (ser : κ) : Row :=
  ⟨fun g => data 1 (g.val + 1) ser, fun g => data 2 (g.val + 1) ser⟩

def Men.row (data : MaajanData κ) (men : Men κ) : Men Row := ⟨men.num, men.ser.map (rowOf data)⟩

theorem pass_map {κ' : Type} (f : κ → κ') (mens : List (Men κ)) (take : Nat → κ' → Option Used) :
    pass (mens.map fun men => ⟨men.num, men.ser.map f⟩) take =
      pass mens fun v ser => take v (f ser) := by
  rw [pass, pass, List.foldlM_map]
  congr 1
  funext used men
  cases men.ser <;> rfl

theorem numJiangPai_row (mens : List (Men κ)) :
    numJiangPai (mens.map (Men.row data)) = numJiangPai mens := by
  rw [numJiangPai, List.map_map]
  rfl

theorem numAllPai_row (mens : List (Men κ)) :
    numAllPai (mens.map (Men.row data)) = numAllPai mens := by
  rw [numAllPai, List.map_map]
  rfl

theorem pass_row (mens : List (Men κ)) (take : Nat → Row → Option Used) :
    pass (mens.map (Men.row data)) take = pass mens fun v ser => take v (rowOf data ser) :=
  pass_map (rowOf data) mens take

/-- The case split reads nothing but the rows. -/
theorem isHuMen_row (mens : List (Men κ)) (n : Nat) :
    isHuMen rows (mens.map (Men.row data)) n = isHuMen data mens n := by
  unfold isHuMen
  split
  · simp only [isHuNone, pass_row, numJiangPai_row, numAllPai_row]
    rfl
  · simp only [isHuOne, pass_row, numJiangPai_row, numAllPai_row]
    rfl
  · simp only [isHuTwo, pass_row, numJiangPai_row, numAllPai_row]
    rfl
  · simp only [isHuThree, pass_row, numAllPai_row]
    rfl
  · simp only [isHuFour, pass_row, numAllPai_row]
    rfl
  · rfl

/-! ### Needs -/

/-- A suit by the wildcards it needs, to be melds or to be melds and the pair. -/
structure Needs where
  empty : Bool
  melds : Nat
  paired : Nat
deriving DecidableEq

namespace Needs

def row (x : Needs) : Row where
  jiang g := decide (x.paired ≤ (g.val + 1) % 5 ∧ (g.val + 1) % 5 % 3 = x.paired % 3)
  men g := decide (x.melds ≤ (g.val + 1) % 5 ∧ (g.val + 1) % 5 % 3 = x.melds % 3)

def men (x : Needs) : Men Row := ⟨2 * x.melds % 3, if x.empty then none else some x.row⟩

structure Valid (x : Needs) : Prop where
  pair : x.paired + 1 = x.melds ∨ x.paired = x.melds + 2
  empty : x.empty = true → x.melds = 0

/-- What no four wildcards do is all alike. -/
def cap (x : Needs) : Needs :=
  if x.melds ≤ 4 ∨ x.paired ≤ 4 then x else ⟨x.empty, 5 + (x.melds + 1) % 3, 5 + x.melds % 3⟩

def all : List Needs :=
  [⟨true, 0, 2⟩, ⟨false, 0, 2⟩, ⟨false, 1, 0⟩, ⟨false, 1, 3⟩, ⟨false, 2, 1⟩, ⟨false, 2, 4⟩,
    ⟨false, 3, 2⟩, ⟨false, 3, 5⟩, ⟨false, 4, 3⟩, ⟨false, 4, 6⟩, ⟨false, 5, 4⟩, ⟨false, 5, 7⟩,
    ⟨false, 6, 5⟩, ⟨false, 7, 6⟩]

/-- Three wildcards make the suit melds, and fewer do not spare the pair. -/
def three (x : Needs) : Bool := x.melds == 3 && x.paired == 5

/-- Two wildcards make the suit melds, and one does not make it melds and the pair. -/
def two (x : Needs) : Bool := x.melds == 2 && x.paired == 4

variable {x : Needs}

theorem cap_cases (x : Needs) :
    x.cap = x ∨ (4 < x.melds ∧ 4 < x.paired) ∧ 4 < x.cap.melds ∧ 4 < x.cap.paired := by
  unfold cap
  split
  · exact .inl rfl
  · rename_i large
    refine .inr ⟨by omega, ?_, ?_⟩
    · exact Nat.lt_of_lt_of_le (by decide) (Nat.le_add_right 5 _)
    · exact Nat.lt_of_lt_of_le (by decide) (Nat.le_add_right 5 _)

theorem cap_empty (x : Needs) : x.cap.empty = x.empty := by
  unfold cap
  split <;> rfl

theorem cap_mod (x : Needs) : x.cap.melds % 3 = x.melds % 3 := by
  unfold cap
  split
  · rfl
  · change (5 + (x.melds + 1) % 3) % 3 = x.melds % 3
    omega

theorem cap_mem (valid : x.Valid) : x.cap ∈ all := by
  obtain ⟨empty, melds, paired⟩ := x
  obtain ⟨pair, nothing⟩ := valid
  simp only at pair nothing
  by_cases small : melds ≤ 4 ∨ paired ≤ 4
  · rw [cap, if_pos small]
    have few : melds ≤ 5 := by omega
    cases empty with
    | true =>
        obtain rfl := nothing rfl
        obtain rfl : paired = 2 := by omega
        decide
    | false =>
        interval_cases melds <;> rcases pair with pair | pair <;>
          first
          | (obtain rfl := pair; decide)
          | (obtain rfl := Nat.succ.inj pair; decide)
          | omega
  · cases empty with
    | true =>
        have := nothing rfl
        omega
    | false =>
        rw [cap, if_neg small]
        obtain ⟨h, h'⟩ | ⟨h, h'⟩ | ⟨h, h'⟩ : (melds % 3 = 0 ∧ (melds + 1) % 3 = 1) ∨
            (melds % 3 = 1 ∧ (melds + 1) % 3 = 2) ∨ (melds % 3 = 2 ∧ (melds + 1) % 3 = 0) := by
          omega
        all_goals
          simp only [h, h']
          decide

theorem cap_men (x : Needs) : x.cap.men = x.men := by
  have same : x.cap.row = x.row := by
    rcases cap_cases x with same | ⟨large, large'⟩
    · rw [same]
    · unfold row
      congr 1 <;> funext g <;> rw [decide_eq_decide] <;> omega
  have num : 2 * x.cap.melds % 3 = 2 * x.melds % 3 := by
    have := cap_mod x
    omega
  rw [men, men, same, num, cap_empty]

theorem melds_cap {k : Nat} (x : Needs) (small : k ≤ 4) :
    (x.cap.melds == k) = (x.melds == k) := by
  rcases cap_cases x with same | ⟨large, large'⟩
  · rw [same]
  · have : x.cap.melds ≠ k ∧ x.melds ≠ k := by omega
    simp [this]

theorem paired_cap {k : Nat} (x : Needs) (small : k ≤ 4) :
    (x.cap.paired == k) = (x.paired == k) := by
  rcases cap_cases x with same | ⟨large, large'⟩
  · rw [same]
  · have : x.cap.paired ≠ k ∧ x.paired ≠ k := by omega
    simp [this]

theorem three_cap (x : Needs) : x.cap.three = x.three := by
  rcases cap_cases x with same | ⟨large, large'⟩
  · rw [same]
  · have more : (x.melds == 3) = false := beq_false_of_ne (by omega)
    rw [three, three, melds_cap x (show 3 ≤ 4 by decide), more, Bool.false_and, Bool.false_and]

theorem two_cap (x : Needs) : x.cap.two = x.two := by
  rw [two, two, melds_cap x (show 2 ≤ 4 by decide), paired_cap x (show 4 ≤ 4 by decide)]

end Needs

section Three
variable (a b c : Needs)

/-- The least number of wildcards suffices. -/
def leastSuffice (n : Nat) : Bool :=
  decide (a.paired + b.melds + c.melds ≤ n) || decide (a.melds + b.paired + c.melds ≤ n) ||
    decide (a.melds + b.melds + c.paired ≤ n)

/-- Three wildcards for one suit and one for another, and the pair is there. -/
def threeAndOne : Bool := a.three && b.paired == 0 && c.melds == 1

/-- Two wildcards for each of two suits, and the pair is there. -/
def twoAndTwo : Bool := a.two && b.two && c.paired == 0

/-- The distributions of four wildcards the source does not try. -/
def overlooked : Bool :=
  threeAndOne a b c || threeAndOne a c b || threeAndOne b a c || threeAndOne b c a ||
    threeAndOne c a b || threeAndOne c b a ||
    twoAndTwo a b c || twoAndTwo a c b || twoAndTwo b c a

theorem agrees_all : ∀ n ∈ List.range 5, ∀ a ∈ Needs.all, ∀ b ∈ Needs.all, ∀ c ∈ Needs.all,
    (n + 2 * (a.melds + b.melds + c.melds)) % 3 = 2 →
      isHuMen rows [a.men, b.men, c.men] n =
        (leastSuffice a b c n && !(n == 4 && overlooked a b c)) := by
  decide +kernel

variable {a b c}

theorem leastSuffice_cap (few : n ≤ 4) :
    leastSuffice a.cap b.cap c.cap n = leastSuffice a b c n := by
  have ha := a.cap_cases
  have hb := b.cap_cases
  have hc := c.cap_cases
  have sum : ∀ {i j k i' j' k' : Nat}, (i = i' ∨ 4 < i ∧ 4 < i') → (j = j' ∨ 4 < j ∧ 4 < j') →
      (k = k' ∨ 4 < k ∧ 4 < k') → decide (i + j + k ≤ n) = decide (i' + j' + k' ≤ n) := by
    intro i j k i' j' k' hi hj hk
    rw [decide_eq_decide]
    omega
  have melds : ∀ x : Needs, x.cap.melds = x.melds ∨ 4 < x.cap.melds ∧ 4 < x.melds := fun x =>
    x.cap_cases.imp (congrArg Needs.melds) fun large => ⟨large.2.1, large.1.1⟩
  have paired : ∀ x : Needs, x.cap.paired = x.paired ∨ 4 < x.cap.paired ∧ 4 < x.paired := fun x =>
    x.cap_cases.imp (congrArg Needs.paired) fun large => ⟨large.2.2, large.1.2⟩
  rw [leastSuffice, leastSuffice, sum (paired a) (melds b) (melds c),
    sum (melds a) (paired b) (melds c), sum (melds a) (melds b) (paired c)]

theorem overlooked_cap : overlooked a.cap b.cap c.cap = overlooked a b c := by
  simp only [overlooked, threeAndOne, twoAndTwo, Needs.three_cap, Needs.two_cap,
    Needs.melds_cap _ (show 1 ≤ 4 by decide), Needs.paired_cap _ (show 0 ≤ 4 by decide)]

/-- The case split finds every distribution but the overlooked ones, and no other. -/
theorem isHuMen_needs (few : n ≤ 4) (ha : a.Valid) (hb : b.Valid) (hc : c.Valid)
    (residue : (n + 2 * (a.melds + b.melds + c.melds)) % 3 = 2) :
    isHuMen rows [a.men, b.men, c.men] n =
      (leastSuffice a b c n && !(n == 4 && overlooked a b c)) := by
  have capped := agrees_all n (List.mem_range.2 (by omega)) a.cap (Needs.cap_mem ha) b.cap
    (Needs.cap_mem hb) c.cap (Needs.cap_mem hc) (by
      have := a.cap_mod
      have := b.cap_mod
      have := c.cap_mod
      omega)
  rwa [Needs.cap_men, Needs.cap_men, Needs.cap_men, leastSuffice_cap few, overlooked_cap] at capped

/-- The overlooked distributions use four wildcards. -/
theorem leastSuffice_of_overlooked (h : overlooked a b c = true) : leastSuffice a b c 4 = true := by
  simp only [overlooked, threeAndOne, twoAndTwo, Needs.three, Needs.two, Bool.or_eq_true,
    Bool.and_eq_true, beq_iff_eq] at h
  simp only [leastSuffice, Bool.or_eq_true, decide_eq_true_eq]
  omega

end Three

/-! ### Tables without a fifth tile -/

/-- What the tables say about a suit with up to three wildcards, by the rest of its tiles: melds
with none, with three, and the pair with two; melds with two, the pair with one; melds with one,
the pair with none and with three. -/
structure Suit where
  empty : Bool
  rest : Nat
  a : Bool
  b : Bool
  c : Bool

namespace Suit

def melds (x : Suit) (g : Nat) : Bool :=
  match x.rest, g with
  | 0, 0 | 1, 2 | 2, 1 => x.a
  | 0, 3 => x.b
  | _, _ => false

def paired (x : Suit) (g : Nat) : Bool :=
  match x.rest, g with
  | 0, 2 | 2, 3 => x.c
  | 1, 1 | 2, 0 => x.b
  | _, _ => false

def row (x : Suit) : Row where
  jiang g := x.paired ((g.val + 1) % 5)
  men g := x.melds ((g.val + 1) % 5)

def men (x : Suit) : Men Row := ⟨x.rest, if x.empty then none else some x.row⟩

/-- The wildcards that make the pair do not make it a triplet. -/
def narrow (x : Suit) : Bool := x.rest != 0 && x.b && !x.a

/-- Three or two more wildcards find room where no more than 14 tiles are. -/
def all : List Suit :=
  [⟨true, 0, true, true, true⟩, ⟨false, 0, true, true, true⟩] ++
    [true, false].flatMap fun b => [true, false].flatMap fun c =>
      [⟨false, 0, false, b, c⟩, ⟨false, 1, b, c, false⟩, ⟨false, 2, true, b, c⟩, ⟨false, 2, false, b, c⟩]

/-- `n` wildcards can be distributed, and the pair is in one of the suits. -/
def distributes (x y z : Suit) (n : Nat) : Bool :=
  (List.range (n + 1)).any fun j => (x.melds j || x.paired j) &&
    (List.range (n + 1 - j)).any fun k => (y.melds k || y.paired k) &&
      let l := n - j - k
      (x.paired j && y.melds k && z.melds l) || (x.melds j && y.paired k && z.melds l) ||
        (x.melds j && y.melds k && z.paired l)

theorem mem_all {x : Suit} (few : x.rest ≤ 2) (last : x.rest = 1 → x.c = false)
    (room : x.rest = 0 → x.a = true → x.b = true ∧ x.c = true)
    (none : x.empty = true → x.rest = 0 ∧ x.a = true) : x ∈ all := by
  obtain ⟨empty, rest, a, b, c⟩ := x
  simp only at few last room none
  interval_cases rest <;> cases empty <;> cases a <;> cases b <;> cases c <;>
    first
    | (simp [all]; done)
    | simp at last room none

theorem agrees_all : ∀ n ∈ List.range 4, ∀ x ∈ all, ∀ y ∈ all, ∀ z ∈ all,
    (n + x.rest + y.rest + z.rest) % 3 = 2 →
      n = 0 ∨ !(x.narrow && y.narrow) && !(x.narrow && z.narrow) && !(y.narrow && z.narrow) →
      isHuMen rows [x.men, y.men, z.men] n = distributes x y z n := by
  decide +kernel

end Suit

/-- The entries for no more than `n` wildcards, where that is not four. -/
def upTo (n : Nat) (data : MaajanData κ) (ser : κ) : Row where
  jiang g := decide ((g.val + 1) % 5 ≤ n) && data 1 (g.val + 1) ser
  men g := decide ((g.val + 1) % 5 ≤ n) && data 2 (g.val + 1) ser

def Men.upTo (n : Nat) (data : MaajanData κ) (men : Men κ) : Men Row :=
  ⟨men.num, men.ser.map (MaajanZigong.upTo n data)⟩

/-- The case split reads no other entries. -/
theorem isHuMen_upTo (mens : List (Men κ)) (few : n ≤ 3) :
    isHuMen rows (mens.map (Men.upTo n data)) n = isHuMen data mens n := by
  have jiang : numJiangPai (mens.map (Men.upTo n data)) = numJiangPai mens := by
    rw [numJiangPai, List.map_map]
    rfl
  have all : numAllPai (mens.map (Men.upTo n data)) = numAllPai mens := by
    rw [numAllPai, List.map_map]
    rfl
  have passes : ∀ take, pass (mens.map (Men.upTo n data)) take =
      pass mens fun v ser => take v (upTo n data ser) := pass_map (upTo n data) mens
  unfold isHuMen
  split
  · simp only [isHuNone, passes, jiang, all]
    rfl
  · simp only [isHuOne, passes, jiang, all]
    rfl
  · simp only [isHuTwo, passes, jiang, all]
    rfl
  · simp only [isHuThree, passes, all]
    rfl
  · omega
  · rfl

end FkServer.MaajanZigong
