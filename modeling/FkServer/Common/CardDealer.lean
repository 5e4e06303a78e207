import FkServer.Common.Functions
import FkServer.Common.MaajanTileDealer
import FkServer.Library.Runs

/-!
`common/card_dealer`: the cards from `remainder_card_count` down are dealt from the
end. The two dealers are put through arbitrary sequences of deals, with the cards
they have handed out kept beside them.
-/
namespace FkServer

structure CardDealer where
  cards : List Nat
  remainderCardCount : Int

namespace CardDealer

/-- `self.cards[i]` -/
def card (d : CardDealer) (i : Int) : Option Nat :=
  if 0 < i then d.cards[(i - 1).toNat]? else none

/-- `card_dealer.new` -/
def new (cards : List Nat) : CardDealer := ⟨cards, cards.length⟩

def shuffle (d : CardDealer) (rnd : Nat → Nat) : CardDealer :=
  ⟨MaajanTileDealer.shuffleFrom rnd (d.cards.length - 1) d.cards, d.cards.length⟩

/-- `deal_one` counts down also when nothing is left. -/
def dealOne (d : CardDealer) : Option Nat × CardDealer :=
  (d.card d.remainderCardCount, ⟨d.cards, d.remainderCardCount - 1⟩)

/-- The loop of `deal_one_by_condition` from place `j` down. -/
def lastIndex (func : Nat → Bool) (cards : List Nat) : Nat → Option Nat
  | 0 => none
  | j + 1 => if func (cards.getD j 0) then some j else lastIndex func cards j

/-- `deal_one_by_condition`; the card found changes places with the first one. -/
def dealOneByCondition (d : CardDealer) (func : Nat → Bool) : Nat × CardDealer :=
  match lastIndex func d.cards d.remainderCardCount.toNat with
  | none => (0, d)
  | some j =>
      (d.cards.getD j 0,
        ⟨MaajanTileDealer.swap d.cards j 0, d.remainderCardCount - 1⟩)

/-- `deal_cards`; 0 stands for no card. -/
def dealCards : Nat → CardDealer → List Nat × CardDealer
  | 0, d => ([], d)
  | count + 1, d =>
      let one := d.dealOne
      let rest := dealCards count one.2
      ((one.1.toList.filter fun c => c ≠ 0) ++ rest.1, rest.2)

/-- The cards not dealt yet. -/
def left (d : CardDealer) : List Nat := d.cards.take d.remainderCardCount.toNat

/-- `left_cards` -/
def leftCards (d : CardDealer) : Slice Nat := slice d.cards 1 (some d.remainderCardCount)

end CardDealer

namespace MaajanTileDealer

/-- The first undealt place from `j` on whose tile meets the condition. -/
def firstIndex (func : Nat → Bool) (tiles : List Nat) (j : Nat) : Nat → Option Nat
  | 0 => none
  | fuel + 1 => if func (tiles.getD j 0) then some j else firstIndex func tiles (j + 1) fuel

/-- The tile at place `j` of the undealt ones is dealt. -/
def takeAt (d : MaajanTileDealer) (j : Nat) : Nat × MaajanTileDealer :=
  (d.tiles.getD j 0,
    { tiles := swap d.tiles j (d.remainCount - 1)
      remainCount := d.remainCount - 1
      within := by
        have := d.within
        rw [length_swap]
        omega })

/-- `deal_one_on` -/
def dealOneOn (d : MaajanTileDealer) (func : Nat → Bool) : Nat × MaajanTileDealer :=
  match firstIndex func d.tiles 0 d.remainCount with
  | none => (0, d)
  | some j => d.takeAt j

/-- `deal_tiles`, as far as there are tiles: one random number for each deal. -/
def dealTiles : List Nat → MaajanTileDealer → Option (List Nat × MaajanTileDealer)
  | [], d => some ([], d)
  | rnd :: rnds, d =>
      match d.dealOne rnd with
      | none => none
      | some (tile, d') =>
          (dealTiles rnds d').map fun r => ((if tile ≠ 0 then [tile] else []) ++ r.1, r.2)

/-- `remain_tiles`; before the tiles are shuffled `remain_count` is nil. -/
def remainTiles (tiles : List Nat) (remainCount : Option Int) : Slice Nat :=
  slice tiles 1 remainCount

end MaajanTileDealer

/-! ### Dealing in any order -/

/-- A dealer and the cards it has handed out, the last ones first. -/
structure Dealing (D : Type) where
  dealer : D
  dealt : List Nat

inductive CardDeal
  | dealOne
  | dealOneByCondition (func : Nat → Bool)
  | dealCards (count : Nat)

/-- What a deal hands out; 0 and nil are no cards. -/
def CardDealer.deal (d : CardDealer) : CardDeal → List Nat × CardDealer
  | .dealOne => (d.dealOne.1.toList, d.dealOne.2)
  | .dealOneByCondition func =>
      (([(d.dealOneByCondition func).1].filter fun c => c ≠ 0), (d.dealOneByCondition func).2)
  | .dealCards count => d.dealCards count

inductive TileDeal
  | dealOne (rnd : Nat)
  | dealOneOn (func : Nat → Bool)
  | dealTiles (rnds : List Nat)

/-- Also for tiles; with no tile left the generator is asked for a number from nothing,
and what it answers is not known here. -/
def MaajanTileDealer.deal (d : MaajanTileDealer) : TileDeal → Option (List Nat × MaajanTileDealer)
  | .dealOne rnd => (d.dealOne rnd).map fun r => ([r.1], r.2)
  | .dealOneOn func => some (([(d.dealOneOn func).1].filter fun c => c ≠ 0), (d.dealOneOn func).2)
  | .dealTiles rnds => dealTiles rnds d

/-! ### What one deal does -/

theorem filter_card {c : Nat} (card : c ≠ 0) : [c].filter (fun c => c ≠ 0) = [c] :=
  List.filter_cons_of_pos (decide_eq_true card)

namespace CardDealer

variable {d : CardDealer} {func : Nat → Bool}

/-- There are at least as many cards as are left to deal. -/
def Inside (d : CardDealer) : Prop := d.remainderCardCount ≤ d.cards.length

theorem inside_new (cards : List Nat) : (new cards).Inside := Int.le_refl _

theorem left_new (cards : List Nat) : (new cards).left = cards := by
  simp [left, new]

theorem inside_shuffle (d : CardDealer) (rnd : Nat → Nat) : (d.shuffle rnd).Inside := by
  have same : (d.shuffle rnd).cards.length = d.cards.length :=
    (MaajanTileDealer.shuffleFrom_perm rnd (by omega)).length_eq
  rw [Inside, same]
  exact Int.le_refl _

theorem left_shuffle (d : CardDealer) (rnd : Nat → Nat) : (d.shuffle rnd).left.Perm d.cards := by
  have perm := @MaajanTileDealer.shuffleFrom_perm rnd (d.cards.length - 1) d.cards (by omega)
  have all : (d.shuffle rnd).left =
      MaajanTileDealer.shuffleFrom rnd (d.cards.length - 1) d.cards := by
    rw [left, shuffle, Int.toNat_natCast]
    exact List.take_of_length_le perm.length_eq.le
  rw [all]
  exact perm

theorem dealOne_left (inside : d.Inside) :
    (d.dealOne.1.toList ++ d.dealOne.2.left).Perm d.left ∧ d.dealOne.2.Inside := by
  unfold Inside at inside ⊢
  unfold dealOne
  dsimp only
  refine ⟨?_, by omega⟩
  unfold card left
  dsimp only
  split
  · have within : (d.remainderCardCount - 1).toNat < d.cards.length := by omega
    have count : d.remainderCardCount.toNat = (d.remainderCardCount - 1).toNat + 1 := by omega
    rw [List.getElem?_eq_getElem within, Option.toList_some, count,
      List.take_succ_eq_append_getElem within]
    exact (List.perm_append_singleton _ _).symm
  · have none_left : d.remainderCardCount.toNat = 0 := by omega
    have none_then : (d.remainderCardCount - 1).toNat = 0 := by omega
    rw [none_left, none_then]
    exact .refl _

theorem dealCards_left {count : Nat} (inside : d.Inside) (no_zero : 0 ∉ d.left) :
    ((dealCards count d).1 ++ (dealCards count d).2.left).Perm d.left ∧
      (dealCards count d).2.Inside := by
  induction count generalizing d with
  | zero => exact ⟨.refl _, inside⟩
  | succ count ih =>
      obtain ⟨perm, inside'⟩ := dealOne_left inside
      have kept : (d.dealOne.1.toList.filter fun c => c ≠ 0) = d.dealOne.1.toList := by
        rw [List.filter_eq_self]
        intro c dealt
        have there := perm.mem_iff.1 (List.mem_append_left _ dealt)
        exact decide_eq_true fun zero => no_zero (zero ▸ there)
      have rest := @ih d.dealOne.2 inside' fun zero =>
        no_zero (perm.mem_iff.1 (List.mem_append_right _ zero))
      refine ⟨?_, rest.2⟩
      unfold dealCards
      dsimp only
      rw [kept, List.append_assoc]
      exact (rest.1.append_left _).trans perm

theorem lastIndex_eq_some {cards : List Nat} {k j : Nat} (h : lastIndex func cards k = some j) :
    j < k ∧ func (cards.getD j 0) = true := by
  induction k with
  | zero => cases h
  | succ k ih =>
      unfold lastIndex at h
      split at h
      · rename_i here
        cases h
        exact ⟨Nat.lt_succ_self _, here⟩
      · exact ⟨(ih h).1.trans (Nat.lt_succ_self k), (ih h).2⟩

/-- When the card at the last place met the condition it would be found, and so on. -/
theorem lastIndex_eq_none {cards : List Nat} {k : Nat} (within : k ≤ cards.length) :
    lastIndex func cards k = none ↔ ∀ c ∈ cards.take k, func c = false := by
  induction k with
  | zero => simp [lastIndex]
  | succ k ih =>
      have here : cards.getD k 0 = cards[k] := by simp [List.getD, show k < cards.length by omega]
      unfold lastIndex
      rw [List.take_succ_eq_append_getElem within, here]
      simp only [List.mem_append, List.mem_singleton]
      split
      · rename_i meets
        refine ⟨nofun, fun all => ?_⟩
        rw [all _ (.inr rfl)] at meets
        cases meets
      · rename_i fails
        rw [ih (by omega)]
        constructor
        · intro before c listed
          cases listed with
          | inl earlier => exact before c earlier
          | inr same => exact same ▸ eq_false_of_ne_true fails
        · exact fun all c listed => all c (.inl listed)

/-- Where a deal on a condition keeps the deck together: no card meets it, or the one
found is the last one. -/
def Single (d : CardDealer) (func : Nat → Bool) : Prop :=
  d.left.length = 1 ∨ ∀ c ∈ d.left, func c = false

theorem dealOneByCondition_none (h : lastIndex func d.cards d.remainderCardCount.toNat = none) :
    d.dealOneByCondition func = (0, d) := by
  unfold dealOneByCondition
  rw [h]

theorem dealOneByCondition_some {j : Nat}
    (h : lastIndex func d.cards d.remainderCardCount.toNat = some j) :
    d.dealOneByCondition func = (d.cards.getD j 0,
      ⟨MaajanTileDealer.swap d.cards j 0, d.remainderCardCount - 1⟩) := by
  unfold dealOneByCondition
  rw [h]

theorem length_left (inside : d.Inside) : d.left.length = d.remainderCardCount.toNat := by
  unfold Inside at inside
  rw [left, List.length_take]
  omega

theorem dealOneByCondition_left (inside : d.Inside) (no_zero : 0 ∉ d.left)
    (single : d.Single func) :
    (([(d.dealOneByCondition func).1].filter fun c => c ≠ 0) ++
        (d.dealOneByCondition func).2.left).Perm d.left ∧ (d.dealOneByCondition func).2.Inside := by
  have within : d.remainderCardCount.toNat ≤ d.cards.length := by
    unfold Inside at inside
    omega
  cases found : lastIndex func d.cards d.remainderCardCount.toNat with
  | none =>
      rw [dealOneByCondition_none found]
      exact ⟨.refl _, inside⟩
  | some j =>
      obtain ⟨before, meets⟩ := lastIndex_eq_some found
      have one : d.left.length = 1 := by
        refine single.resolve_right fun nobody => ?_
        rw [(lastIndex_eq_none within).2 nobody] at found
        cases found
      rw [length_left inside] at one
      obtain rfl : j = 0 := by omega
      have first : d.left = [d.cards.getD 0 0] := by
        rw [left, one]
        cases cards : d.cards with
        | nil =>
            rw [cards, one] at within
            exact absurd within (by decide)
        | cons c cards => rfl
      have not_zero : d.cards.getD 0 0 ≠ 0 := by
        intro zero
        rw [first, zero] at no_zero
        exact no_zero (.head _)
      have last : d.remainderCardCount - 1 = 0 := by omega
      rw [dealOneByCondition_some found, first]
      refine ⟨?_, ?_⟩
      · rw [filter_card not_zero]
        simp [left, last]
      · rw [Inside, last]
        exact Int.natCast_nonneg _

/-- In every other case the card found stays among the undealt ones. -/
theorem single_of_left (inside : d.Inside) (no_zero : 0 ∉ d.left) (distinct : d.left.Nodup)
    (perm : (([(d.dealOneByCondition func).1].filter fun c => c ≠ 0) ++
        (d.dealOneByCondition func).2.left).Perm d.left) : d.Single func := by
  have within : d.remainderCardCount.toNat ≤ d.cards.length := by
    unfold Inside at inside
    omega
  cases found : lastIndex func d.cards d.remainderCardCount.toNat with
  | none => exact .inr ((lastIndex_eq_none within).1 found)
  | some j =>
      left
      obtain ⟨before, meets⟩ := lastIndex_eq_some found
      rw [length_left inside]
      by_contra more
      rw [dealOneByCondition_some found] at perm
      have at_j : d.cards.getD j 0 = d.cards[j] := by
        simp [List.getD, show j < d.cards.length by omega]
      have listed : d.cards.getD j 0 ∈ d.left := by
        rw [at_j, left]
        exact List.mem_take_iff_getElem.2 ⟨j, by omega, rfl⟩
      have not_zero : d.cards.getD j 0 ≠ 0 := fun zero => no_zero (zero ▸ listed)
      have again : d.cards.getD j 0 ∈
          (⟨MaajanTileDealer.swap d.cards j 0, d.remainderCardCount - 1⟩ : CardDealer).left := by
        have first : 0 < (MaajanTileDealer.swap d.cards j 0).length := by
          rw [MaajanTileDealer.length_swap]
          omega
        refine List.mem_take_iff_getElem.2 ⟨0, ?_, ?_⟩
        · dsimp only
          omega
        · simp [MaajanTileDealer.swap]
      have twice := perm.nodup_iff.2 distinct
      rw [filter_card not_zero, List.singleton_append, List.nodup_cons] at twice
      exact twice.1 again

end CardDealer

namespace MaajanTileDealer

variable {d : MaajanTileDealer} {func : Nat → Bool}

theorem firstIndex_eq_some {tiles : List Nat} {j fuel found : Nat}
    (h : firstIndex func tiles j fuel = some found) : found < j + fuel := by
  induction fuel generalizing j with
  | zero => cases h
  | succ fuel ih =>
      unfold firstIndex at h
      split at h
      · cases h
        omega
      · have := ih h
        omega

theorem takeAt_wall {j : Nat} (before : j < d.remainCount) :
    d.wall = (d.takeAt j).1 ::ₘ (d.takeAt j).2.wall := by
  have inside := d.within
  have same : d.dealOne j = some (d.takeAt j) := by
    unfold dealOne takeAt
    split
    · omega
    · rename_i k remain
      simp only [remain, Nat.mod_eq_of_lt (remain ▸ before), Nat.succ_eq_add_one,
        Nat.add_sub_cancel]
  exact (dealOne_wall same).1

theorem dealOneOn_wall (no_zero : 0 ∉ d.wall) :
    ((([(d.dealOneOn func).1].filter fun c => c ≠ 0) : Multiset Nat) + (d.dealOneOn func).2.wall) =
      d.wall := by
  unfold dealOneOn
  cases found : firstIndex func d.tiles 0 d.remainCount with
  | none => exact Multiset.zero_add _
  | some j =>
      have wall := takeAt_wall (Nat.zero_add d.remainCount ▸ firstIndex_eq_some found)
      have not_zero : (d.takeAt j).1 ≠ 0 := by
        intro zero
        rw [wall, zero] at no_zero
        exact no_zero (Multiset.mem_cons_self 0 _)
      dsimp only
      rw [filter_card not_zero, wall]
      rfl

theorem dealTiles_wall {rnds tiles : List Nat} {d' : MaajanTileDealer} (no_zero : 0 ∉ d.wall)
    (h : dealTiles rnds d = some (tiles, d')) : (tiles : Multiset Nat) + d'.wall = d.wall := by
  induction rnds generalizing d tiles with
  | nil =>
      cases h
      exact Multiset.zero_add _
  | cons rnd rnds ih =>
      unfold dealTiles at h
      split at h
      · cases h
      · rename_i tile d₁ deal
        obtain ⟨⟨others, d₂⟩, rest, same⟩ := Option.map_eq_some_iff.1 h
        cases same
        have wall := (dealOne_wall deal).1
        have not_zero : tile ≠ 0 := by
          intro zero
          rw [wall, zero] at no_zero
          exact no_zero (Multiset.mem_cons_self 0 _)
        have others_wall := ih (fun zero => no_zero (wall ▸ Multiset.mem_cons_of_mem zero)) rest
        rw [if_pos not_zero, wall, ← others_wall]
        rfl

end MaajanTileDealer

/-! ### Runs of deals -/

section Runs

variable {deck : List Nat}

/-- A fresh dealer, shuffled or not. -/
def CardDealer.Fresh (deck : List Nat) (s : Dealing CardDealer) : Prop :=
  s.dealt = [] ∧
    (s.dealer = .new deck ∨ ∃ rnd, s.dealer = (CardDealer.new deck).shuffle rnd)

def CardDealer.Deals (s : Dealing CardDealer) (op : CardDeal) (s' : Dealing CardDealer) : Prop :=
  s' = ⟨(s.dealer.deal op).2, (s.dealer.deal op).1 ++ s.dealt⟩

/-- The deals on a condition that keep the deck together. -/
def CardDealer.Fits (s : Dealing CardDealer) : CardDeal → Prop
  | .dealOneByCondition func => s.dealer.Single func
  | _ => True

def MaajanTileDealer.Fresh (deck : List Nat) (s : Dealing MaajanTileDealer) : Prop :=
  s.dealt = [] ∧ ∃ rnd, s.dealer = MaajanTileDealer.shuffle deck rnd

def MaajanTileDealer.Deals (s : Dealing MaajanTileDealer) (op : TileDeal)
    (s' : Dealing MaajanTileDealer) : Prop :=
  ∃ tiles, s.dealer.deal op = some (tiles, s'.dealer) ∧ s'.dealt = tiles ++ s.dealt

/-- What was dealt and what is left are the deck. -/
def CardDealer.Conserved (deck : List Nat) (s : Dealing CardDealer) : Prop :=
  s.dealer.Inside ∧ (s.dealt ++ s.dealer.left).Perm deck

def MaajanTileDealer.Conserved (deck : List Nat) (s : Dealing MaajanTileDealer) : Prop :=
  (s.dealt : Multiset Nat) + s.dealer.wall = deck

theorem CardDealer.Fresh.conserved {s : Dealing CardDealer} (fresh : Fresh deck s) :
    Conserved deck s := by
  obtain ⟨none_dealt, dealer⟩ := fresh
  unfold Conserved
  rw [none_dealt, List.nil_append]
  cases dealer with
  | inl new =>
      rw [new]
      exact ⟨inside_new deck, (left_new deck).symm ▸ .refl _⟩
  | inr shuffled =>
      obtain ⟨rnd, shuffled⟩ := shuffled
      rw [shuffled]
      exact ⟨inside_shuffle _ rnd, left_shuffle _ rnd⟩

theorem CardDealer.Conserved.deal {s s' : Dealing CardDealer} {op : CardDeal}
    (no_zero : 0 ∉ deck) (conserved : Conserved deck s) (fits : Fits s op)
    (deals : Deals s op s') : Conserved deck s' := by
  obtain ⟨inside, perm⟩ := conserved
  have none_zero : 0 ∉ s.dealer.left :=
    fun zero => no_zero (perm.mem_iff.1 (List.mem_append_right _ zero))
  have one : ((s.dealer.deal op).1 ++ (s.dealer.deal op).2.left).Perm s.dealer.left ∧
      (s.dealer.deal op).2.Inside := by
    cases op with
    | dealOne => exact dealOne_left inside
    | dealOneByCondition func => exact dealOneByCondition_left inside none_zero fits
    | dealCards count => exact dealCards_left inside none_zero
  cases deals
  refine ⟨one.2, ?_⟩
  dsimp only
  rw [List.append_assoc]
  have swap := List.perm_append_comm_assoc (s.dealer.deal op).1 s.dealt (s.dealer.deal op).2.left
  exact (swap.trans (one.1.append_left s.dealt)).trans perm

theorem MaajanTileDealer.Conserved.deal {s s' : Dealing MaajanTileDealer} {op : TileDeal}
    (no_zero : 0 ∉ deck) (conserved : Conserved deck s) (deals : Deals s op s') :
    Conserved deck s' := by
  unfold Conserved at conserved ⊢
  have none_zero : 0 ∉ s.dealer.wall := by
    intro zero
    have : 0 ∈ (deck : Multiset Nat) := conserved ▸ Multiset.mem_add.2 (.inr zero)
    exact no_zero (Multiset.mem_coe.1 this)
  obtain ⟨tiles, deal, dealt⟩ := deals
  have one : (tiles : Multiset Nat) + s'.dealer.wall = s.dealer.wall := by
    cases op with
    | dealOne rnd =>
        obtain ⟨⟨tile, d⟩, taken, same⟩ := Option.map_eq_some_iff.1 deal
        obtain ⟨rfl, rfl⟩ := Prod.mk.inj same
        exact (dealOne_wall taken).1.symm
    | dealOneOn func =>
        obtain ⟨rfl, same⟩ := Prod.mk.inj (Option.some.inj deal)
        rw [← same]
        exact dealOneOn_wall none_zero
    | dealTiles rnds => exact dealTiles_wall none_zero deal
  rw [dealt, ← Multiset.coe_add, ← conserved, ← one, Multiset.add_assoc, ← Multiset.add_assoc,
    Multiset.add_comm (tiles : Multiset Nat), Multiset.add_assoc]

/-- No card is dealt twice, and none is lost, while every deal on a condition finds
the last card or none. -/
theorem cards_dealt_once (deck : List Nat) (distinct : deck.Nodup) (no_zero : 0 ∉ deck) :
    (∀ s, Runs.Reaches (CardDealer.Fresh deck) CardDealer.Deals CardDealer.Fits s →
      s.dealt.Nodup ∧ (s.dealt ++ s.dealer.left).Perm deck) ∧
    (∀ s, Runs.Reachable (MaajanTileDealer.Fresh deck) MaajanTileDealer.Deals s →
      s.dealt.Nodup ∧ (s.dealt : Multiset Nat) + s.dealer.wall = deck) := by
  constructor
  · intro s reached
    have conserved := @Runs.Reaches.invariant _ _ _ _ _ (CardDealer.Conserved deck) _ reached
      (fun _ fresh => fresh.conserved)
      (fun _ _ _ conserved fits deals => conserved.deal no_zero fits deals)
    exact ⟨(conserved.2.nodup_iff.2 distinct).of_append_left, conserved.2⟩
  · intro s reached
    have conserved := @Runs.Reaches.invariant _ _ _ _ _ (MaajanTileDealer.Conserved deck) _ reached
      (by
        rintro s ⟨none_dealt, rnd, dealer⟩
        rw [MaajanTileDealer.Conserved, none_dealt, dealer, MaajanTileDealer.wall_shuffle]
        exact Multiset.zero_add _)
      (fun _ _ _ conserved _ deals => conserved.deal no_zero deals)
    refine ⟨?_, conserved⟩
    have all : ((s.dealt : Multiset Nat) + s.dealer.wall).Nodup :=
      conserved ▸ Multiset.coe_nodup.2 distinct
    exact Multiset.coe_nodup.1 (Multiset.nodup_of_le (Multiset.le_add_right _ _) all)

/-- Two of three cards are dealt. -/
theorem two_cards_dealt :
    ([5, 4] : List Nat).Nodup ∧ ([5, 4] ++ (⟨[3, 4, 5], 1⟩ : CardDealer).left).Perm [3, 4, 5] := by
  have start : Runs.Reaches (CardDealer.Fresh [3, 4, 5]) CardDealer.Deals CardDealer.Fits
      ⟨.new [3, 4, 5], []⟩ := .start ⟨rfl, .inl rfl⟩
  have dealt := Runs.Reaches.next (CardDeal.dealCards 2) start trivial rfl
  exact (cards_dealt_once [3, 4, 5] (by decide) (by decide)).1 _ dealt

/-- The card asked for by its value is dealt again later. -/
theorem card_dealt_twice :
    ¬ ∀ deck : List Nat, deck.Nodup → 0 ∉ deck →
      ∀ s, Runs.Reachable (CardDealer.Fresh deck) CardDealer.Deals s →
        s.dealt.Nodup ∧ (s.dealt ++ s.dealer.left).Perm deck := by
  intro claim
  have start : Runs.Reachable (CardDealer.Fresh [3, 4, 5]) CardDealer.Deals
      ⟨.new [3, 4, 5], []⟩ := .start ⟨rfl, .inl rfl⟩
  have asked := Runs.Reaches.next (.dealOneByCondition fun c => c = 4) start trivial rfl
  have all := Runs.Reaches.next (.dealCards 2) asked trivial rfl
  have twice := (claim [3, 4, 5] (by decide) (by decide) _ all).1
  revert twice
  decide

end Runs

/-! ### The tiles that are left -/

/-- The dealers list what is left as long as that is two tiles or more, also after tiles
have been taken back or asked for beyond the last one, and before the first shuffle. -/
theorem undealt_listed_iff (d : CardDealer) (m : MaajanTileDealer) (tiles : List Nat)
    (remainCount : Option Int) :
    (d.leftCards = .list d.left ↔ 2 ≤ d.remainderCardCount) ∧
    (MaajanTileDealer.remainTiles m.tiles (some m.remainCount) =
        .list (m.tiles.take m.remainCount) ↔ 2 ≤ m.remainCount) ∧
    (MaajanTileDealer.remainTiles tiles remainCount =
        .list (tiles.take (remainCount.getD tiles.length).toNat) ↔
      2 ≤ remainCount.getD tiles.length) := by
  refine ⟨slice_one_iff d.cards (some d.remainderCardCount), ?_, slice_one_iff tiles remainCount⟩
  have left := slice_one_iff m.tiles (some (m.remainCount : Int))
  rw [Option.getD_some, Int.toNat_natCast] at left
  exact left.trans (by omega)

/-- One of two cards is dealt, and the other is no list; after it there is nothing. -/
theorem last_card_is_no_list :
    ((CardDealer.new [3, 4]).dealCards 1).2.leftCards = .entry (some 3) ∧
    ((CardDealer.new [3, 4]).dealCards 1).2.left = [3] ∧
    ((CardDealer.new [3, 4]).dealCards 2).2.leftCards = .none ∧
    ¬ ∀ d : CardDealer, d.leftCards = .list d.left := by
  refine ⟨rfl, rfl, rfl, ?_⟩
  intro claim
  exact absurd (claim ⟨[3, 4], 1⟩) nofun

end FkServer
