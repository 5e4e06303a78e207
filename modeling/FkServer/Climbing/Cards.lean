import Mathlib.Data.Finset.Card
import Mathlib.Data.Multiset.AddSub
import Mathlib.Data.Multiset.Basic

/-!
What the climbing games `land`, `pdk` and `pdk_sc` share: the value of a card, the tables
of values by their number of copies that `get_cards_type` builds, the comparison of two
discards, and what it means that a discard keeps the cards.
-/
namespace FkServer.Climbing

/-! ### Cards -/

def color (card : Int) : Int := card / 20

def value (card : Int) : Int := card % 20

/-- The values that occur exactly `n` times among the group keys of the cards. -/
def valuesOf (keys : List Int) (n : Nat) : List Int := keys.dedup.filter fun v => keys.count v = n

/-- `countcounts[n]`, with 0 for an absent entry. -/
def countCounts (keys : List Int) (n : Nat) : Nat := (valuesOf keys n).length

/-- `countvalues[n][1]`: the first in the order in which Lua meets the values. -/
def countValue (pairs : List Int → List Int) (keys : List Int) (n : Nat) : Int :=
  (pairs (valuesOf keys n)).headD 0

/-- The values that `for i = begin,14` runs over. -/
def valuesFrom (begin_ : Nat) : List Int := (List.range' begin_ (15 - begin_)).map fun i : Nat => (i : Int)

/-- `max_continuity_cards`: a gap drops what was found only when that is a single value. -/
def maxContinuityCards (has : Int → Bool) : List Int :=
  (valuesFrom 3).foldl (fun values i =>
    if has i then values ++ [i] else if values.length = 1 then [] else values) []

/-! ### Comparison -/

/-- What `compare_cards` looks at. -/
structure Played (Kind : Type) where
  kind : Kind
  count : Nat
  value : Int

structure LastDiscard (Kind : Type) extends Played Kind where
  cards : List Int
  chair : Nat

/-- `l.value > r.value and 1 or (l.value < r.value and -1 or 0)` -/
def compareValues (l r : Int) : Int := if r < l then 1 else if l < r then -1 else 0

/-- `compare_cards` of `land` and `pdk`, with the numbers of the types bomb and missle. -/
def compareCards {Kind : Type} (number : Kind → Nat) (bomb missle : Nat) (l : Played Kind)
    (r : Option (Played Kind)) : Option Int :=
  match r with
  | none => some 1
  | some r =>
      if number l.kind = missle then some 1
      else if number r.kind = missle then some (-1)
      else if number l.kind = bomb ∧
          (number r.kind < bomb ∨ number r.kind = bomb ∧ r.value < l.value) then some 1
      else if number r.kind = bomb then some (-1)
      else if number l.kind ≠ number r.kind then none
      else if l.count = r.count then some (compareValues l.value r.value)
      else none

/-- `not cmp or cmp <= 0` -/
def notGreater (cmp : Option Int) : Bool := cmp.all fun cmp => cmp ≤ 0

/-! ### The answer to a discard -/

/-- How a discard ends, and in which state: refused with an error, stopped by a Lua error,
accepted with the next chair on turn, or accepted as the last one, after which
`game_balance` settles the game. -/
inductive Reply (State : Type)
  | refused (s : State)
  | failed (s : State)
  | next (s : State)
  | over (s : State)

/-- An accepted discard takes exactly the submitted cards out of the hand of the player,
who had them; otherwise nothing changes at all. -/
def Conserves {State : Type} (hands : State → Nat → Multiset Int) (s : State) (chair : Nat)
    (cards : List Int) : Reply State → Prop
  | .refused s' => s' = s
  | .failed s' => s' = s
  | .next s' | .over s' => (cards : Multiset Int) ≤ hands s chair ∧
      hands s' = Function.update (hands s) chair (hands s chair - cards)

section Checks
variable {State : Type} {hands : State → Nat → Multiset Int} {s : State} {chair : Nat}
  {cards : List Int} {check refused later kept : Prop} [Decidable check] {rest : Reply State}

/-- A check before the rest of an action: a refused list leaves the table as it was. -/
theorem conserves_check_iff (meant : check ↔ refused)
    (passed : ¬ refused → (Conserves hands s chair cards rest ↔ kept ∨ later)) :
    Conserves hands s chair cards (if check then .refused s else rest) ↔ kept ∨ refused ∨ later := by
  by_cases here : refused
  · rw [if_pos (meant.2 here)]
    exact iff_of_true rfl (.inr (.inl here))
  · rw [if_neg (mt meant.1 here), or_iff_right here]
    exact passed here

theorem conserves_last_check_iff
    (passed : ¬ check → (Conserves hands s chair cards rest ↔ kept)) :
    Conserves hands s chair cards (if check then .refused s else rest) ↔ kept ∨ check := by
  by_cases here : check
  · rw [if_pos here]
    exact iff_of_true rfl (.inr here)
  · rw [if_neg here, or_iff_left here]
    exact passed here

/-- What is asked of the type that was found. -/
theorem forall_found_iff {Kind Value : Type} {kind : Kind} {v : Value} {asked : Kind → Value → Prop} :
    (∀ kind' v', some (kind, v) = some (kind', v') → asked kind' v') ↔ asked kind v := by
  simp

end Checks

/-- Of a set of cards, a list of held cards takes itself away if it repeats none. -/
theorem set_takes_iff (hand : Finset Int) (cards : List Int)
    (held : ∀ card, card ∈ cards → card ∈ hand) :
    ((cards : Multiset Int) ≤ hand.val ∧ (hand \ cards.toFinset).val = hand.val - cards) ↔
      cards.Nodup := by
  constructor
  · intro h
    exact Multiset.coe_nodup.1 (Multiset.nodup_of_le h.1 hand.nodup)
  · intro distinct
    refine ⟨(Multiset.le_iff_subset (Multiset.coe_nodup.2 distinct)).2 held, ?_⟩
    rw [Finset.sdiff_val, List.toFinset_val, distinct.dedup]

theorem update_hands (hands : Nat → Finset Int) (chair : Nat) (hand : Finset Int) :
    (fun other => (Function.update hands chair hand other).val) =
      Function.update (fun other => (hands other).val) chair hand.val := by
  funext other
  by_cases same : other = chair
  · rw [same, Function.update_self, Function.update_self]
  · rw [Function.update_of_ne same, Function.update_of_ne same]

/-- The hands after the cards of a list have been set to nil. -/
theorem set_hands_take_iff (hands : Nat → Finset Int) (chair : Nat) (cards : List Int)
    (held : ∀ card, card ∈ cards → card ∈ hands chair) :
    ((cards : Multiset Int) ≤ (hands chair).val ∧
      (fun other => (Function.update hands chair (hands chair \ cards.toFinset) other).val) =
        Function.update (fun other => (hands other).val) chair ((hands chair).val - cards)) ↔
      cards.Nodup := by
  rw [update_hands, ← set_takes_iff (hands chair) cards held]
  exact and_congr_right fun _ => (Function.update_injective _ _).eq_iff

end FkServer.Climbing
