import Mathlib.Logic.Function.Basic

/-!
Records that are found by either of two keys. Each index is a partial function of its own, and a
record is put into both and taken out of both by separate writes.
-/
structure TwoIndexes (A B V : Type) where
  byLeft : A → Option V
  byRight : B → Option V

namespace TwoIndexes

variable {A B V : Type} {left : V → A} {right : V → B} {t : TwoIndexes A B V}

/-- Both indexes hold the same records, each under its own key. -/
structure Agree (left : V → A) (right : V → B) (t : TwoIndexes A B V) : Prop where
  ofLeft : ∀ a v, t.byLeft a = some v → left v = a ∧ t.byRight (right v) = some v
  ofRight : ∀ b v, t.byRight b = some v → right v = b ∧ t.byLeft (left v) = some v

theorem agree_empty : Agree left right ⟨fun _ => none, fun _ => none⟩ := ⟨by simp, by simp⟩

/-- One index finds a record with the other's key just when the other does. -/
theorem Agree.inverse (h : t.Agree left right) (a : A) (b : B) :
    (∃ v, t.byLeft a = some v ∧ right v = b) ↔ ∃ v, t.byRight b = some v ∧ left v = a := by
  constructor
  · rintro ⟨v, at_, rfl⟩
    exact ⟨v, (h.ofLeft a v at_).2, (h.ofLeft a v at_).1⟩
  · rintro ⟨v, at_, rfl⟩
    exact ⟨v, (h.ofRight b v at_).2, (h.ofRight b v at_).1⟩

/-- The two keys are free, or those of one record. -/
def Paired (t : TwoIndexes A B V) (a : A) (b : B) : Prop :=
  t.byLeft a = none ∧ t.byRight b = none ∨ ∃ v, t.byLeft a = some v ∧ t.byRight b = some v

/-- What is found under one key is taken from both. -/
theorem Agree.paired (h : t.Agree left right) {a : A} {v : V} (at_ : t.byLeft a = some v) :
    t.Paired a (right v) := .inr ⟨v, at_, (h.ofLeft a v at_).2⟩

variable [DecidableEq A] [DecidableEq B]

def set (left : V → A) (right : V → B) (t : TwoIndexes A B V) (v : V) : TwoIndexes A B V :=
  ⟨Function.update t.byLeft (left v) (some v), Function.update t.byRight (right v) (some v)⟩

/-- Whatever is under the two keys goes. -/
def clear (t : TwoIndexes A B V) (a : A) (b : B) : TwoIndexes A B V :=
  ⟨Function.update t.byLeft a none, Function.update t.byRight b none⟩

/-- A record takes the place of one with both its keys, or of none. -/
theorem Agree.set (h : t.Agree left right) {v : V}
    (noLeft : ∀ u, t.byLeft (left v) = some u → right u = right v)
    (noRight : ∀ u, t.byRight (right v) = some u → left u = left v) :
    (t.set left right v).Agree left right := by
  constructor
  · intro a u at_
    by_cases here : a = left v
    · subst here
      cases (Function.update_self .. : (t.set left right v).byLeft (left v) = some v).symm.trans at_
      exact ⟨rfl, Function.update_self ..⟩
    · have old : t.byLeft a = some u := (Function.update_of_ne here ..).symm.trans at_
      obtain ⟨key, there⟩ := h.ofLeft a u old
      have apart : right u ≠ right v := fun same => here (key.symm.trans (noRight u (same ▸ there)))
      exact ⟨key, (Function.update_of_ne apart ..).trans there⟩
  · intro b u at_
    by_cases here : b = right v
    · subst here
      cases (Function.update_self .. : (t.set left right v).byRight (right v) = some v).symm.trans at_
      exact ⟨rfl, Function.update_self ..⟩
    · have old : t.byRight b = some u := (Function.update_of_ne here ..).symm.trans at_
      obtain ⟨key, there⟩ := h.ofRight b u old
      have apart : left u ≠ left v := fun same => here (key.symm.trans (noLeft u (same ▸ there)))
      exact ⟨key, (Function.update_of_ne apart ..).trans there⟩

theorem Agree.clear (h : t.Agree left right) {a : A} {b : B} (paired : t.Paired a b) :
    (t.clear a b).Agree left right := by
  -- A record that stays has neither of the keys.
  have stays : ∀ u, t.byLeft (left u) = some u → t.byRight (right u) = some u →
      (left u = a ↔ right u = b) := by
    intro u atLeft atRight
    rcases paired with ⟨noLeft, noRight⟩ | ⟨v, onLeft, onRight⟩
    · constructor
      · rintro rfl
        rw [noLeft] at atLeft
        cases atLeft
      · rintro rfl
        rw [noRight] at atRight
        cases atRight
    · constructor
      · rintro rfl
        rw [onLeft] at atLeft
        cases atLeft
        exact (h.ofRight b u onRight).1
      · rintro rfl
        rw [onRight] at atRight
        cases atRight
        exact (h.ofLeft a u onLeft).1
  constructor
  · intro a' u at_
    by_cases here : a' = a
    · subst here
      cases (Function.update_self .. : (t.clear a' b).byLeft a' = none).symm.trans at_
    · have old : t.byLeft a' = some u := (Function.update_of_ne here ..).symm.trans at_
      obtain ⟨rfl, there⟩ := h.ofLeft a' u old
      have apart : right u ≠ b := fun same => here ((stays u old there).2 same)
      exact ⟨rfl, (Function.update_of_ne apart ..).trans there⟩
  · intro b' u at_
    by_cases here : b' = b
    · subst here
      cases (Function.update_self .. : (t.clear a b').byRight b' = none).symm.trans at_
    · have old : t.byRight b' = some u := (Function.update_of_ne here ..).symm.trans at_
      obtain ⟨rfl, there⟩ := h.ofRight b' u old
      have apart : left u ≠ a := fun same => here ((stays u there old).1 same)
      exact ⟨rfl, (Function.update_of_ne apart ..).trans there⟩

end TwoIndexes
