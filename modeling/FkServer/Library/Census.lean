import Mathlib.Data.Finset.Card
import Mathlib.Logic.Function.Basic
import Mathlib.Tactic.Ring

/-!
Scores kept beside a register: every member of a finite set is at one place, and the score of a
place is to be the number of members there. The scores are stored under keys, one for each place.
-/
namespace Census

universe u v w
variable {α : Type u} {β : Type v} {κ : Type w} [DecidableEq α] [DecidableEq β] [DecidableEq κ]
variable {place : α → Option β} {members : Finset α} {a : α} {b c : β}

/-- The members at a place. -/
def present (place : α → Option β) (members : Finset α) (b : β) : Finset α :=
  members.filter fun a => place a = some b

omit [DecidableEq α] in
theorem mem_present : a ∈ present place members b ↔ a ∈ members ∧ place a = some b :=
  Finset.mem_filter

theorem present_insert_self (b : β) :
    present (Function.update place a (some b)) (insert a members) b =
      insert a (present place members b) := by
  ext x
  by_cases h : x = a
  · subst h
    simp [mem_present]
  · simp [mem_present, h]

theorem present_insert_of_ne (absent : a ∉ members) (h : c ≠ b) :
    present (Function.update place a (some b)) (insert a members) c = present place members c := by
  ext x
  by_cases same : x = a
  · subst same
    simp [mem_present, absent, h.symm]
  · simp [mem_present, same]

theorem present_erase_self (place' : Option β) :
    present (Function.update place a place') (members.erase a) b =
      (present place members b).erase a := by
  ext x
  by_cases h : x = a
  · subst h
    simp [mem_present]
  · simp [mem_present, h]

/-- Elsewhere nobody misses a member who was not there. -/
theorem present_erase_of_ne (here : place a = some b) (h : c ≠ b) :
    present (Function.update place a none) (members.erase a) c = present place members c := by
  ext x
  by_cases same : x = a
  · subst same
    simp [mem_present, here, h.symm]
  · simp [mem_present, same]

theorem present_update_of_ne (place' : Option β) (was : place a ≠ some c) (is : place' ≠ some c) :
    present (Function.update place a place') members c = present place members c := by
  ext x
  by_cases same : x = a
  · subst same
    simp [mem_present, was, is]
  · simp [mem_present, same]

theorem present_update_self (here : a ∈ members) (b : β) :
    present (Function.update place a (some b)) members b = insert a (present place members b) := by
  conv_lhs => rw [← Finset.insert_eq_of_mem here]
  exact present_insert_self b

theorem present_update_away (place' : Option β) (h : place' ≠ some b) :
    present (Function.update place a place') members b = (present place members b).erase a := by
  ext x
  by_cases same : x = a
  · subst same
    simp [mem_present, h]
  · simp [mem_present, same]

/-! ### The scores -/

variable (key : β → κ)

/-- The score of every place is the number of members there. -/
def Counts (score : κ → Int) (place : α → Option β) (members : Finset α) : Prop :=
  ∀ b, score (key b) = (present place members b).card

/-- What `zincrby` does to the scores. -/
def incr (score : κ → Int) (k : κ) (by_ : Int) : κ → Int :=
  Function.update score k (score k + by_)

variable {key} {score : κ → Int}

theorem incr_self (score : κ → Int) (k : κ) (d : Int) : incr score k d k = score k + d :=
  Function.update_self ..

theorem incr_of_ne (score : κ → Int) {k k' : κ} (h : k' ≠ k) (d : Int) :
    incr score k d k' = score k' :=
  Function.update_of_ne h ..

theorem Counts.enter (inj : Function.Injective key) (h : Counts key score place members)
    (absent : a ∉ members) (b : β) :
    Counts key (incr score (key b) 1) (Function.update place a (some b)) (insert a members) := by
  intro c
  by_cases same : c = b
  · subst same
    have fresh : a ∉ present place members c := fun here => absent (mem_present.1 here).1
    rw [incr_self, present_insert_self, Finset.card_insert_of_notMem fresh, h c]
    push_cast
    ring
  · rw [incr_of_ne score (fun eq => same (inj eq)), present_insert_of_ne absent same]
    exact h c

theorem Counts.leave (inj : Function.Injective key) (h : Counts key score place members)
    (member : a ∈ members) (here : place a = some b) :
    Counts key (incr score (key b) (-1)) (Function.update place a none) (members.erase a) := by
  intro c
  by_cases same : c = b
  · subst same
    have there : a ∈ present place members c := mem_present.2 ⟨member, here⟩
    have some_there : 0 < (present place members c).card := Finset.card_pos.2 ⟨a, there⟩
    rw [incr_self, present_erase_self none, Finset.card_erase_of_mem there, h c]
    omega
  · rw [incr_of_ne score (fun eq => same (inj eq)), present_erase_of_ne here same]
    exact h c

/-- The new place counts the member before the old one lets it go, or afterwards. -/
theorem Counts.move (inj : Function.Injective key) (h : Counts key score place members)
    (member : a ∈ members) (here : place a = some b) (other : b ≠ c) :
    Counts key (incr (incr score (key c) 1) (key b) (-1))
      (Function.update place a (some c)) members := by
  have apart : key b ≠ key c := fun eq => other (inj eq)
  intro d
  by_cases left : d = b
  · subst left
    have there : a ∈ present place members d := mem_present.2 ⟨member, here⟩
    have some_there : 0 < (present place members d).card := Finset.card_pos.2 ⟨a, there⟩
    rw [incr_self, incr_of_ne score apart, present_update_away _ (by simpa using other.symm),
      Finset.card_erase_of_mem there, h d]
    omega
  · rw [incr_of_ne _ (fun eq => left (inj eq))]
    by_cases came : d = c
    · subst came
      have fresh : a ∉ present place members d := by
        intro there
        have at_d := (mem_present.1 there).2
        exact other (Option.some.inj (here.symm.trans at_d))
      rw [incr_self, present_update_self member, Finset.card_insert_of_notMem fresh, h d]
      push_cast
      ring
    · rw [incr_of_ne score (fun eq => came (inj eq)), present_update_of_ne (some c)
        (by rw [here]; simpa using Ne.symm left) (by simpa using Ne.symm came)]
      exact h d

theorem incr_comm (score : κ → Int) {k k' : κ} (h : k ≠ k') (d d' : Int) :
    incr (incr score k d) k' d' = incr (incr score k' d') k d := by
  rw [incr, incr, incr, incr, Function.update_of_ne h.symm, Function.update_of_ne h,
    Function.update_comm h]

end Census
