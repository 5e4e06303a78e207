import Mathlib.Data.List.Basic

/-!
Depth-first searches over one shared store. A search takes a move, goes on in the store
the move leaves, and takes the move back when it returns. A search for one answer stops
in the middle of its branch as soon as there is one, and then nothing is taken back; a
search for all answers comes back to the store it started from.
-/
namespace UndoSearch

universe u v w
variable {σ : Type u} {ρ : Type v} {τ : Type w}

structure Move (σ : Type u) where
  allowed : σ → Bool
  take : σ → σ
  undo : σ → σ

/-- Taking the move back undoes it. -/
def Move.Reversible (m : Move σ) (s : σ) : Prop := m.undo (m.take s) = s

/-- Tries the moves one after the other until one leads to an answer. -/
def firstOf (search : σ → Option (Bool × σ)) : List (Move σ) → σ → Option (Bool × σ)
  | [], s => some (false, s)
  | m :: rest, s =>
      if m.allowed s then
        match search (m.take s) with
        | none => none
        | some (true, left) => some (true, left)
        | some (false, left) => firstOf search rest (m.undo left)
      else firstOf search rest s

/-- Tries all the moves and gathers what they lead to. -/
def allOf (search : σ → Option (List ρ × σ)) : List (Move σ) → σ → Option (List ρ × σ)
  | [], s => some ([], s)
  | m :: rest, s =>
      if m.allowed s then
        match search (m.take s) with
        | none => none
        | some (found, left) =>
            match allOf search rest (m.undo left) with
            | none => none
            | some (more, last) => some (found ++ more, last)
      else allOf search rest s

/-- A search from `s` returns: it succeeds when `P` holds, in a store with `Q`, and
leaves the store alone when it fails. -/
inductive Answers (s : σ) (P : Prop) (Q : σ → Prop) : Option (Bool × σ) → Prop
  | found {left : σ} : P → Q left → Answers s P Q (some (true, left))
  | failed : ¬P → Answers s P Q (some (false, s))

/-- A search from `s` returns with the store as it was, and what it found is, seen
through `f`, what satisfies `P`. -/
def Gathers (f : ρ → τ) (s : σ) (P : τ → Prop) (result : Option (List ρ × σ)) : Prop :=
  ∃ found, result = some (found, s) ∧ ∀ x, x ∈ found.map f ↔ P x

section Answers
variable {s : σ} {P P' : Prop} {Q : σ → Prop} {result : Option (Bool × σ)}

theorem Answers.congr (h : Answers s P Q result) (same : P ↔ P') : Answers s P' Q result := by
  cases h with
  | found holds good => exact .found (same.1 holds) good
  | failed fails => exact .failed fun holds => fails (same.2 holds)

theorem Answers.returns (h : Answers s P Q result) :
    ∃ answer left, result = some (answer, left) ∧ (answer = true ↔ P) := by
  cases h with
  | found holds _ => exact ⟨true, _, rfl, by simp [holds]⟩
  | failed fails => exact ⟨false, s, rfl, by simp [fails]⟩

/-- When every move allowed in `s` can be taken back and is searched to the end, the
moves together find an answer as soon as one of them leads to one from `s`. -/
theorem firstOf_answers {search : σ → Option (Bool × σ)} {moves : List (Move σ)}
    {P : Move σ → Prop}
    (each : ∀ m ∈ moves, m.allowed s = true →
      m.Reversible s ∧ Answers (m.take s) (P m) Q (search (m.take s))) :
    Answers s (∃ m ∈ moves, m.allowed s = true ∧ P m) Q (firstOf search moves s) := by
  induction moves with
  | nil => exact .failed (by simp)
  | cons m rest ih =>
      have later := ih fun m' mem => each m' (List.mem_cons_of_mem m mem)
      rw [firstOf]
      cases allowed : m.allowed s with
      | false =>
          refine later.congr ?_
          simp [allowed]
      | true =>
          obtain ⟨back, here⟩ := each m (by simp) allowed
          rw [if_pos rfl]
          generalize hr : search (m.take s) = r at here
          cases here with
          | found holds good => exact .found ⟨m, by simp, allowed, holds⟩ good
          | failed fails =>
              change Answers s _ Q (firstOf search rest (m.undo (m.take s)))
              rw [show m.undo (m.take s) = s from back]
              refine later.congr ?_
              simp [fails]

end Answers

section Gathers
variable {f : ρ → τ} {s : σ} {P P' : τ → Prop} {result : Option (List ρ × σ)}

theorem Gathers.congr (h : Gathers f s P result) (same : ∀ x, P x ↔ P' x) :
    Gathers f s P' result := by
  obtain ⟨found, returned, exact_⟩ := h
  exact ⟨found, returned, fun x => (exact_ x).trans (same x)⟩

/-- When every move allowed in `s` can be taken back and is searched to the end, the
moves together gather what each of them leads to from `s`. -/
theorem allOf_gathers {search : σ → Option (List ρ × σ)} {moves : List (Move σ)}
    {P : Move σ → τ → Prop}
    (each : ∀ m ∈ moves, m.allowed s = true →
      m.Reversible s ∧ Gathers f (m.take s) (P m) (search (m.take s))) :
    Gathers f s (fun x => ∃ m ∈ moves, m.allowed s = true ∧ P m x) (allOf search moves s) := by
  induction moves with
  | nil => exact ⟨[], rfl, by simp⟩
  | cons m rest ih =>
      have later := ih fun m' mem => each m' (List.mem_cons_of_mem m mem)
      rw [allOf]
      cases allowed : m.allowed s with
      | false =>
          refine later.congr fun x => ?_
          simp [allowed]
      | true =>
          obtain ⟨back, found, here, isHere⟩ := each m (by simp) allowed
          obtain ⟨more, there, isThere⟩ := later
          rw [if_pos rfl, here]
          simp only
          rw [show m.undo (m.take s) = s from back, there]
          refine ⟨found ++ more, rfl, fun x => ?_⟩
          rw [List.map_append, List.mem_append, isHere, isThere]
          simp [allowed]

end Gathers
end UndoSearch
