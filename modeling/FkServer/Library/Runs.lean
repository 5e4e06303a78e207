import Mathlib.Logic.Relation

/-!
Runs of a labelled transition system. The guard `ok` restricts the labels a run
may use in a state; `fun _ _ => True` gives the unrestricted runs. The rules
below package the induction over a run once, with and without the guard.
-/
namespace Runs

universe u v
variable {State : Type u} {Label : Type v}
variable {init : State → Prop} {step : State → Label → State → Prop}
variable {ok ok' : State → Label → Prop}

/-- States reached from an initial one by steps that all meet the guard. -/
inductive Reaches (init : State → Prop) (step : State → Label → State → Prop)
    (ok : State → Label → Prop) : State → Prop
  | start {s : State} : init s → Reaches init step ok s
  | next {s s' : State} (a : Label) :
      Reaches init step ok s → ok s a → step s a s' → Reaches init step ok s'

/-- Every state of every run, whatever labels it uses. -/
abbrev Reachable (init : State → Prop) (step : State → Label → State → Prop) :
    State → Prop :=
  Reaches init step fun _ _ => True

theorem Reaches.invariant {Inv : State → Prop} {s : State}
    (reached : Reaches init step ok s) (base : ∀ s, init s → Inv s)
    (keep : ∀ s a s', Inv s → ok s a → step s a s' → Inv s') : Inv s := by
  induction reached with
  | start h => exact base _ h
  | next a _ guard move ih => exact keep _ a _ ih guard move

theorem Reaches.mono {s : State} (reached : Reaches init step ok s)
    (weaker : ∀ s a, ok s a → ok' s a) : Reaches init step ok' s := by
  induction reached with
  | start h => exact .start h
  | next a _ guard move ih => exact .next a ih (weaker _ _ guard) move

theorem Reaches.reachable {s : State} (reached : Reaches init step ok s) :
    Reachable init step s :=
  reached.mono fun _ _ _ => trivial

/-- A list of labels taken one after another by a step function. -/
theorem reachable_of_foldlM {f : State → Label → Option State} {s s' : State}
    {labels : List Label} (reached : Reachable init (fun s a s' => f s a = some s') s)
    (h : labels.foldlM f s = some s') :
    Reachable init (fun s a s' => f s a = some s') s' := by
  induction labels generalizing s with
  | nil =>
      cases h
      exact reached
  | cons a labels ih =>
      rw [List.foldlM_cons] at h
      obtain ⟨s₁, first, rest⟩ := Option.bind_eq_some_iff.1 h
      exact ih (.next a reached trivial first) rest

/-- The same for guarded runs, with a test before each label that is enough for the guard. -/
theorem reaches_of_tested {f : State → Label → Option State} {test : State → Label → Bool}
    (enough : ∀ s a, test s a = true → ok s a) {s s' : State} {labels : List Label}
    (reached : Reaches init (fun s a s' => f s a = some s') ok s)
    (h : labels.foldlM (fun s a => if test s a then f s a else none) s = some s') :
    Reaches init (fun s a s' => f s a = some s') ok s' := by
  induction labels generalizing s with
  | nil =>
      cases h
      exact reached
  | cons a labels ih =>
      rw [List.foldlM_cons] at h
      obtain ⟨s₁, first, rest⟩ := Option.bind_eq_some_iff.1 h
      split at first
      · rename_i tested
        exact ih (.next a reached (enough s a tested) first) rest
      · cases first

/-- An endless run, which may also stand still. -/
def Endless (init : State → Prop) (step : State → Label → State → Prop)
    (ok : State → Label → Prop) (run : Nat → State) : Prop :=
  init (run 0) ∧ ∀ n, run (n + 1) = run n ∨ ∃ a, ok (run n) a ∧ step (run n) a (run (n + 1))

theorem Endless.reaches {run : Nat → State} (h : Endless init step ok run) (n : Nat) :
    Reaches init step ok (run n) := by
  induction n with
  | zero => exact .start h.1
  | succ n ih =>
      cases h.2 n with
      | inl still => exact still ▸ ih
      | inr moved =>
          obtain ⟨a, guard, move⟩ := moved
          exact .next a ih guard move

/-- What one step keeps, any later state keeps. -/
theorem Endless.later {run : Nat → State} (h : Endless init step ok run)
    {Rel : State → State → Prop} (refl : ∀ s, Rel s s)
    (trans : ∀ s₁ s₂ s₃, Rel s₁ s₂ → Rel s₂ s₃ → Rel s₁ s₃)
    (keep : ∀ s a s', ok s a → step s a s' → Rel s s') {n m : Nat} (after : n ≤ m) :
    Rel (run n) (run m) := by
  induction after with
  | refl => exact refl _
  | @step m _ ih =>
      refine trans _ _ _ ih ?_
      cases h.2 m with
      | inl still => exact still ▸ refl _
      | inr moved =>
          obtain ⟨a, guard, move⟩ := moved
          exact keep _ a _ guard move

/-- A property of the state and of what is still to be done, kept by a loop that may stop. -/
theorem foldlM_invariant {f : State → Label → Option State} (Inv : List Label → State → Prop)
    (keep : ∀ a rest s s', Inv (a :: rest) s → f s a = some s' → Inv rest s')
    {labels : List Label} {s s' : State} (start : Inv labels s)
    (h : labels.foldlM f s = some s') : Inv [] s' := by
  induction labels generalizing s with
  | nil =>
      cases h
      exact start
  | cons a labels ih =>
      rw [List.foldlM_cons] at h
      obtain ⟨s₁, first, rest⟩ := Option.bind_eq_some_iff.1 h
      exact ih (keep a labels s s₁ start first) rest

/-- The same for a loop that goes on as long as the property holds, and so ends. -/
theorem foldlM_total {f : State → Label → Option State} (Inv : List Label → State → Prop)
    (move : ∀ a rest s, Inv (a :: rest) s → ∃ s', f s a = some s' ∧ Inv rest s')
    {labels : List Label} {s : State} (start : Inv labels s) :
    ∃ s', labels.foldlM f s = some s' ∧ Inv [] s' := by
  induction labels generalizing s with
  | nil => exact ⟨s, rfl, start⟩
  | cons a labels ih =>
      obtain ⟨s₁, first, inv⟩ := move a labels s start
      obtain ⟨s', rest, last⟩ := ih inv
      exact ⟨s', by rw [List.foldlM_cons, first]; exact rest, last⟩

end Runs
