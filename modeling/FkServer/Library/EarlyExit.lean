import Mathlib.Logic.Basic

/-!
Handlers that may stop early and leave the state as it is by then: computations in
`Except State State`. A postcondition speaks about both ends, and a handler made of
parts is checked part by part.
-/
namespace EarlyExit

universe u
variable {State : Type u} {P P' Q Q' R : State → Prop}
variable {x : Except State State} {f : State → Except State State} {s : State}

/-- The state a handler leaves, whichever way it ends. -/
def result : Except State State → State
  | .ok s | .error s => s

/-- What holds where the handler stops early, and what holds where it runs to its end. -/
def Ends (stopped finished : State → Prop) : Except State State → Prop
  | .ok s => finished s
  | .error s => stopped s

@[simp] theorem ends_ok : Ends P Q (.ok s) ↔ Q s := Iff.rfl

@[simp] theorem ends_error : Ends P Q (.error s) ↔ P s := Iff.rfl

theorem Ends.mono (h : Ends P Q x) (stop : ∀ s, P s → P' s) (finish : ∀ s, Q s → Q' s) :
    Ends P' Q' x := by
  cases x with
  | ok s => exact finish s h
  | error s => exact stop s h

theorem Ends.bind (h : Ends P R x) (next : ∀ s, R s → Ends P Q (f s)) : Ends P Q (x >>= f) := by
  cases x with
  | ok s => exact next s h
  | error s => exact h

theorem Ends.result (h : Ends P P x) : P (result x) := by
  cases x with
  | ok s => exact h
  | error s => exact h

end EarlyExit
