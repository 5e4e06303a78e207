import Mathlib.Data.List.Basic

/-!
Streams that are cut into messages from the front. A cut never depends on what comes after the
message, so the stream may arrive in any pieces. Reading ends at the first message that is not
accepted.
-/
universe u v

structure Cutter (Byte : Type u) (Msg : Type v) where
  cut : List Byte → Option (Msg × List Byte)
  shorter : ∀ {s m r}, cut s = some (m, r) → r.length < s.length
  stable : ∀ {s m r} t, cut s = some (m, r) → cut (s ++ t) = some (m, r ++ t)

namespace Cutter

variable {Byte : Type u} {Msg : Type v} (c : Cutter Byte Msg) (accepts : Msg → Bool)

/-- The messages of a stream, and what is left of it while it is open. -/
def split (s : List Byte) : List Msg × Option (List Byte) :=
  match h : c.cut s with
  | none => ([], some s)
  | some (m, r) =>
      have := c.shorter h
      if accepts m then (m :: (split r).1, (split r).2) else ([m], none)
termination_by s.length

/-- What is left of a stream after some of its messages. -/
inductive Leaves : List Byte → List Byte → Prop
  | refl (s : List Byte) : Leaves s s
  | next {s r r' : List Byte} {m : Msg} : c.cut s = some (m, r) → accepts m = true →
      Leaves r r' → Leaves s r'

variable {c accepts} {s t r : List Byte} {m : Msg}

theorem split_none (h : c.cut s = none) : c.split accepts s = ([], some s) := by
  rw [split]
  split
  · rfl
  · rename_i m r at_
    rw [h] at at_
    cases at_

theorem split_some (h : c.cut s = some (m, r)) : c.split accepts s =
    if accepts m then (m :: (c.split accepts r).1, (c.split accepts r).2) else ([m], none) := by
  conv_lhs => rw [split]
  split
  · rename_i at_
    rw [h] at at_
    cases at_
  · rename_i m' r' at_
    rw [h] at at_
    cases at_
    rfl

/-- More of a stream that is open. -/
def more (done : List Msg × Option (List Byte)) (next : List Byte → List Msg × Option (List Byte)) :
    List Msg × Option (List Byte) :=
  match done.2 with
  | none => done
  | some r => (done.1 ++ (next r).1, (next r).2)

/-- A stream may be split piece by piece. -/
theorem split_append (s t : List Byte) : c.split accepts (s ++ t) =
    more (c.split accepts s) fun r => c.split accepts (r ++ t) := by
  induction s using split.induct c accepts with
  | case1 s none => simp [split_none none, more]
  | case2 s m r at_ _ accepted ih =>
      rw [split_some at_, split_some (c.stable t at_), if_pos accepted, if_pos accepted, ih]
      cases left : (c.split accepts r).2 with
      | none => simp [more, left]
      | some r' => simp [more, left]
  | case3 s m r at_ _ refused =>
      rw [split_some at_, split_some (c.stable t at_), if_neg refused, if_neg refused, more]

theorem Leaves.trans {r' : List Byte} (h : c.Leaves accepts s r) (h' : c.Leaves accepts r r') :
    c.Leaves accepts s r' := by
  induction h with
  | refl => exact h'
  | next at_ accepted _ ih => exact .next at_ accepted (ih h')

theorem Leaves.append (h : c.Leaves accepts s r) (t : List Byte) :
    c.Leaves accepts (s ++ t) (r ++ t) := by
  induction h with
  | refl => exact .refl _
  | next at_ accepted _ ih => exact .next (c.stable t at_) accepted ih

/-- What is left at the end is among what is left on the way. -/
theorem leaves_split (left : (c.split accepts s).2 = some r) : c.Leaves accepts s r := by
  induction s using split.induct c accepts with
  | case1 s none =>
      rw [split_none none] at left
      cases left
      exact .refl _
  | case2 s m r' at_ _ accepted ih =>
      rw [split_some at_, if_pos accepted] at left
      exact .next at_ accepted (ih left)
  | case3 s m r' at_ _ refused =>
      rw [split_some at_, if_neg refused] at left
      cases left

end Cutter
