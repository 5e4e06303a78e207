import Mathlib.Data.List.Sort
import Mathlib.Order.Basic

/-!
First come, first served, for requests that each want several resources. Requests are numbered as
they arrive; one is let in when everybody before it has given back what both want.
-/
namespace Tickets

universe u
variable {Res : Type u} {wants gone wants' gone' : Nat → Res → Prop} {t t' : Nat} {x : Res}

/-- Everybody before has given the resource back. -/
def Front (wants gone : Nat → Res → Prop) (t : Nat) (x : Res) : Prop :=
  ∀ t' < t, wants t' x → gone t' x

/-- The request is at the front for everything it wants. -/
def Admitted (wants gone : Nat → Res → Prop) (t : Nat) : Prop :=
  ∀ x, wants t x → Front wants gone t x

/-- A resource has one owner. -/
theorem Front.alone (h : Front wants gone t x) (h' : Front wants gone t' x)
    (want : wants t x) (want' : wants t' x) (here : ¬ gone t x) (here' : ¬ gone t' x) :
    t = t' := by
  rcases Nat.lt_trichotomy t t' with before | same | after
  · exact absurd (h' t before want) here
  · exact same
  · exact absurd (h t' after want') here'

/-- The waiting line of a resource: who wants it and has not given it back, in order. -/
structure Line (wants gone : Nat → Res → Prop) (x : Res) (line : List Nat) : Prop where
  sorted : line.Pairwise (· < ·)
  mem : ∀ t, t ∈ line ↔ wants t x ∧ ¬ gone t x

theorem Line.congr {line : List Nat} (h : Line wants gone x line)
    (want : ∀ t, wants' t x ↔ wants t x) (left : ∀ t, gone' t x ↔ gone t x) :
    Line wants' gone' x line where
  sorted := h.sorted
  mem t := by rw [h.mem, want, left]

/-- A new request goes to the end. -/
theorem Line.join {line : List Nat} (h : Line wants gone x line) (last : ∀ t ∈ line, t < t')
    (want : ∀ t, wants' t x ↔ wants t x ∨ t = t') (new : ¬ gone t' x) :
    Line wants' gone x (line ++ [t']) where
  sorted := List.pairwise_append.2 ⟨h.sorted, List.pairwise_singleton _ _, fun t member _ last' =>
    List.mem_singleton.1 last' ▸ last t member⟩
  mem t := by
    rw [List.mem_append, h.mem, want, List.mem_singleton]
    constructor
    · rintro (⟨old, here⟩ | rfl)
      · exact ⟨.inl old, here⟩
      · exact ⟨.inr rfl, new⟩
    · rintro ⟨old | same, here⟩
      · exact .inl ⟨old, here⟩
      · exact .inr same

/-- The first in the line gives the resource back. -/
theorem Line.leave {rest : List Nat} (h : Line wants gone x (t :: rest))
    (left : ∀ t', gone' t' x ↔ gone t' x ∨ t' = t) : Line wants gone' x rest where
  sorted := h.sorted.of_cons
  mem t' := by
    have mem := h.mem t'
    rw [List.mem_cons] at mem
    have apart : t' ∈ rest → t' ≠ t := fun member same =>
      absurd (List.rel_of_pairwise_cons h.sorted member) (by omega)
    constructor
    · intro member
      obtain ⟨want, here⟩ := mem.1 (.inr member)
      refine ⟨want, fun out => ?_⟩
      cases (left t').1 out with
      | inl was => exact here was
      | inr same => exact apart member same
    · rintro ⟨want, here⟩
      have here' := fun out => here ((left t').2 out)
      exact (mem.2 ⟨want, fun out => here' (.inl out)⟩).resolve_left fun same =>
        here' (.inr same)

theorem Line.first {rest : List Nat} (h : Line wants gone x (t :: rest)) :
    Front wants gone t x := by
  intro t' before want
  by_contra here
  have member := (h.mem t').2 ⟨want, here⟩
  cases List.mem_cons.1 member with
  | inl same => omega
  | inr later =>
      have after := List.rel_of_pairwise_cons h.sorted later
      omega

theorem Line.behind {first : Nat} {rest : List Nat} (h : Line wants gone x (first :: rest))
    (member : t ∈ rest) : first < t ∧ wants first x ∧ ¬ gone first x :=
  ⟨List.rel_of_pairwise_cons h.sorted member, (h.mem first).1 List.mem_cons_self⟩

/-- Who wants the same is let in in the order of the requests. -/
def InTurn (wants : Nat → Res → Prop) (granted : List Nat) : Prop :=
  ∀ x t t', wants t x → wants t' x → t < t' → t' ∈ granted → [t, t'].Sublist granted

theorem InTurn.snoc {granted : List Nat} (h : InTurn wants granted)
    (before : ∀ x, wants t x → ∀ t' < t, wants t' x → t' ∈ granted) :
    InTurn wants (granted ++ [t]) := by
  intro x t₁ t₂ want want' less member
  cases List.mem_append.1 member with
  | inl old => exact (h x t₁ t₂ want want' less old).trans (List.sublist_append_left _ _)
  | inr new =>
      have same := List.mem_singleton.1 new
      rw [same] at less want' ⊢
      exact (List.singleton_sublist.2 (before x want' t₁ less want)).append (List.Sublist.refl [t])

/-- Requests that come later do not matter as long as they are not let in. -/
theorem InTurn.mono {granted : List Nat} (h : InTurn wants granted)
    (old : ∀ t' ∈ granted, ∀ t ≤ t', ∀ x, wants' t x → wants t x) : InTurn wants' granted :=
  fun x t t' want want' less member =>
    h x t t' (old t' member t less.le x want) (old t' member t' (le_refl t') x want') less member

/-- Where whoever is not let in waits for somebody before it, and whoever is let in is done some
time, everybody is let in some time. -/
theorem served (asked admitted done : Nat → Nat → Prop)
    (asked_mono : ∀ n m t, n ≤ m → asked n t → asked m t)
    (asked_before : ∀ n t t', t' < t → asked n t → asked n t')
    (done_mono : ∀ n m t, n ≤ m → done n t → done m t)
    (waits : ∀ n t, asked n t → ¬ admitted n t → ∃ t' < t, ¬ done n t')
    (leaves : ∀ n t, admitted n t → ∃ m ≥ n, done m t) :
    ∀ t n, asked n t → ∃ m ≥ n, admitted m t := by
  intro t
  induction t using Nat.strongRecOn with
  | ind t earlier =>
      intro n ask
      -- a time by which the first `k` requests are done
      have all : ∀ k ≤ t, ∃ m ≥ n, ∀ t' < k, done m t' := by
        intro k
        induction k with
        | zero => exact fun _ => ⟨n, le_refl n, nofun⟩
        | succ k ih =>
            intro small
            obtain ⟨m, after, before⟩ := ih (by omega)
            have asked' := asked_mono n m k after (asked_before n t k (by omega) ask)
            obtain ⟨m', later, inside⟩ := earlier k (by omega) m asked'
            obtain ⟨m'', later', finish⟩ := leaves m' k inside
            refine ⟨m'', by omega, fun t' less => ?_⟩
            cases Nat.lt_succ_iff_lt_or_eq.1 less with
            | inl less => exact done_mono m m'' t' (by omega) (before t' less)
            | inr same => exact same ▸ finish
      obtain ⟨m, after, before⟩ := all t (le_refl t)
      refine ⟨m, after, ?_⟩
      by_contra out
      obtain ⟨t', less, here⟩ := waits m t (asked_mono n m t after ask) out
      exact here (before t' less)

end Tickets
