import Mathlib.Data.Set.Basic

/-!
One keyed store and several holders that keep copies of it, each key at home with one of them.
A holder serves at a time: it may change the store and its own copies, and no others. What the
others hold is then right exactly for the written keys that are at home with the serving holder,
that have no copy at home, or that keep their value.
-/
namespace Shards

universe u v w
variable {Holder : Type u} {Key : Type v} {Value : Type w}
variable {home : Key → Holder} {copy : Key → Option Value} {data data' : Key → Value}
variable {copies copies' : Holder → Key → Option Value} {i : Holder} {writes : Set Key}

/-- Every copy is what the store holds. -/
def Agrees (copy : Key → Option Value) (data : Key → Value) : Prop :=
  ∀ k v, copy k = some v → data k = v

def Coherent (copies : Holder → Key → Option Value) (data : Key → Value) : Prop :=
  ∀ i, Agrees (copies i) data

/-- Copies are kept at home only. -/
def Housed (home : Key → Holder) (copies : Holder → Key → Option Value) : Prop :=
  ∀ i k, copies i k ≠ none → home k = i

theorem Agrees.frame (agrees : Agrees copy data) (same : ∀ k, copy k = none ∨ data' k = data k) :
    Agrees copy data' := by
  intro k v held
  cases same k with
  | inl none =>
      rw [none] at held
      cases held
  | inr kept => exact kept.trans (agrees k v held)

/-- A copy of something else is stale. -/
theorem Agrees.kept (agrees : Agrees copy data) (after : Agrees copy data') (k : Key) :
    copy k = none ∨ data' k = data k := by
  cases held : copy k with
  | none => exact .inl rfl
  | some v => exact .inr ((after k v held).trans (agrees k v held).symm)

theorem Housed.mono (housed : Housed home copies)
    (fewer : ∀ i k, copies' i k ≠ none → copies i k ≠ none) : Housed home copies' :=
  fun i k held => housed i k (fewer i k held)

/-- A holder serves a request that writes at most the keys of `writes`. -/
structure Serves (home : Key → Holder) (i : Holder) (writes : Set Key)
    (copies copies' : Holder → Key → Option Value) (data data' : Key → Value) : Prop where
  others : ∀ j, j ≠ i → copies' j = copies j
  frame : ∀ k, k ∉ writes → data' k = data k
  agrees : Agrees (copies' i) data'
  fresh : ∀ k, copies' i k ≠ none → copies i k ≠ none ∨ home k = i

theorem Serves.housed (serves : Serves home i writes copies copies' data data')
    (housed : Housed home copies) : Housed home copies' := by
  intro j k held
  by_cases self : j = i
  · subst self
    exact (serves.fresh k held).elim (housed j k) id
  · rw [serves.others j self] at held
    exact housed j k held

/-- What another holder has to do with a written key. -/
theorem Serves.coherent_iff (serves : Serves home i writes copies copies' data data')
    (housed : Housed home copies) (coherent : Coherent copies data) :
    Coherent copies' data' ↔
      ∀ k ∈ writes, home k ≠ i → copies (home k) k = none ∨ data' k = data k := by
  constructor
  · intro after k _ away
    have still := after (home k)
    rw [serves.others (home k) away] at still
    exact (coherent (home k)).kept still k
  · intro safe j
    by_cases self : j = i
    · exact self ▸ serves.agrees
    · rw [serves.others j self]
      apply (coherent j).frame
      intro k
      by_cases written : k ∈ writes
      · by_cases here : home k = j
        · exact here ▸ safe k written (here ▸ self)
        · exact .inl (not_not.1 fun held => here (housed j k held))
      · exact .inr (serves.frame k written)

/-- A holder that writes only what is at home with it leaves no stale copy. -/
theorem Serves.coherent_of_home (serves : Serves home i writes copies copies' data data')
    (housed : Housed home copies) (coherent : Coherent copies data)
    (own : ∀ k ∈ writes, home k = i) : Coherent copies' data' :=
  (serves.coherent_iff housed coherent).2 fun k written away => absurd (own k written) away

end Shards
