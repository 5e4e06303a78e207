import Mathlib.Data.List.Basic
import Mathlib.Data.Finset.Basic

/-!
A Redis hash as its finite list of fields, with HGET, HSET, HDEL and HINCRBY. A
field occurs once in a hash built by these commands; HGET reads the first
occurrence, so no lemma below depends on that.
-/
namespace RedisHash

universe u
variable {α : Type u}

/-- The fields of one hash key, in no significant order. -/
structure Hash (α : Type u) where
  fields : List (Nat × α)

namespace Hash

def empty : Hash α := ⟨[]⟩

/-- HGET. -/
def hget (h : Hash α) (k : Nat) : Option α := h.fields.lookup k

/-- HDEL. -/
def hdel (h : Hash α) (k : Nat) : Hash α :=
  ⟨h.fields.filter fun f => f.1 != k⟩

/-- HDEL of every field named by a set. -/
def hdels (h : Hash α) (ks : Finset Nat) : Hash α :=
  ⟨h.fields.filter fun f => f.1 ∉ ks⟩

/-- HSET. -/
def hset (h : Hash α) (k : Nat) (v : α) : Hash α :=
  ⟨(k, v) :: (h.hdel k).fields⟩

/-- HINCRBY: a missing field counts as zero. -/
def hincrby (h : Hash Int) (k : Nat) (d : Int) : Hash Int :=
  h.hset k ((h.hget k).getD 0 + d)

/-- The number a reader takes from a hash of counters. -/
def number (h : Hash Int) (k : Nat) : Int := (h.hget k).getD 0

@[simp] theorem hget_empty (k : Nat) : (empty : Hash α).hget k = none := rfl

private theorem lookup_filter (fields : List (Nat × α)) (keep : Nat → Bool) (j : Nat) :
    (fields.filter fun f => keep f.1).lookup j =
      if keep j then fields.lookup j else none := by
  induction fields with
  | nil => simp
  | cons f rest ih =>
      obtain ⟨i, v⟩ := f
      by_cases hj : j = i
      · subst hj
        cases hk : keep j <;> simp [hk, ih]
      · have hb : (j == i) = false := by simpa using hj
        cases hk : keep i <;> simp [hk, List.lookup_cons, hb, ih]

theorem hget_hdel (h : Hash α) (k j : Nat) :
    (h.hdel k).hget j = if j = k then none else h.hget j := by
  have := lookup_filter h.fields (fun i => i != k) j
  by_cases hj : j = k <;> simpa [hget, hdel, hj] using this

theorem hget_hdels (h : Hash α) (ks : Finset Nat) (j : Nat) :
    (h.hdels ks).hget j = if j ∈ ks then none else h.hget j := by
  have := lookup_filter h.fields (fun i => decide (i ∉ ks)) j
  by_cases hj : j ∈ ks <;> simpa [hget, hdels, hj] using this

theorem hget_hset (h : Hash α) (k j : Nat) (v : α) :
    (h.hset k v).hget j = if j = k then some v else h.hget j := by
  by_cases hj : j = k
  · simp [hget, hset, hj]
  · have hb : (j == k) = false := by simpa using hj
    have rest := hget_hdel h k j
    rw [if_neg hj] at rest ⊢
    simpa [hget, hset, List.lookup_cons, hb] using rest

@[simp] theorem number_empty (k : Nat) : (empty : Hash Int).number k = 0 := rfl

theorem number_hincrby (h : Hash Int) (k j : Nat) (d : Int) :
    (h.hincrby k d).number j = h.number j + if j = k then d else 0 := by
  by_cases hj : j = k
  · simp [number, hincrby, hget_hset, hj]
  · simp [number, hincrby, hget_hset, hj]

theorem number_hdel (h : Hash Int) (k j : Nat) :
    (h.hdel k).number j = if j = k then 0 else h.number j := by
  by_cases hj : j = k <;> simp [number, hget_hdel, hj]

/-- Adding `d` at every field of a list without repetitions. -/
theorem number_foldl_hincrby (h : Hash Int) (ks : List Nat) (d : Int) (j : Nat)
    (distinct : ks.Nodup) :
    (ks.foldl (fun h k => h.hincrby k d) h).number j =
      h.number j + if j ∈ ks then d else 0 := by
  induction ks generalizing h with
  | nil => simp
  | cons k ks ih =>
      obtain ⟨fresh, distinct⟩ := List.nodup_cons.1 distinct
      rw [List.foldl_cons, ih (h.hincrby k d) distinct, number_hincrby]
      by_cases hj : j = k
      · simp [hj, fresh]
      · simp [hj]

theorem mem_keys_of_hget {h : Hash α} {k : Nat} {v : α} (found : h.hget k = some v) :
    k ∈ h.fields.map Prod.fst := by
  obtain ⟨before, after, split, _⟩ := List.lookup_eq_some_iff.1 found
  exact List.mem_map.2 ⟨(k, v), by simp [split], rfl⟩

end Hash
end RedisHash
