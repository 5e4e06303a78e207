import FkServer.Library.BlockCover
import Mathlib.Algebra.BigOperators.Group.Finset.Basic
import Mathlib.Algebra.BigOperators.Group.Finset.Piecewise
import Mathlib.Algebra.Order.BigOperators.Group.Finset
import Mathlib.Data.Fintype.Basic
import Mathlib.Order.Lattice.Nat
import Mathlib.Tactic.Abel

/-!
Hands with wildcards: a hand wins when its wildcards can be replaced by ordinary
elements so that it falls apart into blocks of three and one pair. Blocks and pairs
stay within a suit, so a winning hand is a distribution of the wildcards over the
suits, and what a suit can do with any number of wildcards is known from the least
number it needs.
-/
namespace WildcardCover
open BlockCover

universe u v

structure Deck (α : Type u) (ι : Type v) where
  suit : α → ι
  ordinary : α → Prop
  block : Multiset α → Prop
  block_card : ∀ {b}, block b → b.card = 3
  block_suit : ∀ {b}, block b → ∃ i, ∀ x ∈ b, suit x = i
  triplet : ∀ a, block (Multiset.replicate 3 a)
  inhabited : ∀ i, ∃ a, ordinary a ∧ suit a = i

variable {α : Type u} {ι : Type v}

def Pair (b : Multiset α) : Prop := ∃ a, b = Multiset.replicate 2 a

namespace Deck
variable (D : Deck α ι)

/-- A sum of blocks. -/
abbrev Melds (s : Multiset α) : Prop := Covered D.block Pair 0 s

/-- A sum of blocks and one pair. -/
def Paired (s : Multiset α) : Prop := ∃ b r, Pair b ∧ D.Melds r ∧ s = b + r

/-- The elements of a suit a wildcard may stand for. -/
def Of (i : ι) (s : Multiset α) : Prop := ∀ x ∈ s, D.ordinary x ∧ D.suit x = i

/-- `g` wildcards complete `s` within suit `i`. -/
def Completes (goal : Multiset α → Prop) (i : ι) (g : Nat) (s : Multiset α) : Prop :=
  ∃ w : Multiset α, w.card = g ∧ D.Of i w ∧ goal (s + w)

/-- `n` wildcards make `s` a sum of blocks and one pair. -/
def Wins (n : Nat) (s : Multiset α) : Prop :=
  ∃ w : Multiset α, w.card = n ∧ (∀ x ∈ w, D.ordinary x) ∧ D.Paired (s + w)

variable {D} {s t : Multiset α} {i j : ι} {g n : Nat}

/-! ### Sums of blocks -/

@[elab_as_elim]
theorem Melds.induct {p : Multiset α → Prop} (h : D.Melds s) (nil : p 0)
    (block : ∀ b s, D.block b → D.Melds s → p s → p (b + s)) : p s := by
  have cover : Covered D.block Pair 0 s := h
  clear h
  generalize none : 0 = k at cover
  induction cover with
  | nil => exact nil
  | block hb hs ih =>
      subst none
      exact block _ _ hb hs (ih rfl)
  | special => exact absurd none.symm (Nat.succ_ne_zero _)

theorem Melds.add (hs : D.Melds s) (ht : D.Melds t) : D.Melds (s + t) := by
  refine hs.induct (p := fun s => D.Melds (s + t)) ?_ fun b s hb _ ih => ?_
  · rwa [zero_add]
  · rw [add_assoc]
    exact .block hb ih

theorem Melds.sum {σ : Type*} {f : σ → Multiset α} {l : Finset σ} (h : ∀ i ∈ l, D.Melds (f i)) :
    D.Melds (∑ i ∈ l, f i) :=
  Finset.sum_induction f D.Melds (fun _ _ => Melds.add) .nil h

theorem Paired.add (hs : D.Paired s) (ht : D.Melds t) : D.Paired (s + t) := by
  obtain ⟨b, r, pair, melds, rfl⟩ := hs
  exact ⟨b, r + t, pair, melds.add ht, add_assoc b r t⟩

theorem Melds.card_mod (h : D.Melds s) : s.card % 3 = 0 := by
  refine h.induct (p := fun s => s.card % 3 = 0) rfl fun b s hb _ ih => ?_
  rw [Multiset.card_add, D.block_card hb]
  omega

theorem Melds.block_of_card (h : D.Melds s) (three : s.card = 3) : D.block s := by
  refine h.induct (p := fun s => s.card = 3 → D.block s) (fun none => by simp at none) ?_ three
  intro b s hb _ _ three
  rw [Multiset.card_add, D.block_card hb, Nat.add_eq_left, Multiset.card_eq_zero] at three
  rwa [three, add_zero]

theorem Paired.card_mod (h : D.Paired s) : s.card % 3 = 2 := by
  obtain ⟨b, r, ⟨a, rfl⟩, melds, rfl⟩ := h
  have := melds.card_mod
  rw [Multiset.card_add, Multiset.card_replicate]
  omega

/-! ### One suit -/

theorem Of.add (hs : D.Of i s) (ht : D.Of i t) : D.Of i (s + t) :=
  fun x hx => (Multiset.mem_add.1 hx).elim (hs x) (ht x)

theorem of_replicate {a : α} (h : D.ordinary a ∧ D.suit a = i) (n : Nat) :
    D.Of i (Multiset.replicate n a) :=
  fun _ hx => Multiset.eq_of_mem_replicate hx ▸ h

/-- Two more wildcards are a pair. -/
theorem Completes.pair (h : D.Completes D.Melds i g s) : D.Completes D.Paired i (g + 2) s := by
  obtain ⟨w, card, inside, melds⟩ := h
  obtain ⟨a, ha⟩ := D.inhabited i
  refine ⟨w + Multiset.replicate 2 a, ?_, inside.add (of_replicate ha 2),
    Multiset.replicate 2 a, s + w, ⟨a, rfl⟩, melds, ?_⟩
  · rw [Multiset.card_add, card, Multiset.card_replicate]
  · rw [← add_assoc, add_comm]

/-- One more wildcard makes the pair a block. -/
theorem Completes.block (own : D.Of i s) (h : D.Completes D.Paired i g s) :
    D.Completes D.Melds i (g + 1) s := by
  obtain ⟨w, card, inside, b, r, ⟨a, rfl⟩, melds, split⟩ := h
  have mem : a ∈ s + w := by
    rw [split]
    exact Multiset.mem_add.2 (.inl (Multiset.mem_replicate.2 ⟨by decide, rfl⟩))
  have ha : D.ordinary a ∧ D.suit a = i := own.add inside a mem
  refine ⟨w + {a}, ?_, inside.add (of_replicate ha 1), ?_⟩
  · rw [Multiset.card_add, card, Multiset.card_singleton]
  · have three : Multiset.replicate 3 a = Multiset.replicate 2 a + {a} := by
      rw [← Multiset.replicate_one, ← Multiset.replicate_add]
    have whole : s + (w + {a}) = Multiset.replicate 3 a + r := by
      rw [← add_assoc, split, three, add_right_comm]
    rw [whole]
    exact .block (D.triplet a) melds

theorem Completes.melds_add (own : D.Of i s) (h : D.Completes D.Melds i g s) (k : Nat) :
    D.Completes D.Melds i (g + 3 * k) s := by
  induction k with
  | zero => exact h
  | succ k ih => exact ih.pair.block own

theorem Completes.paired_add (own : D.Of i s) (h : D.Completes D.Paired i g s) (k : Nat) :
    D.Completes D.Paired i (g + 3 * k) s := by
  induction k with
  | zero => exact h
  | succ k ih => exact (ih.block own).pair

/-- Two wildcards for each element make it a triplet. -/
theorem exists_completes (own : D.Of i s) : ∃ g, D.Completes D.Melds i g s := by
  refine ⟨_, s + s, rfl, own.add own, ?_⟩
  induction s using Multiset.induction_on with
  | empty => exact .nil
  | cons a s ih =>
      have whole : (a ::ₘ s) + ((a ::ₘ s) + (a ::ₘ s)) =
          Multiset.replicate 3 a + (s + (s + s)) := by
        simp only [← Multiset.singleton_add, Multiset.replicate_succ, Multiset.replicate_zero]
        abel
      rw [whole]
      exact .block (D.triplet a) (ih fun x hx => own x (Multiset.mem_cons_of_mem hx))

/-- The least number of wildcards that makes `s` a sum of blocks. -/
noncomputable def melds (D : Deck α ι) (i : ι) (s : Multiset α) : Nat :=
  sInf {g | D.Completes D.Melds i g s}

/-- The least number of wildcards that makes `s` a sum of blocks and one pair. -/
noncomputable def paired (D : Deck α ι) (i : ι) (s : Multiset α) : Nat :=
  sInf {g | D.Completes D.Paired i g s}

theorem melds_spec (own : D.Of i s) : D.Completes D.Melds i (D.melds i s) s :=
  Nat.sInf_mem (exists_completes own)

theorem paired_spec (own : D.Of i s) : D.Completes D.Paired i (D.paired i s) s := by
  obtain ⟨g, h⟩ := exists_completes own
  have some : ({g | D.Completes D.Paired i g s} : Set Nat).Nonempty := ⟨g + 2, h.pair⟩
  exact Nat.sInf_mem some

theorem Completes.melds_mod (h : D.Completes D.Melds i g s) : (s.card + g) % 3 = 0 := by
  obtain ⟨w, rfl, _, melds⟩ := h
  simpa using melds.card_mod

theorem Completes.paired_mod (h : D.Completes D.Paired i g s) : (s.card + g) % 3 = 2 := by
  obtain ⟨w, rfl, _, paired⟩ := h
  simpa using paired.card_mod

theorem completes_melds_iff (own : D.Of i s) :
    D.Completes D.Melds i g s ↔ D.melds i s ≤ g ∧ (s.card + g) % 3 = 0 := by
  constructor
  · exact fun h => ⟨Nat.sInf_le h, h.melds_mod⟩
  · rintro ⟨least, residue⟩
    have spec := melds_spec own
    have := spec.melds_mod
    obtain ⟨k, rfl⟩ : ∃ k, g = D.melds i s + 3 * k :=
      ⟨(g - D.melds i s) / 3, by omega⟩
    exact spec.melds_add own k

theorem completes_paired_iff (own : D.Of i s) :
    D.Completes D.Paired i g s ↔ D.paired i s ≤ g ∧ (s.card + g) % 3 = 2 := by
  constructor
  · exact fun h => ⟨Nat.sInf_le h, h.paired_mod⟩
  · rintro ⟨least, residue⟩
    have spec := paired_spec own
    have := spec.paired_mod
    obtain ⟨k, rfl⟩ : ∃ k, g = D.paired i s + 3 * k :=
      ⟨(g - D.paired i s) / 3, by omega⟩
    exact spec.paired_add own k

/-- A pair costs one wildcard less than a block in its place, or two more than none. -/
theorem paired_eq (own : D.Of i s) :
    D.paired i s + 1 = D.melds i s ∨ D.paired i s = D.melds i s + 2 := by
  have up := ((completes_paired_iff own).1 (melds_spec own).pair).1
  have down := ((completes_melds_iff own).1 ((paired_spec own).block own)).1
  have := (melds_spec own).melds_mod
  have := (paired_spec own).paired_mod
  omega

/-! ### From one suit to another -/

section Rename
variable {f : α → α} (keep : ∀ b, D.block b → D.Of i b → D.block (b.map f))
include keep

theorem Melds.map (h : D.Melds s) (own : D.Of i s) : D.Melds (s.map f) := by
  refine h.induct (p := fun s => D.Of i s → D.Melds (s.map f)) (fun _ => .nil) ?_ own
  intro b s hb _ ih own
  rw [Multiset.map_add]
  exact .block (keep b hb fun x hx => own x (Multiset.mem_add.2 (.inl hx)))
    (ih fun x hx => own x (Multiset.mem_add.2 (.inr hx)))

theorem Paired.map (h : D.Paired s) (own : D.Of i s) : D.Paired (s.map f) := by
  obtain ⟨b, r, ⟨a, rfl⟩, melds, rfl⟩ := h
  refine ⟨_, r.map f, ⟨f a, rfl⟩, melds.map keep fun x hx => own x (Multiset.mem_add.2 (.inr hx)), ?_⟩
  rw [Multiset.map_add, Multiset.map_replicate]

omit keep in
theorem Completes.map {goal : Multiset α → Prop}
    (move : ∀ x, D.ordinary x ∧ D.suit x = i → D.ordinary (f x) ∧ D.suit (f x) = j)
    (renames : ∀ t, D.Of i t → goal t → goal (t.map f)) (own : D.Of i s)
    (h : D.Completes goal i g s) : D.Completes goal j g (s.map f) := by
  obtain ⟨w, rfl, inside, complete⟩ := h
  refine ⟨w.map f, Multiset.card_map f w, fun y hy => ?_, ?_⟩
  · obtain ⟨x, hx, rfl⟩ := Multiset.mem_map.1 hy
    exact move x (inside x hx)
  · rw [← Multiset.map_add]
    exact renames _ (own.add inside) complete

end Rename

/-! ### All suits -/

section Parts
variable [DecidableEq ι]

/-- The elements of one suit. -/
def part (D : Deck α ι) (i : ι) (s : Multiset α) : Multiset α := s.filter fun x => D.suit x = i

/-- `n` wildcards make `s` a sum of blocks and one pair in which each suit fits. -/
def WinsFitting (D : Deck α ι) (fits : Multiset α → Prop) (n : Nat) (s : Multiset α) : Prop :=
  ∃ w : Multiset α, w.card = n ∧ (∀ x ∈ w, D.ordinary x) ∧ D.Paired (s + w) ∧
    ∀ i, fits (D.part i (s + w))

theorem part_add : D.part i (s + t) = D.part i s + D.part i t := Multiset.filter_add _ s t

/-- The part is additive. -/
def partHom (D : Deck α ι) (i : ι) : Multiset α →+ Multiset α where
  toFun := D.part i
  map_zero' := rfl
  map_add' _ _ := part_add

theorem part_of (h : ∀ x ∈ s, D.ordinary x) : D.Of i (D.part i s) :=
  fun x hx => (Multiset.mem_filter.1 hx).imp_left (h x)

theorem part_self (h : ∀ x ∈ s, D.suit x = i) : D.part i s = s := Multiset.filter_eq_self.2 h

theorem part_other (h : ∀ x ∈ s, D.suit x = i) (other : j ≠ i) : D.part j s = 0 :=
  Multiset.filter_eq_nil.2 fun x hx same => other (same.symm.trans (h x hx))

theorem Melds.part (h : D.Melds s) (j : ι) : D.Melds (D.part j s) := by
  refine h.induct (p := fun s => D.Melds (D.part j s)) .nil fun b s hb _ ih => ?_
  rw [part_add]
  obtain ⟨i, within⟩ := D.block_suit hb
  by_cases here : j = i
  · subst here
    rw [part_self within]
    exact .block hb ih
  · rw [part_other within here, zero_add]
    exact ih

/-- The pair lies in one of the suits. -/
theorem Paired.parts (h : D.Paired s) :
    ∃ j, D.Paired (D.part j s) ∧ ∀ i, i ≠ j → D.Melds (D.part i s) := by
  obtain ⟨b, r, ⟨a, rfl⟩, melds, rfl⟩ := h
  have within : ∀ x ∈ Multiset.replicate 2 a, D.suit x = D.suit a :=
    fun x hx => Multiset.eq_of_mem_replicate hx ▸ rfl
  refine ⟨D.suit a, ?_, fun i other => ?_⟩
  · rw [part_add, part_self within]
    exact ⟨_, _, ⟨a, rfl⟩, melds.part _, rfl⟩
  · rw [part_add, part_other within other, zero_add]
    exact melds.part i

variable [Fintype ι]

theorem sum_part (D : Deck α ι) (s : Multiset α) : ∑ i, D.part i s = s := by
  induction s using Multiset.induction_on with
  | empty => exact Finset.sum_const_zero
  | cons a s ih =>
      have step : ∀ i ∈ Finset.univ, D.part i (a ::ₘ s) =
          (if D.suit a = i then {a} else 0) + D.part i s := by
        intro i _
        unfold part
        rw [Multiset.filter_cons]
      rw [Finset.sum_congr rfl step, Finset.sum_add_distrib, ih, Finset.sum_ite_eq,
        if_pos (Finset.mem_univ _), Multiset.singleton_add]

/-- A hand wins by distributing the wildcards over the suits, also where the suits have to fit. -/
theorem winsFitting_iff_distribution {fits : Multiset α → Prop} :
    D.WinsFitting fits n s ↔ ∃ g : ι → Nat, ∑ i, g i = n ∧ ∃ j,
      D.Completes (fun t => D.Paired t ∧ fits t) j (g j) (D.part j s) ∧
        ∀ i, i ≠ j → D.Completes (fun t => D.Melds t ∧ fits t) i (g i) (D.part i s) := by
  constructor
  · rintro ⟨w, rfl, inside, paired, fitting⟩
    have fitting : ∀ i, fits (D.part i s + D.part i w) := fun i => by
      rw [← part_add]
      exact fitting i
    obtain ⟨j, here, others⟩ := paired.parts
    refine ⟨fun i => (D.part i w).card, ?_, j, ?_, fun i other => ?_⟩
    · exact (Multiset.card_sum _ _).symm.trans (congrArg Multiset.card (sum_part D w))
    · exact ⟨D.part j w, rfl, part_of inside, by rwa [← part_add], fitting j⟩
    · exact ⟨D.part i w, rfl, part_of inside, by simpa only [← part_add] using others i other,
        fitting i⟩
  · rintro ⟨g, rfl, j, here, others⟩
    have every : ∀ i, ∃ w : Multiset α, w.card = g i ∧ D.Of i w ∧ fits (D.part i s + w) ∧
        (if i = j then D.Paired (D.part i s + w) else D.Melds (D.part i s + w)) := by
      intro i
      by_cases same : i = j
      · subst same
        obtain ⟨w, card, own, paired, fit⟩ := here
        exact ⟨w, card, own, fit, by rwa [if_pos rfl]⟩
      · obtain ⟨w, card, own, melds, fit⟩ := others i same
        exact ⟨w, card, own, fit, by rwa [if_neg same]⟩
    choose w card inside fit complete using every
    refine ⟨∑ i, w i, ?_, fun x hx => ?_, ?_, fun i => ?_⟩
    · rw [Multiset.card_sum]
      exact Finset.sum_congr rfl fun i _ => card i
    · obtain ⟨i, _, mem⟩ := Multiset.mem_sum.1 hx
      exact (inside i x mem).1
    · have split : s + ∑ i, w i = (D.part j s + w j) +
          ∑ i ∈ Finset.univ.erase j, (D.part i s + w i) := by
        rw [Finset.add_sum_erase _ (fun i => D.part i s + w i) (Finset.mem_univ j),
          Finset.sum_add_distrib, sum_part]
      rw [split]
      refine Paired.add (by simpa using complete j) (Melds.sum fun i hi => ?_)
      have other := (Finset.mem_erase.1 hi).1
      simpa [other] using complete i
    · have own : D.part i (∑ k, w k) = w i := by
        have each : ∀ k, D.part i (w k) = if k = i then w k else 0 := fun k => by
          split
          · rename_i same
            exact part_self fun x hx => same ▸ (inside k x hx).2
          · rename_i other
            exact part_other (fun x hx => (inside k x hx).2) (Ne.symm other)
        have all : D.part i (∑ k, w k) = ∑ k, D.part i (w k) := map_sum (partHom D i) w Finset.univ
        rw [all, Finset.sum_congr rfl fun k _ => each k, Finset.sum_ite_eq',
          if_pos (Finset.mem_univ i)]
      rw [part_add, own]
      exact fit i

theorem wins_iff_distribution :
    D.Wins n s ↔ ∃ g : ι → Nat, ∑ i, g i = n ∧ ∃ j,
      D.Completes D.Paired j (g j) (D.part j s) ∧
        ∀ i, i ≠ j → D.Completes D.Melds i (g i) (D.part i s) := by
  have fitting := @winsFitting_iff_distribution α ι D s n _ _ fun _ => True
  simpa only [WinsFitting, Wins, Completes, and_true, implies_true] using fitting

/-- A hand wins when it has the wildcards that its suits need at least. -/
theorem wins_iff_least (own : ∀ x ∈ s, D.ordinary x) (residue : (s.card + n) % 3 = 2) :
    D.Wins n s ↔ ∃ j, D.paired j (D.part j s) +
      ∑ i ∈ Finset.univ.erase j, D.melds i (D.part i s) ≤ n := by
  have total : ∀ j, (D.part j s).card + ∑ i ∈ Finset.univ.erase j, (D.part i s).card = s.card := by
    intro j
    rw [Finset.add_sum_erase _ (fun i => (D.part i s).card) (Finset.mem_univ j),
      ← Multiset.card_sum, sum_part]
  rw [wins_iff_distribution]
  constructor
  · rintro ⟨g, rfl, j, here, others⟩
    refine ⟨j, ?_⟩
    rw [← Finset.add_sum_erase _ g (Finset.mem_univ j)]
    refine Nat.add_le_add ((completes_paired_iff (part_of own)).1 here).1
      (Finset.sum_le_sum fun i hi => ?_)
    exact ((completes_melds_iff (part_of own)).1 (others i (Finset.mem_erase.1 hi).1)).1
  · rintro ⟨j, enough⟩
    let rest := ∑ i ∈ Finset.univ.erase j, D.melds i (D.part i s)
    have others : ∀ i, i ≠ j → D.Completes D.Melds i (D.melds i (D.part i s)) (D.part i s) :=
      fun i _ => melds_spec (part_of own)
    have even : (∑ i ∈ Finset.univ.erase j, (D.part i s).card + rest) % 3 = 0 := by
      rw [← Finset.sum_add_distrib]
      refine Finset.sum_induction _ (fun k => k % 3 = 0) (fun a b ha hb => by omega) rfl ?_
      exact fun i hi => (others i (Finset.mem_erase.1 hi).1).melds_mod
    refine ⟨fun i => if i = j then n - rest else D.melds i (D.part i s), ?_, j, ?_, ?_⟩
    · rw [← Finset.add_sum_erase _ _ (Finset.mem_univ j), if_pos rfl]
      have same : ∑ i ∈ Finset.univ.erase j, (if i = j then n - rest else D.melds i (D.part i s)) =
          rest := Finset.sum_congr rfl fun i hi => if_neg (Finset.mem_erase.1 hi).1
      rw [same]
      omega
    · simp only [if_true]
      rw [completes_paired_iff (part_of own)]
      have := total j
      omega
    · intro i other
      simp only [if_neg other]
      exact others i other

end Parts

end Deck

end WildcardCover
