import FkServer.MaajanZigong.GouLoops

/-!
`gou_count_tiyong` against what it is for: the most tiles held four times that the
wildcards can make in a win. Its loops go from more quads to fewer. What goes wrong: the
innermost of three loops starts too early and may take a pung's tile twice, the last loop
takes the fourth tile of a pung for a tile to be made four, and soft pungs are not seen.
-/
namespace FkServer.MaajanZigong.Rule

open WildcardCover WildcardCover.Deck

variable {data : MaajanData String} {h : WildHand} {a b : Multiset Nat} {t u v : Nat}
  {trial : Trial} {n : Nat}

namespace WildHand

/-- The counts the wildcards can come to, soft pungs among them or not. -/
def counts (h : WildHand) (soft : Bool) : Set Nat :=
  {n | ∃ a, Assigned h.cache a ∧ n = quads soft h.mingPai h.cache a}

/-- What no assignment beats and some assignment reaches is the greatest count. -/
theorem greatest (reach : ∃ a, Assigned h.cache a ∧ b ≤ a)
    (bound : ∀ a, Assigned h.cache a → (h.gained a).card ≤ (h.gained b).card) :
    IsGreatest (h.counts false) (quads false h.mingPai h.cache b) := by
  have most : ∀ a, Assigned h.cache a →
      quads false h.mingPai h.cache a ≤ quads false h.mingPai h.cache b := by
    intro a assigned
    have le := bound a assigned
    rw [quads_eq, quads_eq]
    omega
  obtain ⟨a, assigned, inside⟩ := reach
  refine ⟨⟨a, assigned, ?_⟩, ?_⟩
  · exact Nat.le_antisymm (quads_mono inside) (most a assigned)
  · rintro _ ⟨a, assigned, rfl⟩
    exact most a assigned

/-- Where a loop finds nothing no assignment contains one of its trials. -/
theorem not_le_of_none (tables : Tables data) {wild : Nat} {trials : List Trial}
    (none : trials.find? (wins data (curcounts h.cache) wild) = none) (mem : trial ∈ trials)
    (own : bag trial = b) (fills : h.Fills b) (size : wild + b.card = wildcards h.cache)
    (assigned : Assigned h.cache a) : ¬ b ≤ a := by
  intro inside
  have few := h.few
  have won := (fills.wins_iff (by omega) tables own size).2 ⟨a, assigned, inside⟩
  exact List.find?_eq_none.1 none trial mem won

/-- Where a loop finds a trial some assignment contains it. -/
theorem reach_of_some (tables : Tables data) {wild : Nat} {trials : List Trial}
    (found : trials.find? (wins data (curcounts h.cache) wild) = some trial)
    (own : bag trial = b) (fills : h.Fills b) (size : wild + b.card = wildcards h.cache) :
    ∃ a, Assigned h.cache a ∧ b ≤ a := by
  have few := h.few
  have won : wins data (curcounts h.cache) wild trial = true := List.find?_some found
  exact (fills.wins_iff (by omega) tables own size).1 won

/-- The count of a trial that no assignment beats is the greatest. -/
theorem greatest_of_found (tables : Tables data) {wild : Nat} {trials : List Trial}
    (found : trials.find? (wins data (curcounts h.cache) wild) = some trial)
    (own : bag trial = b) (fills : h.Fills b) (size : wild + b.card = wildcards h.cache)
    (bound : ∀ a, Assigned h.cache a → (h.gained a).card ≤ (h.gained b).card) :
    IsGreatest (h.counts false) (counted h.mingPai (curcounts h.cache) wild trial) := by
  have few := h.few
  rw [fills.counted_eq (by omega) own (by omega)]
  exact greatest (reach_of_some tables found own fills size) bound

section Assignment
variable (assigned : Assigned h.cache a)
include assigned

theorem assigned_card : a.card ≤ 3 := by
  have few := h.few
  have card := assigned.card
  omega

theorem assigned_gained : t ∈ h.gained a ↔ (t ∈ h.canGou 1 ∧ 1 ≤ a.count t) ∨
    (t ∈ h.canGou 2 ∧ 2 ≤ a.count t) ∨
      (t ∈ h.canGou 3 ∧ t ∉ pungTiles false h.mingPai ∧ 3 ≤ a.count t) :=
  mem_gained assigned.ordinary (assigned_card assigned)

end Assignment

/-- A trial gains the tiles it makes four, unless a pung was held four times already. -/
theorem Fills.gained {b : Multiset Nat} (fills : h.Fills b) (few : b.card ≤ 3) (mem : t ∈ b)
    (apart : t ∈ pungTiles false h.mingPai → b.count t ≠ 3) : t ∈ h.gained b := by
  have pos := Multiset.one_le_count_iff_mem.2 mem
  have most := (b.count_le_card t).trans few
  have kind := fills t mem
  rw [mem_gained (fun z held => (fills.need few held).1) few]
  obtain one | two | three : b.count t = 1 ∨ b.count t = 2 ∨ b.count t = 3 := by omega
  · rw [one] at kind
    exact .inl ⟨kind, pos⟩
  · rw [two] at kind
    exact .inr (.inl ⟨kind, by omega⟩)
  · rw [three] at kind
    exact .inr (.inr ⟨kind, fun pung => apart pung three, by omega⟩)

theorem gained_one (fills : h.Fills b) (few : b.card ≤ 3) (mem : t ∈ b)
    (apart : t ∈ pungTiles false h.mingPai → b.count t ≠ 3) : 1 ≤ (h.gained b).card :=
  Finset.card_pos.2 ⟨t, fills.gained few mem apart⟩

theorem gained_two (fills : h.Fills b) (few : b.card ≤ 3) (ht : t ∈ b) (hu : u ∈ b) (ne : t ≠ u) :
    2 ≤ (h.gained b).card := by
  have sum := two_counts ne b
  have pos := Multiset.one_le_count_iff_mem.2 ht
  have pos' := Multiset.one_le_count_iff_mem.2 hu
  have inside : {t, u} ⊆ h.gained b := by
    intro z mem
    rcases Finset.mem_insert.1 mem with rfl | mem
    · exact fills.gained few ht fun _ => by omega
    · rw [Finset.mem_singleton.1 mem]
      exact fills.gained few hu fun _ => by omega
  have card := Finset.card_le_card inside
  rwa [Finset.card_pair ne] at card

theorem gained_three (fills : h.Fills {t, u, v}) (tu : t ≠ u) (tv : t ≠ v) (uv : u ≠ v) :
    3 ≤ (h.gained {t, u, v}).card := by
  have nodup : ({t, u, v} : Multiset Nat).Nodup := by simp [tu, tv, uv]
  have inside : {t, u, v} ⊆ h.gained {t, u, v} := by
    intro z mem
    have here : z ∈ ({t, u, v} : Multiset Nat) := by simpa using mem
    apply fills.gained (by simp) here
    rw [Multiset.count_eq_one_of_mem nodup here]
    omega
  have card := Finset.card_le_card inside
  rwa [Finset.card_insert_of_notMem (by simp [tu, tv]), Finset.card_pair uv] at card

/-- A loop over tiles that one, two or three wildcards make four. -/
theorem fills_of_oneOf {wild : Nat} (found : (oneOf (h.canGou n) n).find?
    (wins data (curcounts h.cache) wild) = some trial) :
    ∃ t ∈ h.canGou n, trial = [(t, n)] ∧ bag trial = Multiset.replicate n t ∧
      h.Fills (Multiset.replicate n t) := by
  obtain ⟨t, ht, rfl⟩ := mem_oneOf.1 (List.mem_of_find?_eq_some found)
  exact ⟨t, ht, rfl, bag_one t n, fills_one ht⟩

theorem fills_of_twoOf {wild : Nat} (found : (twoOf (h.canGou 1)).find?
    (wins data (curcounts h.cache) wild) = some trial) :
    ∃ t u, t ≠ u ∧ bag trial = {t, u} ∧ h.Fills {t, u} := by
  obtain ⟨i, j, less, last, rfl⟩ := mem_twoOf.1 (List.mem_of_find?_eq_some found)
  have ne := getD_ne h.canGou_nodup less last
  exact ⟨_, _, ne, bag_two _ _ 1, fills_two (getD_mem (by omega)) (getD_mem last) ne⟩

/-- Where no tile fits in, no assignment has it. -/
theorem not_count_of_none (tables : Tables data) {wild : Nat}
    (none : (oneOf (h.canGou n) n).find? (wins data (curcounts h.cache) wild) = none)
    (size : wild + n = wildcards h.cache) (assigned : Assigned h.cache a) (ht : t ∈ h.canGou n) :
    a.count t < n := by
  by_contra held
  refine not_le_of_none tables none (mem_oneOf.2 ⟨t, ht, rfl⟩) (bag_one t n) (fills_one ht)
    (by simpa using size) assigned ?_
  exact Multiset.le_count_iff_replicate_le.1 (Nat.le_of_not_lt held)

theorem not_pair_of_none (tables : Tables data) {wild : Nat}
    (none : (twoOf (h.canGou 1)).find? (wins data (curcounts h.cache) wild) = none)
    (size : wild + 2 = wildcards h.cache) (assigned : Assigned h.cache a) (ht : t ∈ h.canGou 1)
    (hu : u ∈ h.canGou 1) (ne : t ≠ u) : ¬ (1 ≤ a.count t ∧ 1 ≤ a.count u) := by
  rintro ⟨held, held'⟩
  obtain ⟨trial, mem, own⟩ := exists_twoOf ht hu ne
  exact not_le_of_none tables none mem own (fills_two ht hu ne) (by simpa using size) assigned
    (le_two ne held held')

theorem gained_zero (assigned : Assigned h.cache a)
    (none : ∀ t, (t ∈ h.canGou 1 → a.count t < 1) ∧ (t ∈ h.canGou 2 → a.count t < 2) ∧
      (t ∈ h.canGou 3 → t ∉ pungTiles false h.mingPai → a.count t < 3)) :
    (h.gained a).card ≤ (h.gained 0).card := by
  by_contra more
  obtain ⟨t, gain⟩ := Finset.card_pos.1 (Nat.lt_of_le_of_lt (Nat.zero_le _) (Nat.lt_of_not_le more))
  obtain ⟨first, second, third⟩ := none t
  rcases (assigned_gained assigned).1 gain with ⟨ht, held⟩ | ⟨ht, held⟩ | ⟨ht, apart, held⟩
  · have := first ht
    omega
  · have := second ht
    omega
  · have := third ht apart
    omega

/-- The hand as it is has the greatest count where nothing can be gained. -/
theorem greatest_zero (none : ∀ a, Assigned h.cache a → ∀ t,
    (t ∈ h.canGou 1 → a.count t < 1) ∧ (t ∈ h.canGou 2 → a.count t < 2) ∧
      (t ∈ h.canGou 3 → t ∉ pungTiles false h.mingPai → a.count t < 3)) :
    IsGreatest (h.counts false) (quads false h.mingPai h.cache 0) := by
  obtain ⟨a, assigned⟩ := h.winning
  exact greatest ⟨a, assigned, Multiset.zero_le a⟩ fun a assigned => gained_zero assigned (none a assigned)

/-! ### One wildcard and two -/

theorem count_one (tables : Tables data) (one : wildcards h.cache = 1) :
    IsGreatest (h.counts false) (gouCountTiyong data h.mingPai h.cache) := by
  rw [h.gouCountTiyong_eq tables]
  simp only [ownLoops, helpLoops, one, List.append_nil, firstFound]
  cases found : (oneOf (h.canGou 1) 1).find? (wins data (curcounts h.cache) 0) with
  | some trial =>
      obtain ⟨t, _, rfl, own, fills⟩ := fills_of_oneOf found
      apply greatest_of_found tables found own fills (by simp [one])
      intro a assigned
      have least := gained_one fills (by simp) (Multiset.mem_replicate.2 ⟨by omega, rfl⟩) (by simp)
      have most := h.card_gained_le assigned.ordinary (assigned_card assigned)
      have card := assigned.card
      omega
  | none =>
      apply greatest_zero
      intro a assigned t
      have most := (a.count_le_card t).trans_eq assigned.card
      refine ⟨?_, fun _ => by omega, fun _ _ => by omega⟩
      exact not_count_of_none tables found (by omega) assigned

theorem count_two (tables : Tables data) (two : wildcards h.cache = 2) :
    IsGreatest (h.counts false) (gouCountTiyong data h.mingPai h.cache) := by
  rw [h.gouCountTiyong_eq tables]
  simp only [ownLoops, helpLoops, two, List.cons_append, List.nil_append, firstFound]
  cases pair : (twoOf (h.canGou 1)).find? (wins data (curcounts h.cache) 0) with
  | some trial =>
      obtain ⟨t, u, ne, own, fills⟩ := fills_of_twoOf pair
      apply greatest_of_found tables pair own fills (by simp [two])
      intro a assigned
      have least := gained_two fills (by simp) (by simp) (by simp) ne
      have most := h.card_gained_le assigned.ordinary (assigned_card assigned)
      have card := assigned.card
      omega
  | none =>
      -- from here on at most one tile is gained
      have bound : ∀ a, Assigned h.cache a → (h.gained a).card ≤ 1 := by
        intro a assigned
        have card := assigned.card
        by_contra more
        obtain ⟨t, gain, u, gain', ne⟩ := Finset.one_lt_card.1 (Nat.lt_of_not_le more)
        have sum := two_counts ne a
        have held := gained_count assigned.ordinary (assigned_card assigned) gain
        have held' := gained_count assigned.ordinary (assigned_card assigned) gain'
        rw [assigned_gained assigned] at gain gain'
        have ht : t ∈ h.canGou 1 := by
          rcases gain with ⟨ht, _⟩ | ⟨_, two⟩ | ⟨_, _, three⟩
          · exact ht
          · omega
          · omega
        have hu : u ∈ h.canGou 1 := by
          rcases gain' with ⟨hu, _⟩ | ⟨_, two⟩ | ⟨_, _, three⟩
          · exact hu
          · omega
          · omega
        exact not_pair_of_none tables pair (by omega) assigned ht hu ne ⟨held, held'⟩
      dsimp only
      cases one : (oneOf (h.canGou 1) 1).find? (wins data (curcounts h.cache) 1) with
      | some trial =>
          obtain ⟨t, _, rfl, own, fills⟩ := fills_of_oneOf one
          apply greatest_of_found tables one own fills (by simp [two])
          intro a assigned
          have least := gained_one fills (by simp) (Multiset.mem_replicate.2 ⟨by omega, rfl⟩) (by simp)
          exact (bound a assigned).trans least
      | none =>
          dsimp only
          cases dui : (oneOf (h.canGou 2) 2).find? (wins data (curcounts h.cache) 0) with
          | some trial =>
              obtain ⟨t, _, rfl, own, fills⟩ := fills_of_oneOf dui
              apply greatest_of_found tables dui own fills (by simp [two])
              intro a assigned
              have least := gained_one fills (by simp) (Multiset.mem_replicate.2 ⟨by omega, rfl⟩)
                (by simp)
              exact (bound a assigned).trans least
          | none =>
              apply greatest_zero
              intro a assigned t
              have most := (a.count_le_card t).trans_eq assigned.card
              refine ⟨?_, ?_, fun _ _ => by omega⟩
              · exact not_count_of_none tables one (by omega) assigned
              · exact not_count_of_none tables dui (by omega) assigned

/-! ### Three wildcards -/

/-- Of the trials of three tiles the first that wins takes a tile twice. -/
def DoubledFirst (data : MaajanData String) (h : WildHand) : Prop :=
  wildcards h.cache = 3 ∧ ∃ t u, (threeOf (h.canGou 1)).find? (wins data (curcounts h.cache) 0) =
    some [(t, 1), (u, 1), (u, 1)]

/-- The wildcards can make none but a single tile four, and the first single tile that wins
with them is the fourth of a pung, although another wins as well. -/
def PungFirst (data : MaajanData String) (h : WildHand) : Prop :=
  wildcards h.cache = 3 ∧ (∀ t ∈ h.canGou 1, wins data (curcounts h.cache) 2 [(t, 1)] = false) ∧
    (∀ t ∈ h.canGou 2, wins data (curcounts h.cache) 1 [(t, 2)] = false) ∧
    ∃ p ∈ pungTiles false h.mingPai,
      (oneOf (h.canGou 3) 3).find? (wins data (curcounts h.cache) 0) = some [(p, 3)] ∧
      ∃ t ∈ h.canGou 3, t ∉ pungTiles false h.mingPai ∧
        wins data (curcounts h.cache) 0 [(t, 3)] = true

section Three
variable (tables : Tables data) (three : wildcards h.cache = 3)
include tables three

/-- A tile of an assignment can be made four on its own. -/
theorem wins_one (ht : t ∈ h.canGou 1) (assigned : Assigned h.cache a) (held : t ∈ a) :
    wins data (curcounts h.cache) 2 [(t, 1)] = true := by
  have fills : h.Fills (Multiset.replicate 1 t) := fills_one ht
  have agree : wins data (curcounts h.cache) 2 [(t, 1)] = true ↔ _ :=
    fills.wins_iff (by simp) tables (bag_one t 1) (by simp [three])
  exact agree.2 ⟨a, assigned, by simpa using held⟩

/-- A doubled trial wins with a pung that has no tile in the hand, and is counted too low. -/
theorem doubled_low (ht : t ∈ h.canGou 1) (hu : u ∈ h.canGou 1) (ne : t ≠ u)
    (won : wins data (curcounts h.cache) 0 [(t, 1), (u, 1), (u, 1)] = true) :
    ∃ a, Assigned h.cache a ∧ t ∈ a ∧
      counted h.mingPai (curcounts h.cache) 0 [(t, 1), (u, 1), (u, 1)] <
        quads false h.mingPai h.cache a := by
  have own := bag_three t u u
  have kind := (mem_canGou (by omega) (by omega)).1 ht
  have kind' := (mem_canGou (by omega) (by omega)).1 hu
  have ordinary : ∀ z ∈ bag [(t, 1), (u, 1), (u, 1)], Ordinary z := by
    intro z mem
    rw [own] at mem
    simp only [Multiset.insert_eq_cons, Multiset.mem_cons, Multiset.mem_singleton] at mem
    rcases mem with rfl | rfl | rfl
    · exact kind.1
    · exact kind'.1
    · exact kind'.1
  have twice : (bag [(t, 1), (u, 1), (u, 1)]).count u = 2 := by
    rw [own]
    simp [ne.symm]
  rcases kind'.2 with concealed | ⟨_, pung, none⟩
  · -- five of a tile never win
    rw [not_wins_of_five tables h.hand ordinary kind'.1 (by omega)] at won
    cases won
  · have four : ∀ z, h.cache z + (bag [(t, 1), (u, 1), (u, 1)]).count z ≤ 4 ∨ z = tyValue := by
      intro z
      have copies := h.hand.few z
      by_cases first : z = t
      · subst first
        have once : (bag [(z, 1), (u, 1), (u, 1)]).count z = 1 := by
          rw [own]
          simp [ne]
        omega
      · by_cases second : z = u
        · subst second
          omega
        · have other : (bag [(t, 1), (u, 1), (u, 1)]).count z = 0 := by
            rw [own]
            simp [first, second]
          omega
    obtain ⟨a, assigned, inside⟩ :=
      (wins_iff tables h.hand h.size h.few (by simp [own, three]) ordinary four).1 won
    refine ⟨a, assigned, Multiset.mem_of_le inside (by simp [own]), ?_⟩
    apply Nat.lt_of_lt_of_le ?_ (quads_mono inside)
    rw [counted, incr_zero]
    apply gouCountWutiyong_lt h.pungs_nodup pung_inside pung
    rw [filled, h.curcounts_ordinary kind'.1, twice, none]
    rfl

/-- What the hand counts where the loops of three tiles find nothing. -/
def restCount (data : MaajanData String) (h : WildHand) : Nat :=
  match firstFound data (curcounts h.cache) h.helpLoops with
  | some (wild, trial) => counted h.mingPai (curcounts h.cache) wild trial
  | none => quads false h.mingPai h.cache 0

theorem not_pungFirst (ht : t ∈ h.canGou 1) (assigned : Assigned h.cache a) (held : t ∈ a) :
    ¬ PungFirst data h := by
  rintro ⟨_, none, _⟩
  have lost := none t ht
  rw [wins_one tables three ht assigned held] at lost
  cases lost

omit tables in
/-- Where no three tiles, and no two, are made four at once, one is gained at most. -/
theorem gained_le_one
    (pair : ∀ a, Assigned h.cache a → ∀ t ∈ h.canGou 1, ∀ u ∈ h.canGou 1, t ≠ u →
      ¬ (1 ≤ a.count t ∧ 1 ≤ a.count u))
    (mixed : ∀ a, Assigned h.cache a → ∀ t ∈ h.canGou 1, ∀ u ∈ h.canGou 2,
      ¬ (1 ≤ a.count t ∧ 2 ≤ a.count u))
    (assigned : Assigned h.cache a) : (h.gained a).card ≤ 1 := by
  have card := assigned.card
  by_contra more
  obtain ⟨t, gain, u, gain', ne⟩ := Finset.one_lt_card.1 (Nat.lt_of_not_le more)
  have sum := two_counts ne a
  have held := gained_count assigned.ordinary (assigned_card assigned) gain
  have held' := gained_count assigned.ordinary (assigned_card assigned) gain'
  rw [assigned_gained assigned] at gain gain'
  rcases gain with ⟨ht, _⟩ | ⟨ht, two⟩ | ⟨_, _, third⟩
  · rcases gain' with ⟨hu, _⟩ | ⟨hu, two⟩ | ⟨_, _, third⟩
    · exact pair a assigned t ht u hu ne ⟨held, held'⟩
    · exact mixed a assigned t ht u hu ⟨held, two⟩
    · omega
  · rcases gain' with ⟨hu, _⟩ | ⟨hu, two'⟩ | ⟨_, _, third⟩
    · exact mixed a assigned u hu t ht ⟨held', two⟩
    · omega
    · omega
  · omega

theorem not_mixed_of_none
    (none : (oneAndTwo (h.canGou 1) (h.canGou 2)).find? (wins data (curcounts h.cache) 0) = none)
    (assigned : Assigned h.cache a) (ht : t ∈ h.canGou 1) (hu : u ∈ h.canGou 2) :
    ¬ (1 ≤ a.count t ∧ 2 ≤ a.count u) := by
  rintro ⟨held, two⟩
  have ne : t ≠ u := by
    rintro rfl
    exact canGou_apart (by omega) (by omega) (by omega) ht hu
  exact not_le_of_none tables none (mem_oneAndTwo.2 ⟨t, ht, u, hu, rfl⟩) (bag_two t u 2)
    (fills_two ht hu ne) (by simp [three]) assigned (le_two ne held two)

/-- The last loop: a single tile and all three wildcards. -/
theorem count_last (bound : ∀ a, Assigned h.cache a → (h.gained a).card ≤ 1)
    (one : (oneOf (h.canGou 1) 1).find? (wins data (curcounts h.cache) 2) = none)
    (dui : (oneOf (h.canGou 2) 2).find? (wins data (curcounts h.cache) 1) = none) :
    IsGreatest (h.counts false)
      (match (oneOf (h.canGou 3) 3).find? (wins data (curcounts h.cache) 0) with
        | some trial => counted h.mingPai (curcounts h.cache) 0 trial
        | none => quads false h.mingPai h.cache 0) ↔ ¬ PungFirst data h := by
  have no_one : ∀ a, Assigned h.cache a → ∀ t ∈ h.canGou 1, a.count t < 1 := fun a assigned t =>
    not_count_of_none tables one (by omega) assigned
  have no_dui : ∀ a, Assigned h.cache a → ∀ t ∈ h.canGou 2, a.count t < 2 := fun a assigned t =>
    not_count_of_none tables dui (by omega) assigned
  cases dan : (oneOf (h.canGou 3) 3).find? (wins data (curcounts h.cache) 0) with
  | none =>
      refine iff_of_true ?_ ?_
      · apply greatest_zero
        intro a assigned t
        exact ⟨no_one a assigned t, no_dui a assigned t, fun ht _ =>
          not_count_of_none tables dan (by omega) assigned ht⟩
      · rintro ⟨_, _, _, p, _, found, _⟩
        rw [dan] at found
        cases found
  | some trial =>
      obtain ⟨p, hp, rfl, own, fills⟩ := fills_of_oneOf dan
      have mem : p ∈ Multiset.replicate 3 p := Multiset.mem_replicate.2 ⟨by omega, rfl⟩
      have reach := reach_of_some tables dan own fills (by simp [three])
      dsimp only
      rw [fills.counted_eq (by simp) own (by omega)]
      by_cases pung : p ∈ pungTiles false h.mingPai
      · -- the fourth tile of a pung gains nothing
        have nothing : h.gained (Multiset.replicate 3 p) = ∅ := by
          apply Finset.eq_empty_of_forall_notMem
          intro z gain
          rw [mem_gained (fun z held => (fills.need (by simp) held).1) (by simp)] at gain
          have same : z = p := by
            by_contra other
            rw [Multiset.count_replicate, if_neg (Ne.symm other)] at gain
            omega
          subst same
          rcases gain with ⟨hz, _⟩ | ⟨hz, _⟩ | ⟨_, apart, _⟩
          · exact canGou_apart (by omega) (by omega) (by omega) hz hp
          · exact canGou_apart (by omega) (by omega) (by omega) hz hp
          · exact apart pung
        constructor
        · rintro ⟨_, most⟩ ⟨_, _, _, _, _, _, t, ht, apart, won⟩
          have fills' : h.Fills (Multiset.replicate 3 t) := fills_one ht
          have agree : wins data (curcounts h.cache) 0 [(t, 3)] = true ↔ _ :=
            fills'.wins_iff (by simp) tables (bag_one t 3) (by simp [three])
          obtain ⟨a, assigned, inside⟩ := agree.1 won
          have more := most ⟨a, assigned, rfl⟩
          have least := gained_one fills' (by simp) (Multiset.mem_replicate.2 ⟨by omega, rfl⟩)
            fun shown => absurd shown apart
          have mono : quads false h.mingPai h.cache (Multiset.replicate 3 t) ≤
              quads false h.mingPai h.cache a := quads_mono inside
          rw [quads_eq, quads_eq, nothing, Finset.card_empty] at more
          rw [quads_eq, quads_eq] at mono
          omega
        · intro fine
          apply greatest reach
          intro a assigned
          rw [nothing, Finset.card_empty, Nat.le_zero, Finset.card_eq_zero]
          apply Finset.eq_empty_of_forall_notMem
          intro t gain
          rcases (assigned_gained assigned).1 gain with ⟨ht, held⟩ | ⟨ht, held⟩ | ⟨ht, apart, held⟩
          · have := no_one a assigned t ht
            omega
          · have := no_dui a assigned t ht
            omega
          · have fills' : h.Fills (Multiset.replicate 3 t) := fills_one ht
            have agree : wins data (curcounts h.cache) 0 [(t, 3)] = true ↔ _ :=
              fills'.wins_iff (by simp) tables (bag_one t 3) (by simp [three])
            refine fine ⟨three, ?_, ?_, p, pung, dan, t, ht, apart, ?_⟩
            · intro u hu
              exact Bool.eq_false_iff.2 (List.find?_eq_none.1 one _ (mem_oneOf.2 ⟨u, hu, rfl⟩))
            · intro u hu
              exact Bool.eq_false_iff.2 (List.find?_eq_none.1 dui _ (mem_oneOf.2 ⟨u, hu, rfl⟩))
            · exact agree.2 ⟨a, assigned, Multiset.le_count_iff_replicate_le.1 held⟩
      · refine iff_of_true ?_ ?_
        · apply greatest reach
          intro a assigned
          exact (bound a assigned).trans (gained_one fills (by simp) mem fun shown => absurd shown pung)
        · rintro ⟨_, _, _, q, shown, found, _⟩
          rw [dan] at found
          cases found
          exact pung shown

/-- The loops of `gou_count_tiyong_help`, when no three tiles can be made four at once. -/
theorem count_rest (bound : ∀ a, Assigned h.cache a → (h.gained a).card ≤ 2) :
    IsGreatest (h.counts false) (restCount data h) ↔ ¬ PungFirst data h := by
  rw [restCount]
  simp only [helpLoops, three, firstFound]
  cases pair : (twoOf (h.canGou 1)).find? (wins data (curcounts h.cache) 1) with
  | some trial =>
      obtain ⟨t, u, ne, own, fills⟩ := fills_of_twoOf pair
      have reach := reach_of_some tables pair own fills (by simp [three])
      obtain ⟨a, assigned, inside⟩ := reach
      have ht : t ∈ h.canGou 1 := by simpa [ne] using fills t (by simp)
      refine iff_of_true ?_ (not_pungFirst tables three ht assigned (Multiset.mem_of_le inside (by simp)))
      apply greatest_of_found tables pair own fills (by simp [three])
      intro a assigned
      exact (bound a assigned).trans (gained_two fills (by simp) (by simp) (by simp) ne)
  | none =>
      dsimp only
      cases mixed : (oneAndTwo (h.canGou 1) (h.canGou 2)).find? (wins data (curcounts h.cache) 0) with
      | some trial =>
          obtain ⟨t, ht, u, hu, rfl⟩ := mem_oneAndTwo.1 (List.mem_of_find?_eq_some mixed)
          have ne : t ≠ u := by
            rintro rfl
            exact canGou_apart (by omega) (by omega) (by omega) ht hu
          have own := bag_two t u 2
          have fills : h.Fills (t ::ₘ Multiset.replicate 2 u) := fills_two ht hu ne
          obtain ⟨a, assigned, inside⟩ := reach_of_some tables mixed own fills (by simp [three])
          refine iff_of_true ?_
            (not_pungFirst tables three ht assigned (Multiset.mem_of_le inside (by simp)))
          apply greatest_of_found tables mixed own fills (by simp [three])
          intro a assigned
          have second : u ∈ t ::ₘ Multiset.replicate 2 u :=
            Multiset.mem_cons_of_mem (Multiset.mem_replicate.2 ⟨by omega, rfl⟩)
          exact (bound a assigned).trans
            (gained_two fills (by simp) (Multiset.mem_cons_self _ _) second ne)
      | none =>
          have bound : ∀ a, Assigned h.cache a → (h.gained a).card ≤ 1 := fun a =>
            gained_le_one three
              (fun a assigned t ht u hu ne =>
                not_pair_of_none tables pair (by omega) assigned ht hu ne)
              (fun a assigned t ht u hu => not_mixed_of_none tables three mixed assigned ht hu)
          dsimp only
          cases one : (oneOf (h.canGou 1) 1).find? (wins data (curcounts h.cache) 2) with
          | some trial =>
              obtain ⟨t, ht, rfl, own, fills⟩ := fills_of_oneOf one
              refine iff_of_true ?_ ?_
              · apply greatest_of_found tables one own fills (by simp [three])
                intro a assigned
                exact (bound a assigned).trans
                  (gained_one fills (by simp) (Multiset.mem_replicate.2 ⟨by omega, rfl⟩) (by simp))
              · rintro ⟨_, none, _⟩
                have won := List.find?_some one
                rw [none t ht] at won
                cases won
          | none =>
              dsimp only
              cases dui : (oneOf (h.canGou 2) 2).find? (wins data (curcounts h.cache) 1) with
              | some trial =>
                  obtain ⟨t, ht, rfl, own, fills⟩ := fills_of_oneOf dui
                  refine iff_of_true ?_ ?_
                  · apply greatest_of_found tables dui own fills (by simp [three])
                    intro a assigned
                    exact (bound a assigned).trans
                      (gained_one fills (by simp) (Multiset.mem_replicate.2 ⟨by omega, rfl⟩) (by simp))
                  · rintro ⟨_, _, none, _⟩
                    have won := List.find?_some dui
                    rw [none t ht] at won
                    cases won
              | none =>
                  have last := count_last tables three bound one dui
                  dsimp only
                  cases dan : (oneOf (h.canGou 3) 3).find? (wins data (curcounts h.cache) 0) with
                  | some trial =>
                      rw [dan] at last
                      exact last
                  | none =>
                      rw [dan] at last
                      exact last

theorem not_three_of_none
    (none : (threeOf (h.canGou 1)).find? (wins data (curcounts h.cache) 0) = none)
    (assigned : Assigned h.cache a) : (h.gained a).card ≤ 2 := by
  have card := assigned.card
  by_contra more
  obtain ⟨t, gain, u, gain', v, gain'', tu, tv, uv⟩ := Finset.two_lt_card.1 (Nat.lt_of_not_le more)
  have sum := three_counts tu tv uv a
  have each : ∀ {z}, z ∈ h.gained a → 1 ≤ a.count z := fun gain =>
    gained_count assigned.ordinary (assigned_card assigned) gain
  have held := each gain
  have held' := each gain'
  have held'' := each gain''
  have single : ∀ {z}, z ∈ h.gained a → a.count z ≤ 1 → z ∈ h.canGou 1 := by
    intro z gain one
    rcases (assigned_gained assigned).1 gain with ⟨hz, _⟩ | ⟨_, two⟩ | ⟨_, _, third⟩
    · exact hz
    · omega
    · omega
  have ht := single gain (by omega)
  have hu := single gain' (by omega)
  have hv := single gain'' (by omega)
  obtain ⟨trial, mem, own⟩ := exists_threeOf ht hu hv tu tv uv
  refine not_le_of_none tables none mem own (fills_three ht hu hv tu tv uv) (by simp [three]) assigned ?_
  exact le_three tu tv uv (Multiset.one_le_count_iff_mem.1 held) (Multiset.one_le_count_iff_mem.1 held')
    (Multiset.one_le_count_iff_mem.1 held'')

theorem count_three :
    IsGreatest (h.counts false) (gouCountTiyong data h.mingPai h.cache) ↔
      ¬ DoubledFirst data h ∧ ¬ PungFirst data h := by
  have first : firstFound data (curcounts h.cache) (h.ownLoops ++ h.helpLoops) =
      match (threeOf (h.canGou 1)).find? (wins data (curcounts h.cache) 0) with
      | some trial => some (0, trial)
      | none => firstFound data (curcounts h.cache) h.helpLoops := by
    have own : h.ownLoops = [(0, threeOf (h.canGou 1))] := by simp only [ownLoops, three]
    rw [own]
    rfl
  rw [h.gouCountTiyong_eq tables, first]
  cases triple : (threeOf (h.canGou 1)).find? (wins data (curcounts h.cache) 0) with
  | none =>
      have clear : ¬ DoubledFirst data h := by
        rintro ⟨_, t, u, found⟩
        rw [triple] at found
        cases found
      rw [and_iff_right clear]
      exact count_rest tables three fun a => not_three_of_none tables three triple
  | some trial =>
      obtain ⟨i, j, k, ij, hj, ik, hk, rfl⟩ := mem_threeOf.1 (List.mem_of_find?_eq_some triple)
      have ht : (h.canGou 1).getD i 0 ∈ h.canGou 1 := getD_mem (by omega)
      have hu : (h.canGou 1).getD j 0 ∈ h.canGou 1 := getD_mem hj
      have hv : (h.canGou 1).getD k 0 ∈ h.canGou 1 := getD_mem hk
      have tu := getD_ne h.canGou_nodup ij hj
      have tv := getD_ne h.canGou_nodup (show i < k by omega) hk
      generalize (h.canGou 1).getD i 0 = t at *
      generalize (h.canGou 1).getD j 0 = u at *
      generalize (h.canGou 1).getD k 0 = v at *
      dsimp only
      by_cases uv : u = v
      · subst uv
        obtain ⟨a, assigned, _, low⟩ := doubled_low tables three ht hu tu (List.find?_some triple)
        refine iff_of_false ?_ ?_
        · rintro ⟨_, most⟩
          have more := most ⟨a, assigned, rfl⟩
          omega
        · rintro ⟨clear, _⟩
          exact clear ⟨three, t, u, triple⟩
      · have own := bag_three t u v
        have fills := fills_three ht hu hv tu tv uv
        obtain ⟨a, assigned, inside⟩ := reach_of_some tables triple own fills (by simp [three])
        refine iff_of_true ?_ ⟨?_, ?_⟩
        · apply greatest_of_found tables triple own fills (by simp [three])
          intro a assigned
          have most := h.card_gained_le assigned.ordinary (assigned_card assigned)
          have card := assigned_card assigned
          have least := gained_three fills tu tv uv
          omega
        · rintro ⟨_, x, y, found⟩
          rw [triple] at found
          simp only [Option.some.injEq, List.cons.injEq, Prod.mk.injEq, and_true] at found
          exact uv (found.2.1.trans found.2.2.symm)
        · exact not_pungFirst tables three ht assigned (Multiset.mem_of_le inside (by simp))

end Three

/-! ### Any number of wildcards -/

/-- Without the soft pungs the wildcards make fewer tiles four than with them. -/
def SoftCount (h : WildHand) : Prop :=
  ∃ a, Assigned h.cache a ∧ ∀ a', Assigned h.cache a' →
    quads false h.mingPai h.cache a' < quads true h.mingPai h.cache a

/-- What `gou_count_tiyong` is for: the most tiles the wildcards can make four, each trial
that fails leaving the hand as it was. -/
structure GouCounted (data : MaajanData String) (h : WildHand) : Prop where
  greatest : IsGreatest (h.counts true) (gouCountTiyong data h.mingPai h.cache)
  restores : ∀ trials counts, (tryEach data h.mingPai trials counts).1 = none →
    (tryEach data h.mingPai trials counts).2 = counts

theorem quads_soft (h : WildHand) (a : Multiset Nat) :
    quads false h.mingPai h.cache a ≤ quads true h.mingPai h.cache a := by
  apply Finset.card_le_card
  intro t
  rw [mem_heldFour, mem_heldFour]
  rintro ⟨inside, many | ⟨pung, held⟩⟩
  · exact ⟨inside, .inl many⟩
  · refine ⟨inside, .inr ⟨?_, held⟩⟩
    simp only [pungTiles, List.mem_map, List.mem_filter, decide_eq_true_eq] at pung ⊢
    obtain ⟨s, ⟨listed, kind⟩, tile⟩ := pung
    refine ⟨s, ⟨listed, ?_⟩, tile⟩
    exact kind.imp id fun soft => absurd soft.1 (by simp)

/-- A trial that wins is counted for no more than some assignment comes to. -/
theorem counted_reached (tables : Tables data) {wild : Nat} {trials : List Trial}
    (mem : (wild, trials) ∈ h.ownLoops ++ h.helpLoops)
    (found : trials.find? (wins data (curcounts h.cache) wild) = some trial) :
    ∃ a, Assigned h.cache a ∧ counted h.mingPai (curcounts h.cache) wild trial ≤
      quads false h.mingPai h.cache a := by
  have some_wild := h.wild
  have few := h.few
  have of_fills : ∀ {b : Multiset Nat}, bag trial = b → h.Fills b → wild + b.card = wildcards h.cache →
      ∃ a, Assigned h.cache a ∧ counted h.mingPai (curcounts h.cache) wild trial ≤
        quads false h.mingPai h.cache a := by
    intro b own fills size
    obtain ⟨a, assigned, inside⟩ := reach_of_some tables found own fills size
    refine ⟨a, assigned, ?_⟩
    rw [fills.counted_eq (by omega) own (by omega)]
    exact quads_mono inside
  rcases List.mem_append.1 mem with mem | mem
  · obtain one | two | three : wildcards h.cache = 1 ∨ wildcards h.cache = 2 ∨ wildcards h.cache = 3 := by
      omega
    · simp only [ownLoops, one, List.mem_singleton, Prod.mk.injEq] at mem
      obtain ⟨rfl, rfl⟩ := mem
      obtain ⟨t, _, _, own, fills⟩ := fills_of_oneOf found
      exact of_fills own fills (by simp [one])
    · simp only [ownLoops, two, List.mem_singleton, Prod.mk.injEq] at mem
      obtain ⟨rfl, rfl⟩ := mem
      obtain ⟨t, u, _, own, fills⟩ := fills_of_twoOf found
      exact of_fills own fills (by simp [two])
    · simp only [ownLoops, three, List.mem_singleton, Prod.mk.injEq] at mem
      obtain ⟨rfl, rfl⟩ := mem
      obtain ⟨i, j, k, ij, hj, ik, hk, rfl⟩ := mem_threeOf.1 (List.mem_of_find?_eq_some found)
      have ht := getD_mem (show i < (h.canGou 1).length by omega)
      have tu := getD_ne h.canGou_nodup ij hj
      have tv := getD_ne h.canGou_nodup (show i < k by omega) hk
      by_cases uv : (h.canGou 1).getD j 0 = (h.canGou 1).getD k 0
      · rw [← uv] at found ⊢
        obtain ⟨a, assigned, _, low⟩ :=
          doubled_low tables three ht (getD_mem hj) tu (List.find?_some found)
        exact ⟨a, assigned, Nat.le_of_lt low⟩
      · exact of_fills (bag_three _ _ _) (fills_three ht (getD_mem hj) (getD_mem hk) tu tv uv)
          (by simp [three])
  · obtain ⟨fills, size, _⟩ := h.helpLoops_fills mem (List.mem_of_find?_eq_some found)
    exact of_fills rfl fills size

theorem count_reached (tables : Tables data) : ∃ a, Assigned h.cache a ∧
    gouCountTiyong data h.mingPai h.cache ≤ quads false h.mingPai h.cache a := by
  rw [h.gouCountTiyong_eq tables]
  cases found : firstFound data (curcounts h.cache) (h.ownLoops ++ h.helpLoops) with
  | some first =>
      obtain ⟨wild, trial⟩ := first
      obtain ⟨trials, mem, here⟩ := firstFound_mem found
      exact counted_reached tables mem here
  | none =>
      obtain ⟨a, assigned⟩ := h.winning
      exact ⟨a, assigned, quads_mono (Multiset.zero_le a)⟩

theorem hard_greatest_iff (tables : Tables data) :
    IsGreatest (h.counts false) (gouCountTiyong data h.mingPai h.cache) ↔
      ¬ DoubledFirst data h ∧ ¬ PungFirst data h := by
  have some_wild := h.wild
  have few := h.few
  by_cases three : wildcards h.cache = 3
  · exact count_three tables three
  · refine iff_of_true ?_ ⟨fun doubled => three doubled.1, fun pung => three pung.1⟩
    obtain one | two : wildcards h.cache = 1 ∨ wildcards h.cache = 2 := by omega
    · exact count_one tables one
    · exact count_two tables two

theorem counted_iff (tables : Tables data) (h : WildHand) :
    GouCounted data h ↔
      ¬ SoftCount h ∧ IsGreatest (h.counts false) (gouCountTiyong data h.mingPai h.cache) := by
  obtain ⟨a₁, assigned₁, reached⟩ := count_reached tables (h := h)
  constructor
  · rintro ⟨⟨⟨a₀, assigned₀, same⟩, most⟩, _⟩
    have upper : ∀ a, Assigned h.cache a →
        quads true h.mingPai h.cache a ≤ gouCountTiyong data h.mingPai h.cache :=
      fun a assigned => most ⟨a, assigned, rfl⟩
    have soft := quads_soft h
    refine ⟨?_, ⟨a₁, assigned₁, ?_⟩, ?_⟩
    · rintro ⟨a, assigned, more⟩
      have := more a₁ assigned₁
      have := upper a assigned
      omega
    · have := upper a₁ assigned₁
      have := soft a₁
      omega
    · rintro _ ⟨a, assigned, rfl⟩
      exact (soft a).trans (upper a assigned)
  · rintro ⟨clear, ⟨⟨a₀, assigned₀, same⟩, most⟩⟩
    have upper : ∀ a, Assigned h.cache a →
        quads true h.mingPai h.cache a ≤ gouCountTiyong data h.mingPai h.cache := by
      intro a assigned
      by_contra more
      refine clear ⟨a, assigned, fun a' assigned' => ?_⟩
      have := most ⟨a', assigned', rfl⟩
      omega
    refine ⟨⟨⟨a₀, assigned₀, ?_⟩, ?_⟩, fun _ _ => tryEach_restores⟩
    · have := upper a₀ assigned₀
      have := quads_soft h a₀
      omega
    · rintro _ ⟨a, assigned, rfl⟩
      exact upper a assigned

/-- `gou_count_tiyong` counts the most tiles the wildcards can make four, except where soft
pungs would count, where a tile taken twice is the first of three to win, and where the
fourth tile of a pung is taken before a tile that could be made four. -/
theorem gou_count_tiyong_iff (tables : Tables data) (h : WildHand) :
    GouCounted data h ↔ ¬ SoftCount h ∧ ¬ DoubledFirst data h ∧ ¬ PungFirst data h := by
  rw [counted_iff tables h, hard_greatest_iff tables]

end WildHand

/-! ### A pung before another tile -/

/-- How many of each tile a sum of blocks has, by the runs that start there and the triplets. -/
theorem count_melds {s : Multiset Nat} (melds : hands.Melds s) :
    ∃ runs triplets : Nat → Nat, runs 0 = 0 ∧ s.count 1 = runs 1 + 3 * triplets 1 ∧
      ∀ x, s.count (x + 2) = runs (x + 2) + runs (x + 1) + runs x + 3 * triplets (x + 2) := by
  refine melds.induct (p := fun s => ∃ runs triplets : Nat → Nat, runs 0 = 0 ∧
    s.count 1 = runs 1 + 3 * triplets 1 ∧
      ∀ x, s.count (x + 2) = runs (x + 2) + runs (x + 1) + runs x + 3 * triplets (x + 2)) ?_ ?_
  · exact ⟨fun _ => 0, fun _ => 0, rfl, rfl, fun _ => rfl⟩
  · rintro b s block _ ⟨runs, triplets, none, one, more⟩
    rcases block with ⟨t, rfl⟩ | ⟨t, start, rfl⟩
    · refine ⟨runs, fun x => triplets x + if x = t then 1 else 0, none, ?_, fun x => ?_⟩
      · rw [Multiset.count_add, Multiset.count_replicate, one]
        grind
      · rw [Multiset.count_add, Multiset.count_replicate, more]
        grind
    · refine ⟨fun x => runs x + if x = t then 1 else 0, triplets, ?_, ?_, fun x => ?_⟩
      · simp only [none, if_neg (show ¬ 0 = t by omega)]
      · rw [Multiset.count_add, one]
        simp only [Multiset.insert_eq_cons, Multiset.count_cons, Multiset.count_singleton]
        grind
      · rw [Multiset.count_add, more]
        simp only [Multiset.insert_eq_cons, Multiset.count_cons, Multiset.count_singleton]
        grind

/-- One to eight, and three wildcards. -/
def eightTiles : Counts := fun t => ([1, 2, 3, 4, 5, 6, 7, 8, 37, 37, 37].count t : Nat)

theorem eightTiles_le (t : Nat) : 0 ≤ eightTiles t ∧ eightTiles t ≤ 3 := by
  have held : ∀ t ∈ [1, 2, 3, 4, 5, 6, 7, 8, 37, 37, 37], eightTiles t ≤ 3 := by decide
  by_cases mem : t ∈ [1, 2, 3, 4, 5, 6, 7, 8, 37, 37, 37]
  · exact ⟨Int.natCast_nonneg _, held t mem⟩
  · rw [eightTiles, List.count_eq_zero_of_not_mem mem]
    decide

theorem eightTiles_hand : Hand eightTiles where
  tiles t held := by
    have mem : t ∈ [1, 2, 3, 4, 5, 6, 7, 8, 37, 37, 37] :=
      List.count_pos_iff.1 (Nat.pos_of_ne_zero (Int.natCast_ne_zero.1 held))
    have kinds : ∀ t ∈ [1, 2, 3, 4, 5, 6, 7, 8, 37, 37, 37],
        (1 ≤ t % 10 ∧ t < 30) ∨ t = tyValue := by decide
    exact kinds t mem
  few t := by
    have le := eightTiles_le t
    omega
  total := by decide

theorem ordinaryTiles_eightTiles : ordinaryTiles eightTiles = {1, 2, 3, 4, 5, 6, 7, 8} := by
  decide

theorem sixes_win : hands.Paired ({1, 2, 3, 4, 5, 6, 7, 8} + Multiset.replicate 3 6) := by
  refine ⟨Multiset.replicate 2 6, {1, 1 + 1, 1 + 2} + ({4, 4 + 1, 4 + 2} + ({6, 6 + 1, 6 + 2} + 0)),
    ⟨6, rfl⟩, ?_, by decide⟩
  exact .block (.inr ⟨1, by decide, rfl⟩)
    (.block (.inr ⟨4, by decide, rfl⟩) (.block (.inr ⟨6, by decide, rfl⟩) .nil))

theorem threes_win : hands.Paired ({1, 2, 3, 4, 5, 6, 7, 8} + Multiset.replicate 3 3) := by
  refine ⟨Multiset.replicate 2 3, {1, 1 + 1, 1 + 2} + ({3, 3 + 1, 3 + 2} + ({6, 6 + 1, 6 + 2} + 0)),
    ⟨3, rfl⟩, ?_, by decide⟩
  exact .block (.inr ⟨1, by decide, rfl⟩)
    (.block (.inr ⟨3, by decide, rfl⟩) (.block (.inr ⟨6, by decide, rfl⟩) .nil))

/-- Three of one of the tiles make four of it. -/
theorem known_eightTiles (t : Nat) (i : Fin 3) :
    Known (hands.part i (ordinaryTiles eightTiles + Multiset.replicate 3 t)) := by
  refine .inl fun u => (Multiset.count_le_of_le u (Multiset.filter_le _ _)).trans ?_
  have single : (ordinaryTiles eightTiles).count u ≤ 1 := by
    rw [ordinaryTiles_eightTiles]
    exact Multiset.nodup_iff_count_le_one.1 (by decide) u
  rw [Multiset.count_add, Multiset.count_replicate]
  split <;> omega

/-- With four ones or four twos no win is left. -/
theorem low_lose {t : Nat} (low : t = 1 ∨ t = 2) :
    ¬ hands.Paired ({1, 2, 3, 4, 5, 6, 7, 8} + Multiset.replicate 3 t) := by
  rintro ⟨_, rest, ⟨pair, rfl⟩, melds, split⟩
  obtain ⟨runs, triplets, none, one, more⟩ := count_melds melds
  have counts : ∀ x, ({1, 2, 3, 4, 5, 6, 7, 8} : Multiset Nat).count x +
      (Multiset.replicate 3 t).count x = (Multiset.replicate 2 pair).count x + rest.count x := by
    intro x
    rw [← Multiset.count_add, ← Multiset.count_add, split]
  -- only the tile that is there four times can be the pair
  have same : pair = t := by
    by_contra other
    have alone : ({1, 2, 3, 4, 5, 6, 7, 8} : Multiset Nat).Nodup := by decide
    have single := Multiset.nodup_iff_count_le_one.1 alone pair
    have twice := counts pair
    rw [Multiset.count_replicate_self, Multiset.count_replicate, if_neg (Ne.symm other)] at twice
    omega
  subst same
  simp only [Multiset.count_replicate, Multiset.insert_eq_cons, Multiset.count_cons,
    Multiset.count_singleton] at counts
  have ones := counts 1
  have twos := counts 2
  have threes := counts 3
  have two : rest.count 2 = runs 2 + runs 1 + runs 0 + 3 * triplets 2 := more 0
  have three : rest.count 3 = runs 3 + runs 2 + runs 1 + 3 * triplets 3 := more 1
  rcases low with rfl | rfl
  · simp at ones twos threes
    omega
  · simp at ones twos threes
    omega

/-- A pung of threes is shown; the sixes that could stand for the wildcards come later in
the hand. -/
def pungHand : WildHand where
  cache := eightTiles
  mingPai := [⟨.peng, 3⟩]
  hand := eightTiles_hand
  size := by decide
  wild := by decide
  few := by decide
  pungs tile := by
    have shown : pungTiles false [⟨.peng, 3⟩] = [3] := rfl
    have le := eightTiles_le tile
    rw [shown]
    by_cases three : tile = 3
    · subst three
      decide
    · rw [List.count_singleton, if_neg (by simpa using Ne.symm three)]
      omega
  shown := by simp [pungTiles, Ordinary]
  winning := by
    refine ⟨Multiset.replicate 3 6, rfl, by simp [Ordinary], ?_, known_eightTiles 6⟩
    rw [ordinaryTiles_eightTiles]
    exact sixes_win

theorem canGou_pungHand : pungHand.canGou 1 = [] ∧ pungHand.canGou 2 = [] ∧
    pungHand.canGou 3 = [1, 2, 3, 4, 5, 6, 7, 8] := by
  decide

theorem pungHand_wins {t : Nat} (ht : t ∈ pungHand.canGou 3) :
    wins knownData (curcounts pungHand.cache) 0 [(t, 3)] = true ↔
      hands.Paired ({1, 2, 3, 4, 5, 6, 7, 8} + Multiset.replicate 3 t) := by
  have fills : pungHand.Fills (Multiset.replicate 3 t) := WildHand.fills_one ht
  have three : wildcards pungHand.cache = 3 := by decide
  have judged : wins knownData (curcounts pungHand.cache) 0 [(t, 3)] = true ↔ _ :=
    fills.wins_iff (by simp) knownData_tables (bag_one t 3) (by simp [three])
  rw [judged, ← ordinaryTiles_eightTiles]
  constructor
  · rintro ⟨a, assigned, inside⟩
    have same : Multiset.replicate 3 t = a :=
      Multiset.eq_of_le_of_card_le inside (by rw [assigned.card, three, Multiset.card_replicate])
    exact same ▸ assigned.wins
  · intro paired
    refine ⟨_, ⟨?_, fun z mem => ?_, paired, known_eightTiles t⟩, le_refl _⟩
    · rw [three, Multiset.card_replicate]
    · exact (fills.need (by simp) mem).1

theorem pungHand_first : WildHand.PungFirst knownData pungHand := by
  obtain ⟨one, two, three⟩ := canGou_pungHand
  refine ⟨by decide, by simp [one], by simp [two], 3, by decide, ?_, 6, ?_, by decide, ?_⟩
  · have loses : ∀ t, t = 1 ∨ t = 2 → wins knownData (curcounts pungHand.cache) 0 [(t, 3)] = false := by
      intro t low
      apply Bool.eq_false_iff.2
      intro won
      refine low_lose low ((pungHand_wins ?_).1 won)
      rw [three]
      rcases low with rfl | rfl <;> decide
    have won := (pungHand_wins (by rw [three]; decide)).2 threes_win
    simp [oneOf, three, loses, won]
  · rw [three]
    decide
  · exact (pungHand_wins (by rw [three]; decide)).2 sixes_win

/-- The fourth tile of the pung is counted, and the sixes with it are not. -/
theorem pung_counted_first : ¬ WildHand.GouCounted knownData pungHand := by
  rw [WildHand.counted_iff knownData_tables, WildHand.hard_greatest_iff knownData_tables]
  exact fun fine => fine.2.2 pungHand_first

theorem pungHand_judged : WildHand.GouCounted knownData pungHand ↔
    ¬ WildHand.SoftCount pungHand ∧ ¬ WildHand.DoubledFirst knownData pungHand ∧
      ¬ WildHand.PungFirst knownData pungHand :=
  WildHand.gou_count_tiyong_iff knownData_tables pungHand

end FkServer.MaajanZigong.Rule
