import FkServer.MaajanZigong.GouTrials

/-!
What the loops of `gou_count_tiyong` try: each trial but a doubled one makes four of every
tile it puts in, it wins exactly if these tiles can be part of what the wildcards stand for,
and it is counted for what it is. The result is the count of the first trial that wins.
-/
namespace FkServer.MaajanZigong.Rule

open WildcardCover WildcardCover.Deck

variable {data : MaajanData String} {h : WildHand} {a b : Multiset Nat} {t u v : Nat}
  {trial : Trial} {list pairs : List Nat} {n : Nat}

/-! ### The trials of each loop -/

theorem bag_one (t n : Nat) : bag [(t, n)] = Multiset.replicate n t := by
  simp [bag]

theorem bag_two (t u n : Nat) : bag [(t, 1), (u, n)] = t ::ₘ Multiset.replicate n u := by
  simp [bag]

theorem bag_three (t u v : Nat) : bag [(t, 1), (u, 1), (v, 1)] = {t, u, v} := by
  simp only [bag, List.map_cons, List.map_nil, List.sum_cons, List.sum_nil, Multiset.replicate_one,
    add_zero]
  rfl

theorem mem_oneOf : trial ∈ oneOf list n ↔ ∃ t ∈ list, trial = [(t, n)] := by
  simp [oneOf, eq_comm]

theorem mem_oneAndTwo : trial ∈ oneAndTwo list pairs ↔
    ∃ t ∈ list, ∃ u ∈ pairs, trial = [(t, 1), (u, 2)] := by
  simp [oneAndTwo, eq_comm]

theorem mem_twoOf : trial ∈ twoOf list ↔
    ∃ i j, i < j ∧ j < list.length ∧ trial = [(list.getD i 0, 1), (list.getD j 0, 1)] := by
  simp only [twoOf, List.mem_flatMap, List.mem_range, List.mem_map, List.mem_range'_1]
  constructor
  · rintro ⟨i, first, j, second, rfl⟩
    exact ⟨i, j, by omega, by omega, rfl⟩
  · rintro ⟨i, j, less, last, rfl⟩
    exact ⟨i, by omega, j, by omega, rfl⟩

theorem mem_threeOf : trial ∈ threeOf list ↔
    ∃ i j k, i < j ∧ j < list.length ∧ i + 2 ≤ k ∧ k < list.length ∧
      trial = [(list.getD i 0, 1), (list.getD j 0, 1), (list.getD k 0, 1)] := by
  simp only [threeOf, List.mem_flatMap, List.mem_range, List.mem_map, List.mem_range'_1]
  constructor
  · rintro ⟨i, first, j, second, k, third, rfl⟩
    exact ⟨i, j, k, by omega, by omega, by omega, by omega, rfl⟩
  · rintro ⟨i, j, k, less, last, above, last', rfl⟩
    exact ⟨i, by omega, j, by omega, k, by omega, rfl⟩

theorem getD_eq {i : Nat} (last : i < list.length) : list.getD i 0 = list[i] := by
  simp [last]

theorem getD_ne (nodup : list.Nodup) {i j : Nat} (less : i < j) (last : j < list.length) :
    list.getD i 0 ≠ list.getD j 0 := by
  intro same
  rw [getD_eq (Nat.lt_trans less last), getD_eq last, nodup.getElem_inj_iff] at same
  omega

theorem getD_mem {i : Nat} (last : i < list.length) : list.getD i 0 ∈ list := by
  rw [getD_eq last]
  exact List.getElem_mem last

theorem exists_getD (mem : t ∈ list) : ∃ i < list.length, list.getD i 0 = t := by
  obtain ⟨i, last, rfl⟩ := List.getElem_of_mem mem
  exact ⟨i, last, getD_eq last⟩

theorem exists_twoOf (ht : t ∈ list) (hu : u ∈ list) (ne : t ≠ u) :
    ∃ trial ∈ twoOf list, bag trial = {t, u} := by
  obtain ⟨i, hi, rfl⟩ := exists_getD ht
  obtain ⟨j, hj, rfl⟩ := exists_getD hu
  rcases Nat.lt_trichotomy i j with less | rfl | more
  · exact ⟨_, mem_twoOf.2 ⟨i, j, less, hj, rfl⟩, bag_two _ _ 1⟩
  · exact absurd rfl ne
  · refine ⟨_, mem_twoOf.2 ⟨j, i, more, hi, rfl⟩, ?_⟩
    rw [bag_two]
    exact Multiset.pair_comm _ _

theorem exists_threeOf (ht : t ∈ list) (hu : u ∈ list) (hv : v ∈ list) (tu : t ≠ u) (tv : t ≠ v)
    (uv : u ≠ v) : ∃ trial ∈ threeOf list, bag trial = {t, u, v} := by
  have listed : ∀ {i j k : Nat}, i < j → j < k → k < list.length →
      ∃ trial ∈ threeOf list, bag trial = {list.getD i 0, list.getD j 0, list.getD k 0} :=
    fun less more last => ⟨_, mem_threeOf.2 ⟨_, _, _, less, by omega, by omega, last, rfl⟩, bag_three _ _ _⟩
  have swap : ∀ x y z : Nat, ({x, y, z} : Multiset Nat) = {y, x, z} := fun x y z =>
    Multiset.cons_swap x y {z}
  have turn : ∀ x y z : Nat, ({x, y, z} : Multiset Nat) = {x, z, y} := fun x y z =>
    congrArg (x ::ₘ ·) (Multiset.pair_comm y z)
  obtain ⟨i, hi, rfl⟩ := exists_getD ht
  obtain ⟨j, hj, rfl⟩ := exists_getD hu
  obtain ⟨k, hk, rfl⟩ := exists_getD hv
  have ij : i ≠ j := fun same => tu (by rw [same])
  have ik : i ≠ k := fun same => tv (by rw [same])
  have jk : j ≠ k := fun same => uv (by rw [same])
  rcases Nat.lt_or_gt_of_ne ij with a | a <;> rcases Nat.lt_or_gt_of_ne jk with b | b <;>
    rcases Nat.lt_or_gt_of_ne ik with c | c
  · exact listed a b hk
  · omega
  · rw [turn]
    exact listed c b hj
  · rw [turn, swap]
    exact listed c a hj
  · rw [swap]
    exact listed a c hk
  · rw [swap, turn]
    exact listed b c hi
  · omega
  · rw [swap, turn, swap]
    exact listed b a hi

/-! ### Tiles made four -/

namespace WildHand

/-- The tiles that `n` wildcards make four, as the code lists them. -/
def canGou (h : WildHand) (n : Nat) : List Nat := getTyCanGouList h.mingPai (curcounts h.cache) n

/-- The tiles that are held four times with the tiles `b` and not without. -/
def gained (h : WildHand) (b : Multiset Nat) : Finset Nat :=
  heldFour (pungTiles false h.mingPai) (filled (curcounts h.cache) b) \
    heldFour (pungTiles false h.mingPai) (curcounts h.cache)

/-- Every tile of `b` is put in as often as it takes to make four of it. -/
def Fills (h : WildHand) (b : Multiset Nat) : Prop := ∀ t ∈ b, t ∈ h.canGou (b.count t)

theorem shown_ordinary (pung : t ∈ pungTiles false h.mingPai) : Ordinary t := by
  apply h.shown
  simp only [pungTiles, List.mem_map, List.mem_filter] at pung ⊢
  obtain ⟨s, ⟨listed, kind⟩, tile⟩ := pung
  refine ⟨s, ⟨listed, ?_⟩, tile⟩
  simp at kind
  simp [kind]

theorem pung_inside : ∀ t ∈ pungTiles false h.mingPai, 1 ≤ t ∧ t ≤ 37 := by
  intro t pung
  have kind := h.shown_ordinary pung
  unfold Ordinary at kind
  omega

theorem curcounts_ordinary (own : Ordinary t) : curcounts h.cache t = h.cache t :=
  if_neg (ordinary_ne own)

theorem mem_canGou (pos : 1 ≤ n) (most : n ≤ 3) : t ∈ h.canGou n ↔
    Ordinary t ∧ (h.cache t = 4 - n ∨ (n = 1 ∧ t ∈ pungTiles false h.mingPai ∧ h.cache t = 0)) := by
  have listed : t ∈ h.canGou n ↔ ((1 ≤ t ∧ t ≤ 37) ∧ curcounts h.cache t = 4 - n) ∨
      (n = 1 ∧ t ∈ pungTiles false h.mingPai ∧ curcounts h.cache t = 0) := by
    have shown : (∃ s ∈ h.mingPai, (isPeng s ∧ curcounts h.cache s.tile = 0) ∧ s.tile = t) ↔
        t ∈ pungTiles false h.mingPai ∧ curcounts h.cache t = 0 := by
      rw [pungTiles_hard, List.mem_map]
      constructor
      · rintro ⟨s, mem, ⟨peng, none⟩, rfl⟩
        exact ⟨⟨s, List.mem_filter.2 ⟨mem, peng⟩, rfl⟩, none⟩
      · rintro ⟨⟨s, mem, rfl⟩, none⟩
        obtain ⟨mem, peng⟩ := List.mem_filter.1 mem
        exact ⟨s, mem, ⟨peng, none⟩, rfl⟩
    rw [canGou, getTyCanGouList, List.mem_append, List.mem_filter, List.mem_range'_1, decide_eq_true_eq]
    refine or_congr ?_ ?_
    · refine and_congr_left fun _ => ?_
      omega
    · split
      · rename_i one
        rw [List.mem_map, ← shown]
        simp [one, and_assoc]
      · rename_i one
        simp [one]
  rw [listed]
  constructor
  · rintro (⟨inside, held⟩ | ⟨one, pung, none⟩)
    · have other : t ≠ tyValue := by
        rintro rfl
        rw [curcounts, if_pos rfl] at held
        omega
      rw [curcounts, if_neg other] at held
      exact ⟨(h.hand.tiles t (by omega)).resolve_right other, .inl held⟩
    · have own := h.shown_ordinary pung
      rw [h.curcounts_ordinary own] at none
      exact ⟨own, .inr ⟨one, pung, none⟩⟩
  · rintro ⟨own, held⟩
    rw [h.curcounts_ordinary own]
    have kind := own
    unfold Ordinary at kind
    rcases held with held | pung
    · exact .inl ⟨by omega, held⟩
    · exact .inr pung

theorem mem_gained (own : ∀ t ∈ b, Ordinary t) (few : b.card ≤ 3) : t ∈ h.gained b ↔
    (t ∈ h.canGou 1 ∧ 1 ≤ b.count t) ∨ (t ∈ h.canGou 2 ∧ 2 ≤ b.count t) ∨
      (t ∈ h.canGou 3 ∧ t ∉ pungTiles false h.mingPai ∧ 3 ≤ b.count t) := by
  have most := (b.count_le_card t).trans few
  have copies := h.hand.few t
  rw [gained, Finset.mem_sdiff, mem_heldFour, mem_heldFour, h.mem_canGou (by omega) (by omega),
    h.mem_canGou (by omega) (by omega), h.mem_canGou (by omega) (by omega), filled]
  by_cases ordinary : Ordinary t
  · have kind := ordinary
    unfold Ordinary at kind
    have inside : 1 ≤ t ∧ t ≤ 37 := by omega
    rw [h.curcounts_ordinary ordinary]
    simp only [ordinary, inside, and_self, true_and]
    by_cases pung : t ∈ pungTiles false h.mingPai
    · have alone := h.peng_le t pung
      simp only [pung, true_and, not_true_eq_false, false_and, and_false, or_false]
      omega
    · simp only [pung, false_and, or_false, and_false, not_false_eq_true, true_and]
      omega
  · have none : b.count t = 0 := Multiset.count_eq_zero_of_notMem fun mem => ordinary (own t mem)
    simp only [ordinary, none, false_and, or_false, iff_false]
    rintro ⟨held, fresh⟩
    exact fresh (by simpa using held)

theorem quads_eq (h : WildHand) (b : Multiset Nat) : quads false h.mingPai h.cache b =
    (heldFour (pungTiles false h.mingPai) (curcounts h.cache)).card + (h.gained b).card := by
  have more : heldFour (pungTiles false h.mingPai) (curcounts h.cache) ⊆
      heldFour (pungTiles false h.mingPai) (filled (curcounts h.cache) b) := by
    apply heldFour_mono
    intro t
    rw [filled]
    omega
  rw [quads, gained, Finset.card_sdiff_of_subset more]
  have few := Finset.card_le_card more
  omega

theorem quads_mono (inside : b ≤ a) :
    quads false h.mingPai h.cache b ≤ quads false h.mingPai h.cache a := by
  apply Finset.card_le_card
  apply heldFour_mono
  intro t
  have count := Multiset.le_iff_count.1 inside t
  rw [filled, filled]
  omega

theorem gained_count (own : ∀ t ∈ b, Ordinary t) (few : b.card ≤ 3) (mem : t ∈ h.gained b) :
    1 ≤ b.count t := by
  rw [mem_gained own few] at mem
  omega

theorem card_gained_le (h : WildHand) (own : ∀ t ∈ b, Ordinary t) (few : b.card ≤ 3) :
    (h.gained b).card ≤ b.card := by
  rw [Finset.card_eq_sum_ones]
  exact (Finset.sum_le_sum fun t mem => gained_count own few mem).trans (sum_count_le _ _)

/-! ### What the trials put in -/

theorem fills_one (ht : t ∈ h.canGou n) : h.Fills (Multiset.replicate n t) := by
  intro z mem
  obtain rfl := Multiset.eq_of_mem_replicate mem
  rwa [Multiset.count_replicate_self]

theorem canGou_nodup (h : WildHand) : (h.canGou 1).Nodup := by
  have hard : ((h.mingPai.filter fun s => isPeng s ∧ curcounts h.cache s.tile = 0).map (·.tile)).Nodup := by
    have nodup := h.pungs_nodup
    rw [pungTiles_hard] at nodup
    refine nodup.sublist (List.Sublist.map _ ?_)
    have twice : (h.mingPai.filter fun s => isPeng s ∧ curcounts h.cache s.tile = 0) =
        (h.mingPai.filter isPeng).filter fun s => curcounts h.cache s.tile = 0 := by
      rw [List.filter_filter]
      apply List.filter_congr
      intro s _
      simp [and_comm]
    rw [twice]
    exact List.filter_sublist
  rw [canGou, getTyCanGouList, if_pos rfl, List.nodup_append']
  refine ⟨(List.nodup_range' 1).filter _, hard, ?_⟩
  intro t concealed shown
  have three := (List.mem_filter.1 concealed).2
  obtain ⟨s, mem, rfl⟩ := List.mem_map.1 shown
  have none := (List.mem_filter.1 mem).2
  simp only [decide_eq_true_eq] at three none
  omega

theorem canGou_apart {m : Nat} (pos : 1 ≤ m) (less : m < n) (most : n ≤ 3) (ht : t ∈ h.canGou m) :
    t ∉ h.canGou n := by
  rw [mem_canGou pos (by omega)] at ht
  rw [mem_canGou (by omega) most]
  rintro ⟨_, hu⟩
  omega

theorem fills_two (ht : t ∈ h.canGou 1) (hu : u ∈ h.canGou n) (ne : t ≠ u) :
    h.Fills (t ::ₘ Multiset.replicate n u) := by
  intro z mem
  rcases Multiset.mem_cons.1 mem with rfl | mem
  · rw [Multiset.count_cons_self, Multiset.count_replicate, if_neg ne.symm]
    exact ht
  · obtain rfl := Multiset.eq_of_mem_replicate mem
    rwa [Multiset.count_cons_of_ne ne.symm, Multiset.count_replicate_self]

theorem fills_three (ht : t ∈ h.canGou 1) (hu : u ∈ h.canGou 1) (hv : v ∈ h.canGou 1) (tu : t ≠ u)
    (tv : t ≠ v) (uv : u ≠ v) : h.Fills {t, u, v} := by
  intro z mem
  have nodup : ({t, u, v} : Multiset Nat).Nodup := by
    simp [tu, tv, uv]
  rw [Multiset.count_eq_one_of_mem nodup mem]
  simp only [Multiset.insert_eq_cons, Multiset.mem_cons, Multiset.mem_singleton] at mem
  rcases mem with rfl | rfl | rfl
  · exact ht
  · exact hu
  · exact hv

variable (fills : h.Fills b) (few : b.card ≤ 3)
include fills few

theorem Fills.need {t : Nat} (mem : t ∈ b) : Ordinary t ∧ (h.cache t = 4 - b.count t ∨
    (b.count t = 1 ∧ t ∈ pungTiles false h.mingPai ∧ h.cache t = 0)) := by
  have most := (b.count_le_card t).trans few
  exact (mem_canGou (Multiset.one_le_count_iff_mem.2 mem) most).1 (fills t mem)

theorem Fills.four (t : Nat) : h.cache t + b.count t ≤ 4 ∨ t = tyValue := by
  by_cases mem : t ∈ b
  · have need := (fills.need few mem).2
    omega
  · have copies := h.hand.few t
    rw [Multiset.count_eq_zero_of_notMem mem]
    omega

/-- Such a trial wins exactly if its tiles can be part of what the wildcards stand for. -/
theorem Fills.wins_iff {wild : Nat} (tables : Tables data) (own : bag trial = b)
    (size : wild + b.card = wildcards h.cache) :
    wins data (curcounts h.cache) wild trial = true ↔ ∃ a, Assigned h.cache a ∧ b ≤ a := by
  subst own
  exact Rule.wins_iff tables h.hand h.size h.few size (fun t mem => (fills.need few mem).1) (fills.four few)

/-- Such a trial is counted for what it is. -/
theorem Fills.counted_eq {wild : Nat} (own : bag trial = b) (left : wild ≤ 3) :
    counted h.mingPai (curcounts h.cache) wild trial = quads false h.mingPai h.cache b := by
  subst own
  have ordinary : ∀ t ∈ bag trial, Ordinary t := fun t mem => (fills.need few mem).1
  have apart : ∀ t ∈ pungTiles false h.mingPai,
      filled (incr (curcounts h.cache) tyValue wild) (bag trial) t ≤ 1 ∨
        4 ≤ filled (incr (curcounts h.cache) tyValue wild) (bag trial) t := by
    intro t pung
    rw [tried_apply ordinary, if_neg (ordinary_ne (h.shown_ordinary pung))]
    have alone := h.peng_le t pung
    by_cases mem : t ∈ bag trial
    · have need := (fills.need few mem).2
      omega
    · rw [Multiset.count_eq_zero_of_notMem mem]
      omega
  have same : heldFour (pungTiles false h.mingPai) (filled (incr (curcounts h.cache) tyValue wild) (bag trial)) =
      heldFour (pungTiles false h.mingPai) (filled (curcounts h.cache) (bag trial)) := by
    ext t
    rw [mem_heldFour, mem_heldFour, tried_apply ordinary, filled, curcounts]
    by_cases wildcard : t = tyValue
    · have none : (bag trial).count t = 0 :=
        Multiset.count_eq_zero_of_notMem fun mem => ordinary_ne (ordinary t mem) wildcard
      have hidden : t ∉ pungTiles false h.mingPai := fun pung =>
        ordinary_ne (h.shown_ordinary pung) wildcard
      rw [if_pos wildcard, if_pos wildcard, none]
      simp only [hidden, false_and, or_false]
      omega
    · rw [if_neg wildcard, if_neg wildcard]
  rw [counted, gouCountWutiyong_eq h.pungs_nodup pung_inside apart, same]
  rfl

theorem Fills.quads_pos (mem : t ∈ b) : 0 < quads false h.mingPai h.cache b := by
  apply Finset.card_pos.2
  refine ⟨t, ?_⟩
  obtain ⟨own, held⟩ := fills.need few mem
  have kind := own
  unfold Ordinary at kind
  rw [mem_heldFour, filled, h.curcounts_ordinary own]
  refine ⟨by omega, ?_⟩
  rcases held with held | ⟨one, pung, none⟩
  · exact .inl (by omega)
  · exact .inr ⟨pung, by omega⟩

omit fills few

/-! ### Tiles of one assignment -/

theorem two_counts (ne : t ≠ u) (a : Multiset Nat) : a.count t + a.count u ≤ a.card := by
  have sum := sum_count_le {t, u} a
  rwa [Finset.sum_pair ne] at sum

theorem three_counts (tu : t ≠ u) (tv : t ≠ v) (uv : u ≠ v) (a : Multiset Nat) :
    a.count t + a.count u + a.count v ≤ a.card := by
  have sum := sum_count_le {t, u, v} a
  rwa [Finset.sum_insert (by simp [tu, tv]), Finset.sum_pair uv, ← add_assoc] at sum

theorem le_two (ne : t ≠ u) (ht : 1 ≤ a.count t) (hu : n ≤ a.count u) :
    t ::ₘ Multiset.replicate n u ≤ a := by
  rw [Multiset.le_iff_count]
  intro z
  rw [Multiset.count_cons, Multiset.count_replicate]
  by_cases first : z = t
  · subst first
    rw [if_pos rfl, if_neg ne.symm]
    omega
  · rw [if_neg first]
    split
    · rename_i second
      subst second
      omega
    · omega

theorem le_three (tu : t ≠ u) (tv : t ≠ v) (uv : u ≠ v) (ht : t ∈ a) (hu : u ∈ a) (hv : v ∈ a) :
    ({t, u, v} : Multiset Nat) ≤ a := by
  have nodup : ({t, u, v} : Multiset Nat).Nodup := by simp [tu, tv, uv]
  rw [Multiset.le_iff_subset nodup]
  intro z mem
  simp only [Multiset.insert_eq_cons, Multiset.mem_cons, Multiset.mem_singleton] at mem
  rcases mem with rfl | rfl | rfl
  · exact ht
  · exact hu
  · exact hv

end WildHand

/-! ### What is found first -/

/-- The first trial that wins, over several loops with the wildcards each leaves aside. -/
def firstFound (data : MaajanData String) (counts : Counts) :
    List (Nat × List Trial) → Option (Nat × Trial)
  | [] => none
  | (wild, trials) :: rest =>
      match trials.find? (wins data counts wild) with
      | some trial => some (wild, trial)
      | none => firstFound data counts rest

/-- What the loops leave behind. -/
def foundAt (data : MaajanData String) (mingPai : List Section) (counts : Counts)
    (loops : List (Nat × List Trial)) : Option Nat × Counts :=
  match firstFound data counts loops with
  | some (wild, trial) =>
      (some (counted mingPai counts wild trial), filled (incr counts tyValue wild) (bag trial))
  | none => (none, counts)

theorem phase_found {mingPai : List Section} {counts : Counts} {wild : Nat} {trials : List Trial}
    {rest : List (Nat × List Trial)} {next : Counts → Option Nat × Counts}
    (goes : next counts = foundAt data mingPai counts rest) :
    phase data mingPai wild trials next counts = foundAt data mingPai counts ((wild, trials) :: rest) := by
  rw [phase_eq, foundAt, firstFound]
  cases trials.find? (wins data counts wild) with
  | some trial => rfl
  | none => exact goes

theorem incr_zero (counts : Counts) (t : Nat) : incr counts t ((0 : Nat) : Int) = counts := by
  funext z
  rw [incr_apply]
  split <;> omega

theorem tryEach_found {mingPai : List Section} {counts : Counts} {trials : List Trial} :
    tryEach data mingPai trials counts = foundAt data mingPai counts [(0, trials)] := by
  have same := incr_zero counts tyValue
  rw [tryEach_eq, foundAt, firstFound]
  unfold wins counted
  rw [same]
  cases trials.find? fun trial => MaajanZigong.isHu data (filled counts (bag trial)) with
  | some trial =>
      dsimp only
      rw [same]
  | none => rfl

namespace WildHand
variable (h : WildHand)

/-- The loops of `gou_count_tiyong`, -/
def ownLoops : List (Nat × List Trial) :=
  match wildcards h.cache with
  | 1 => [(0, oneOf (h.canGou 1) 1)]
  | 2 => [(0, twoOf (h.canGou 1))]
  | 3 => [(0, threeOf (h.canGou 1))]
  | _ => []

/-- and those of `gou_count_tiyong_help`. -/
def helpLoops : List (Nat × List Trial) :=
  match wildcards h.cache with
  | 2 => [(1, oneOf (h.canGou 1) 1), (0, oneOf (h.canGou 2) 2)]
  | 3 => [(1, twoOf (h.canGou 1)), (0, oneAndTwo (h.canGou 1) (h.canGou 2)),
      (2, oneOf (h.canGou 1) 1), (1, oneOf (h.canGou 2) 2), (0, oneOf (h.canGou 3) 3)]
  | _ => []

theorem twoOf_short {list : List Nat} (short : list.length < 2) : twoOf list = [] := by
  apply List.eq_nil_iff_forall_not_mem.2
  intro trial mem
  obtain ⟨i, j, _, _, _⟩ := mem_twoOf.1 mem
  omega

theorem threeOf_short {list : List Nat} (short : list.length < 3) : threeOf list = [] := by
  apply List.eq_nil_iff_forall_not_mem.2
  intro trial mem
  obtain ⟨i, j, k, _, _, _, _, _⟩ := mem_threeOf.1 mem
  omega

theorem gouCountLoops_eq :
    gouCountLoops data h.mingPai (h.canGou 1) (wildcards h.cache) (curcounts h.cache) =
      foundAt data h.mingPai (curcounts h.cache) h.ownLoops := by
  have wild := h.wild
  have few := h.few
  obtain one | two | three : wildcards h.cache = 1 ∨ wildcards h.cache = 2 ∨ wildcards h.cache = 3 := by
    omega
  · rw [gouCountLoops, if_pos one, tryEach_found]
    simp only [ownLoops, one]
  · simp only [gouCountLoops, ownLoops, two]
    rw [if_neg (by omega), if_pos trivial]
    split
    · exact tryEach_found
    · rename_i short
      rw [twoOf_short (Nat.lt_of_not_le short)]
      rfl
  · simp only [gouCountLoops, ownLoops, three]
    rw [if_neg (by omega)]
    split
    · rw [if_neg (by omega), if_pos trivial]
      exact tryEach_found
    · rename_i short
      rw [threeOf_short (Nat.lt_of_not_le short)]
      rfl

theorem gouCountTiyongHelp_eq :
    gouCountTiyongHelp data h.mingPai (h.canGou 1) (wildcards h.cache) (curcounts h.cache) =
      foundAt data h.mingPai (curcounts h.cache) h.helpLoops := by
  have wild := h.wild
  have few := h.few
  have last : notFound (curcounts h.cache) = foundAt data h.mingPai (curcounts h.cache) [] := rfl
  obtain one | two | three : wildcards h.cache = 1 ∨ wildcards h.cache = 2 ∨ wildcards h.cache = 3 := by
    omega
  · simp only [gouCountTiyongHelp, helpLoops, one]
    rw [if_neg (by omega), if_neg (by omega)]
    exact last
  · simp only [gouCountTiyongHelp, helpLoops, two]
    rw [if_pos trivial]
    exact phase_found (phase_found last)
  · simp only [gouCountTiyongHelp, helpLoops, three]
    rw [if_neg (by omega), if_pos trivial]
    apply phase_found
    exact phase_found (phase_found (phase_found (phase_found last)))

/-- The trials of `gou_count_tiyong_help` make four of each tile they put in. -/
theorem helpLoops_fills {wild : Nat} {trials : List Trial} (mem : (wild, trials) ∈ h.helpLoops)
    (tried : trial ∈ trials) : h.Fills (bag trial) ∧ wild + (bag trial).card = wildcards h.cache ∧
      ∃ t, t ∈ bag trial := by
  have held := h.wild
  have few := h.few
  have apart : ∀ t ∈ h.canGou 1, ∀ u ∈ h.canGou 2, t ≠ u := by
    rintro t ht u hu rfl
    exact canGou_apart (by omega) (by omega) (by omega) ht hu
  have ones : ∀ n, 1 ≤ n → trial ∈ oneOf (h.canGou n) n → h.Fills (bag trial) ∧
      (bag trial).card = n ∧ ∃ t, t ∈ bag trial := by
    intro n pos tried
    obtain ⟨t, ht, rfl⟩ := mem_oneOf.1 tried
    rw [bag_one, Multiset.card_replicate]
    exact ⟨fills_one ht, rfl, t, Multiset.mem_replicate.2 ⟨by omega, rfl⟩⟩
  have twos : trial ∈ twoOf (h.canGou 1) → h.Fills (bag trial) ∧
      (bag trial).card = 2 ∧ ∃ t, t ∈ bag trial := by
    intro tried
    obtain ⟨i, j, less, last, rfl⟩ := mem_twoOf.1 tried
    rw [bag_two]
    have ne := getD_ne h.canGou_nodup less last
    exact ⟨fills_two (getD_mem (by omega)) (getD_mem last) ne, by simp, _, Multiset.mem_cons_self _ _⟩
  have mixed : trial ∈ oneAndTwo (h.canGou 1) (h.canGou 2) → h.Fills (bag trial) ∧
      (bag trial).card = 3 ∧ ∃ t, t ∈ bag trial := by
    intro tried
    obtain ⟨t, ht, u, hu, rfl⟩ := mem_oneAndTwo.1 tried
    rw [bag_two]
    exact ⟨fills_two ht hu (apart t ht u hu), by simp, t, Multiset.mem_cons_self _ _⟩
  obtain one | two | three : wildcards h.cache = 1 ∨ wildcards h.cache = 2 ∨ wildcards h.cache = 3 := by
    omega
  · simp [helpLoops, one] at mem
  · simp only [helpLoops, two, List.mem_cons, List.not_mem_nil, or_false, Prod.mk.injEq] at mem
    rcases mem with ⟨rfl, rfl⟩ | ⟨rfl, rfl⟩
    · obtain ⟨fills, card, held⟩ := ones 1 (by omega) tried
      exact ⟨fills, by omega, held⟩
    · obtain ⟨fills, card, held⟩ := ones 2 (by omega) tried
      exact ⟨fills, by omega, held⟩
  · simp only [helpLoops, three, List.mem_cons, List.not_mem_nil, or_false, Prod.mk.injEq] at mem
    rcases mem with ⟨rfl, rfl⟩ | ⟨rfl, rfl⟩ | ⟨rfl, rfl⟩ | ⟨rfl, rfl⟩ | ⟨rfl, rfl⟩
    · obtain ⟨fills, card, held⟩ := twos tried
      exact ⟨fills, by omega, held⟩
    · obtain ⟨fills, card, held⟩ := mixed tried
      exact ⟨fills, by omega, held⟩
    · obtain ⟨fills, card, held⟩ := ones 1 (by omega) tried
      exact ⟨fills, by omega, held⟩
    · obtain ⟨fills, card, held⟩ := ones 2 (by omega) tried
      exact ⟨fills, by omega, held⟩
    · obtain ⟨fills, card, held⟩ := ones 3 (by omega) tried
      exact ⟨fills, by omega, held⟩

theorem firstFound_mem {counts : Counts} {loops : List (Nat × List Trial)} {wild : Nat}
    (found : firstFound data counts loops = some (wild, trial)) :
    ∃ trials, (wild, trials) ∈ loops ∧ trials.find? (wins data counts wild) = some trial := by
  induction loops with
  | nil => cases found
  | cons first rest ih =>
      obtain ⟨aside, trials⟩ := first
      rw [firstFound] at found
      split at found
      · rename_i winner here
        cases found
        exact ⟨trials, List.mem_cons_self, here⟩
      · obtain ⟨trials', mem, here⟩ := ih found
        exact ⟨trials', List.mem_cons_of_mem _ mem, here⟩

theorem firstFound_append {counts : Counts} (loops loops' : List (Nat × List Trial)) :
    firstFound data counts (loops ++ loops') =
      match firstFound data counts loops with
      | some found => some found
      | none => firstFound data counts loops' := by
  induction loops with
  | nil => rfl
  | cons first rest ih =>
      obtain ⟨aside, trials⟩ := first
      rw [List.cons_append, firstFound, firstFound]
      cases trials.find? (wins data counts aside) with
      | some trial => rfl
      | none => exact ih

/-- The count of the first trial that wins, and of the hand as it is where none does. -/
theorem gouCountTiyong_eq (tables : Tables data) :
    gouCountTiyong data h.mingPai h.cache =
      match firstFound data (curcounts h.cache) (h.ownLoops ++ h.helpLoops) with
      | some (wild, trial) => counted h.mingPai (curcounts h.cache) wild trial
      | none => quads false h.mingPai h.cache 0 := by
  have wild := h.wild
  have few := h.few
  have nothing : h.Fills 0 := fun t mem => absurd mem (Multiset.notMem_zero t)
  have empty : bag [] = 0 := rfl
  have still : filled (incr (curcounts h.cache) tyValue (wildcards h.cache)) (bag []) =
      incr (curcounts h.cache) tyValue (wildcards h.cache) := by
    funext t
    simp [filled, empty]
  have hu : MaajanZigong.isHu data (incr (curcounts h.cache) tyValue (wildcards h.cache)) = true := by
    obtain ⟨a, assigned⟩ := h.winning
    have agree : wins data (curcounts h.cache) (wildcards h.cache) [] = true ↔ _ :=
      nothing.wins_iff (by simp) tables empty (by simp)
    have won := agree.2 ⟨a, assigned, Multiset.zero_le a⟩
    rwa [wins, still] at won
  have last : gouCountWutiyong h.mingPai (incr (curcounts h.cache) tyValue (wildcards h.cache)) =
      quads false h.mingPai h.cache 0 := by
    rw [← nothing.counted_eq (by simp) empty few, counted, still]
  have loops := @gouCountLoops_eq data h
  have help := @gouCountTiyongHelp_eq data h
  simp only [canGou] at loops help
  rw [firstFound_append, gouCountTiyong]
  simp only [loops]
  rw [foundAt]
  cases firstFound data (curcounts h.cache) h.ownLoops with
  | some found => rfl
  | none =>
      simp only [help]
      rw [foundAt]
      cases found : firstFound data (curcounts h.cache) h.helpLoops with
      | some first =>
          obtain ⟨aside, trial⟩ := first
          obtain ⟨trials, mem, here⟩ := firstFound_mem found
          obtain ⟨fills, size, t, held⟩ := h.helpLoops_fills mem (List.mem_of_find?_eq_some here)
          have pos := fills.quads_pos (by omega) held
          rw [← fills.counted_eq (by omega) rfl (show aside ≤ 3 by omega)] at pos
          dsimp only
          rw [Option.getD_some, if_neg (by omega)]
      | none => simp [hu, last]

end WildHand

end FkServer.MaajanZigong.Rule
