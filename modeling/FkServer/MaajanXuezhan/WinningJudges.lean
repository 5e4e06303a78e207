import FkServer.MaajanXuezhan.ReadyTiles
import FkServer.MaajanXuezhan.HuTypes

/-!
The two judges of a winning hand: `rule.is_hu`, which stops at the first
decomposition and counts four pairs when it is told to, and `rule.hu`, which lists
every decomposition and counts four pairs always.
-/
namespace FkServer.MaajanXuezhan.Rule
open BlockCover

variable {counts : Counts} {jiang : Bool} {fuel : Nat} {sections : List HuSection}

theorem huState_sound {found : List HuSection}
    (h : found ∈ huState fuel counts jiang sections) :
    Complete (if jiang then 0 else 1) (tilesOf counts) := by
  induction fuel generalizing counts jiang sections with
  | zero => exact absurd h List.not_mem_nil
  | succ fuel ih =>
      rw [huState] at h
      cases hl : counts2Tiles counts with
      | nil =>
          have empty : tilesOf counts = 0 := by rw [tilesOf, hl]; rfl
          rw [empty]
          exact .nil
      | cons first rest =>
          obtain ⟨inside, -⟩ := mem_tilesOf.1 (show first ∈ tilesOf counts by simp [tilesOf, hl])
          rw [hl] at h
          simp only [List.mem_append, List.mem_flatMap, List.mem_ite_nil_right] at h
          rcases h with (⟨held, h⟩ | ⟨⟨rfl, held⟩, h⟩) | ⟨tile, range, ⟨held, _, kind⟩, h⟩
          · rw [tilesOf_decr 3 inside held]
            exact .block (.inl ⟨first, rfl⟩) (ih h)
          · rw [tilesOf_decr 2 inside held]
            exact .special ⟨first, rfl⟩ (ih h)
          · have room : 1 ≤ tile ∧ tile + 2 ≤ 50 := by
              have low := (List.mem_range'_1.1 range).1
              have men := kind.2.1
              simp only [tileMen] at men
              omega
            rw [tilesOf_run room ⟨held, kind.2.2⟩]
            exact .block (.inr ⟨tile, ⟨kind.1, kind.2.1⟩, rfl⟩) (ih h)

/-- The winning search takes the first tile's block; `hu` meets that one among others. -/
theorem huState_complete (suited : ∀ t ∈ tilesOf counts, SuitTile t)
    (enough : (tilesOf counts).card < fuel)
    (complete : Complete (if jiang then 0 else 1) (tilesOf counts)) :
    ∃ found, found ∈ huState fuel counts jiang sections := by
  induction fuel generalizing counts jiang sections with
  | zero => omega
  | succ fuel ih =>
      rw [huState]
      cases hl : counts2Tiles counts with
      | nil => exact ⟨sections, List.mem_singleton.2 rfl⟩
      | cons first rest =>
          have mem : first ∈ tilesOf counts := by simp [tilesOf, hl]
          obtain ⟨inside, held⟩ := mem_tilesOf.1 mem
          simp only [List.mem_append, List.mem_flatMap, List.mem_ite_nil_right]
          rcases complete_first mem (first_least hl) complete with
            ⟨three, rest⟩ | ⟨j, hj, two, rest⟩ | ⟨run, rest⟩
          · have less := card_tilesOf_decr 3 (by omega) inside three
            have split := tilesOf_decr 3 inside three
            have suited' : ∀ t ∈ tilesOf (decr counts first 3), SuitTile t := fun t ht =>
              suited t (split ▸ Multiset.mem_add.2 (.inr ht))
            obtain ⟨found, h⟩ : ∃ found,
                found ∈ huState fuel (decr counts first 3) jiang (sections ++ [⟨.three, first⟩]) :=
              ih suited' (less.trans_le (Nat.le_of_lt_succ enough)) rest
            exact ⟨found, .inl (.inl ⟨three, h⟩)⟩
          · cases jiang with
            | true => cases hj
            | false =>
                cases hj
                have rest : Complete (if true then 0 else 1) (tilesOf (decr counts first 2)) := rest
                have less := card_tilesOf_decr 2 (by omega) inside two
                have split := tilesOf_decr 2 inside two
                have suited' : ∀ t ∈ tilesOf (decr counts first 2), SuitTile t := fun t ht =>
                  suited t (split ▸ Multiset.mem_add.2 (.inr ht))
                obtain ⟨found, h⟩ : ∃ found,
                    found ∈ huState fuel (decr counts first 2) true (sections ++ [⟨.duiZi, first⟩]) :=
                  ih suited' (less.trans_le (Nat.le_of_lt_succ enough)) rest
                exact ⟨found, .inl (.inr ⟨⟨rfl, two⟩, h⟩)⟩
          · have suit := suited first mem
            have room : 1 ≤ first ∧ first + 2 ≤ 50 := by
              have := suit.range
              omega
            have less := card_tilesOf_run room ⟨held, run.2.2⟩
            have split := tilesOf_run room ⟨held, run.2.2⟩
            have suited' : ∀ t ∈ tilesOf (decr (decr (decr counts first 1) (first + 1) 1)
                (first + 2) 1), SuitTile t := fun t ht =>
              suited t (split ▸ Multiset.mem_add.2 (.inr ht))
            obtain ⟨found, h⟩ : ∃ found,
                found ∈ huState fuel (decr (decr (decr counts first 1) (first + 1) 1) (first + 2) 1)
                  jiang (sections ++ [⟨.chi, first⟩]) :=
              ih suited' (less.trans_le (Nat.le_of_lt_succ enough)) rest
            exact ⟨found, .inr ⟨first, suit.mem_range, ⟨held, suit.1, run⟩, h⟩⟩

/-- The two searches agree on suit tiles. -/
theorem huState_isEmpty_iff (suited : ∀ t ∈ tilesOf counts, SuitTile t)
    (enough : (tilesOf counts).card < fuel) :
    (huState fuel counts jiang sections).isEmpty = false ↔ isHuState fuel counts jiang = true := by
  rw [isHuState_iff enough, List.isEmpty_eq_false_iff_exists_mem]
  constructor
  · intro ⟨found, h⟩
    exact huState_sound h
  · exact huState_complete suited enough

/-- A result none of whose kinds is the no-win entry. -/
def Wins (types : Types) : Prop := ∀ tc ∈ types, tc.1 ≠ .weiHu

section Wins
variable {types other : Types}

theorem Wins.append (h : Wins types) (h' : Wins other) : Wins (types ++ other) := fun tc mem =>
  (List.mem_append.1 mem).elim (h tc) (h' tc)

theorem Wins.filter (h : Wins types) (p : HuType × Nat → Bool) : Wins (types.filter p) :=
  fun tc mem => h tc (List.mem_filter.1 mem).1

theorem Wins.add (h : Wins types) (h' : Wins other) : Wins (types.add other) := by
  refine Wins.append (fun tc mem => ?_) (h'.filter _)
  obtain ⟨entry, listed, rfl⟩ := List.mem_map.1 mem
  exact h entry listed

theorem wins_one {kind : HuType} (n : Nat) (h : kind ≠ .weiHu) : Wins [(kind, n)] := by
  intro tc mem
  rw [List.mem_singleton.1 mem]
  exact h

theorem wins_ite {c : Prop} [Decidable c] (h : Wins types) (h' : Wins other) :
    Wins (if c then types else other) := by
  split
  · exact h
  · exact h'

theorem wins_nil : Wins [] := fun _ mem => absurd mem List.not_mem_nil

theorem duiTypes_wins {long plain : HuType} (gou : Nat) (qingYiSe duanYao menQing : Bool)
    (hl : long ≠ .weiHu) (hp : plain ≠ .weiHu) :
    Wins (duiTypes long plain gou qingYiSe duanYao menQing) := by
  have first : Wins [(if 0 < gou then long else plain, 1)] := by
    apply wins_one
    split
    · exact hl
    · exact hp
  have one : ∀ {kind : HuType}, kind ≠ .weiHu → ∀ c : Bool,
      Wins (if c then [(kind, 1)] else []) := fun h _ => wins_ite (wins_one 1 h) wins_nil
  exact ((first.append (one (by decide) _)).append (one (by decide) _)).append (one (by decide) _)

theorem getHuTypes_wins (pai : Pai) (counts : Counts) (sections : List HuSection)
    (inPai moPai : Option Nat) : Wins (getHuTypes pai counts sections inPai moPai) := by
  have one : ∀ {kind : HuType}, kind ≠ .weiHu → Wins [(kind, 1)] := fun h => wins_one 1 h
  have opt : ∀ {kind : HuType} (c : Prop) [Decidable c], kind ≠ .weiHu →
      Wins (if c then [(kind, 1)] else []) := fun _ _ h => wins_ite (one h) wins_nil
  unfold getHuTypes
  refine wins_ite (one (by decide)) ?_
  refine Wins.append (.append (.append (.append (.append ?_ ?_) ?_) ?_) ?_) ?_
  · exact wins_ite (wins_ite (one (by decide)) (one (by decide))) wins_nil
  all_goals exact opt _ (by decide)

/-- The combined kinds are winning kinds themselves. -/
theorem uniqueHuTypes_wins (h : Wins types) : Wins (uniqueHuTypes types) := by
  have each : ∀ (table : List (HuType × List HuType)), (∀ u ∈ table, u.1 ≠ .weiHu) →
      ∀ st : Types × Types, Wins st.1 → Wins st.2 →
      let r := table.foldl (fun st u =>
        if u.2.all fun t => (st.2.lookup t).isSome then
          ((u.1, 1) :: st.1, st.2.filter fun tc => tc.1 ∉ u.2)
        else st) st
      Wins r.1 ∧ Wins r.2 := by
    intro table kinds
    induction table with
    | nil => exact fun st h₁ h₂ => ⟨h₁, h₂⟩
    | cons u table ih =>
        intro st h₁ h₂
        have kinds' := fun v hv => kinds v (List.mem_cons_of_mem u hv)
        rw [List.foldl_cons]
        split
        · refine ih kinds' _ ?_ (h₂.filter _)
          exact Wins.append (wins_one 1 (kinds u List.mem_cons_self)) h₁
        · exact ih kinds' st h₁ h₂
  have kinds : ∀ u ∈ uniqueHuType, u.1 ≠ .weiHu := by decide
  obtain ⟨combined, left⟩ := each uniqueHuType kinds ([], types) wins_nil h
  exact (combined.add left).filter _

theorem mem_of_mem_mergeSameType {l : List Types} (h : types ∈ mergeSameType l) : types ∈ l := by
  induction l with
  | nil => exact h
  | cons first rest ih =>
      rw [mergeSameType] at h
      split at h
      · exact List.mem_cons_of_mem first (ih h)
      · cases List.mem_cons.1 h with
        | inl here => exact here ▸ List.mem_cons_self
        | inr there => exact List.mem_cons_of_mem first (ih there)

end Wins

section Judges
variable {pai : Pai} {inPai moPai : Option Nat}

/-- `rule.hu` gives the no-win entry only where no form of a win is found. -/
theorem hu_ne_weiHu_iff :
    hu pai inPai moPai ≠ [[(.weiHu, 1)]] ↔
      (huState ((counts2Tiles (cache pai inPai)).length + 1) (cache pai inPai) false []).isEmpty =
          false ∨
        isQiDui pai (cache pai inPai) = true ∨ isSiDui pai (cache pai inPai) = true := by
  rw [hu]
  extract_lets qingYiSe menQing duanYao gou sum danDiao common all
  have common_wins : Wins common := by
    have one : ∀ {kind : HuType} (n : Nat) (c : Prop) [Decidable c], kind ≠ .weiHu →
        Wins (if c then [(kind, n)] else []) := fun n _ _ h => wins_ite (wins_one n h) wins_nil
    refine Wins.append (.append (.append (.append ?_ ?_) ?_) ?_) ?_
    all_goals exact one _ _ (by decide)
  have all_wins : ∀ types ∈ all, Wins types := by
    intro types mem
    simp only [all, List.mem_append, List.mem_ite_nil_right, List.mem_singleton,
      List.mem_map] at mem
    rcases mem with (⟨_, rfl⟩ | ⟨_, rfl⟩) | ⟨sections, _, rfl⟩
    · exact duiTypes_wins _ _ _ _ (by decide) (by decide)
    · exact duiTypes_wins _ _ _ _ (by decide) (by decide)
    · exact (getHuTypes_wins pai _ sections inPai moPai).add common_wins
  have won : mergeSameType (all.map uniqueHuTypes) ≠ [[(.weiHu, 1)]] := by
    intro same
    have mem : [(HuType.weiHu, 1)] ∈ mergeSameType (all.map uniqueHuTypes) :=
      same ▸ List.mem_cons_self
    obtain ⟨types, listed, unique⟩ := List.mem_map.1 (mem_of_mem_mergeSameType mem)
    have wins := uniqueHuTypes_wins (all_wins types listed)
    rw [unique] at wins
    exact wins _ List.mem_cons_self rfl
  split
  · rename_i nothing
    simp [nothing]
  · rename_i something
    simp only [won, ne_eq, not_false_eq_true, true_iff]
    grind

/-- `rule.hu` as it ends: `in_pai % 10` in `get_hu_types` fails when a decomposition
has a run and no winning tile is named. -/
def huOrFail (pai : Pai) (inPai moPai : Option Nat) : Option (List Types) :=
  let counts := cache pai inPai
  let found := huState ((counts2Tiles counts).length + 1) counts false []
  if inPai.or moPai = none ∧ found.any fun sections => sections.any fun s => s.type = .chi then
    none
  else
    some (hu pai inPai moPai)

/-- Where `rule.hu` returns, it finds a win exactly in the hands `rule.is_hu` accepts
and, also without the option, in hands of four pairs. -/
theorem judges_agree_but_four_pairs (pai : Pai) (inPai moPai : Option Nat) (siDui : Bool) (types : List Types)
    (suited : ∀ t, 0 < cache pai inPai t → SuitTile t)
    (result : huOrFail pai inPai moPai = some types) :
    types ≠ [[(.weiHu, 1)]] ↔
      isHu pai inPai siDui = true ∨
        (siDui = false ∧ isSiDui pai (cache pai inPai) = true) := by
  have same : hu pai inPai moPai = types := by
    rw [huOrFail] at result
    split at result
    · cases result
    · exact Option.some.inj result
  have search :
      (huState ((counts2Tiles (cache pai inPai)).length + 1) (cache pai inPai) false []).isEmpty =
          false ↔
        isHuState ((counts2Tiles (cache pai inPai)).length + 1) (cache pai inPai) false = true :=
    huState_isEmpty_iff (fun t mem => suited t (mem_tilesOf.1 mem).2) (Nat.lt_succ_self _)
  rw [← same, hu_ne_weiHu_iff, search, isHu]
  cases siDui with
  | false => simp [or_assoc]
  | true => simp [or_assoc]

/-- Three 1s and a 2 with three melds win on a second 2. -/
theorem three_ones_and_two_twos_win :
    let pai : Pai := ⟨fun t => [1, 1, 1, 2].count t, threePengs, [], none⟩
    isHu pai (some 2) false = true ∧
      ∃ types, huOrFail pai (some 2) none = some types ∧ types ≠ [[(.weiHu, 1)]] := by
  intro pai
  have suited : ∀ t, 0 < cache pai (some 2) t → SuitTile t := by
    intro t held
    have which : t = 2 ∨ t ∈ [1, 1, 1, 2] := by
      by_contra other
      obtain ⟨new, old⟩ := not_or.1 other
      simp only [cache, incr_apply, pai, List.count_eq_zero.2 old, if_neg new] at held
      exact absurd held (by decide)
    exact (show ∀ t ∈ [1, 1, 1, 2], SuitTile t by decide) t (which.elim (fun h => by simp [h]) id)
  have wins : isHu pai (some 2) false = true := by decide +kernel
  refine ⟨wins, hu pai (some 2) none, rfl, ?_⟩
  exact (judges_agree_but_four_pairs pai (some 2) none false _ suited rfl).2 (.inl wins)

/-- Four pairs are a win for `rule.hu` also when the option is off. -/
theorem four_pairs_divide_the_judges :
    ¬ ∀ (pai : Pai) (inPai : Option Nat) (siDui : Bool) (types : List Types),
      (Hand (cache pai inPai) ∧ totalCount (cache pai inPai) % 3 = 2) →
      huOrFail pai inPai none = some types →
      (types ≠ [[(.weiHu, 1)]] ↔ isHu pai inPai siDui = true) := by
  intro claim
  let pai : Pai :=
    { shouPai := fun t => if t = 1 ∨ t = 3 ∨ t = 5 then 2 else if t = 7 then 1 else 0
      mingPai := []
      deskTiles := []
      huan := none }
  have hand : Hand (cache pai (some 7)) := by
    refine ⟨fun t ht => ?_, fun t => ?_⟩
    · have which : t = 1 ∨ t = 3 ∨ t = 5 ∨ t = 7 := by
        by_contra other
        simp only [cache, incr_apply, pai] at ht
        split_ifs at ht <;> omega
      rcases which with rfl | rfl | rfl | rfl <;> decide
    · simp only [cache, incr_apply, pai]
      split_ifs <;> omega
  have agree := claim pai (some 7) false _ ⟨hand, by decide +kernel⟩ rfl
  have lost : isHu pai (some 7) false = false := by decide +kernel
  rw [lost] at agree
  exact absurd (agree.1 (by decide +kernel)) Bool.false_ne_true

end Judges

end FkServer.MaajanXuezhan.Rule
