import Mathlib.Algebra.Order.BigOperators.Group.List
import Mathlib.Algebra.Order.Ring.Nat
import FkServer.ChangpaiZigong.Rule

/-!
The two judges of a winning hand agree: `rule.is_hu`, which stops at the first pairing
and excuses two kinds from the count of tuos, and `rule.hu`, which lists every pairing
and excuses three. A hand that is all red counts at least one tuo a card, so the third
kind never needs the excuse.
-/
namespace FkServer.ChangpaiZigong.Rule

variable {counts : Counts} {fuel : Nat} {sections : List Section}

theorem card_of_mem (cards : ∀ t, 0 < counts t → Card t) {first : Nat} {rest : List Nat}
    (h : counts2Tiles counts = first :: rest) : Card first := by
  have mem : first ∈ counts2Tiles counts := h ▸ List.mem_cons_self
  obtain ⟨tile, _, copies⟩ := List.mem_flatMap.1 mem
  obtain ⟨held, rfl⟩ := List.mem_replicate.1 copies
  exact cards first (by omega)

theorem cards_decr {counts : Counts} (cards : ∀ t, 0 < counts t → Card t) (first tile : Nat) :
    ∀ t, 0 < decr (decr counts first 1) tile 1 t → Card t := by
  intro t held
  simp only [decr_apply] at held
  apply cards t
  split_ifs at held <;> omega

/-- The search that lists pairings finds one where the search for one succeeds. -/
theorem huState_isEmpty_iff (cards : ∀ t, 0 < counts t → Card t) :
    (huState fuel counts sections).isEmpty = false ↔ isHuState fuel counts = true := by
  induction fuel generalizing counts sections with
  | zero => simp [huState, isHuState]
  | succ fuel ih =>
      rw [huState, isHuState]
      cases hl : counts2Tiles counts with
      | nil => simp
      | cons first rest =>
          have card : Card first := card_of_mem cards hl
          simp only [List.isEmpty_eq_false_iff_exists_mem, List.mem_flatMap, List.any_eq_true,
            Bool.and_eq_true, decide_eq_true_eq, List.mem_ite_nil_right]
          constructor
          · intro ⟨found, tile, range, ⟨_, pair⟩, h⟩
            have some : (huState fuel (decr (decr counts first 1) tile 1)
                (sections ++ [.chi tile first])).isEmpty = false :=
              List.isEmpty_eq_false_iff_exists_mem.2 ⟨found, h⟩
            exact ⟨tile, range, pair, (ih (cards_decr cards first tile)).1 some⟩
          · intro ⟨tile, range, pair, h⟩
            have some : (huState fuel (decr (decr counts first 1) tile 1)
                (sections ++ [.chi tile first])).isEmpty = false :=
              (ih (cards_decr cards first tile)).2 h
            obtain ⟨found, listed⟩ := List.isEmpty_eq_false_iff_exists_mem.1 some
            exact ⟨found, tile, range, ⟨card, pair⟩, listed⟩

section Tuos
variable {pai : Pai} {inPai : Option Nat} {isZhuang : Bool}

theorem cards_le_tuos {s : Section} (red : sectionAllHong s = true) :
    s.cards.length ≤ sectionTuos s := by
  cases s with
  | baGang tile =>
      simp only [sectionAllHong] at red
      simp [Section.cards, sectionTuos, red]
  | peng tile | tou tile =>
      simp only [sectionAllHong] at red
      simp [Section.cards, sectionTuos, red]
  | chi tile othertile =>
      simp only [sectionAllHong, Bool.and_eq_true] at red
      simp [Section.cards, sectionTuos, red]

theorem totalCount_eq_hongCount (held : ∀ t, 0 ≤ counts t)
    (red : ∀ t, 0 < counts t → isHong t = true) : totalCount counts = hongCount counts := by
  rw [totalCount, hongCount]
  congr 1
  refine List.map_congr_left fun t _ => ?_
  split
  · rfl
  · rename_i other
    have := held t
    have := red t
    grind

/-- The cards of a hand, exposed and concealed, with `in_pai`. -/
def handSize (pai : Pai) (inPai : Option Nat) : Int :=
  ((pai.mingPai.map fun s => s.cards.length).sum : Nat) + totalCount (cache pai inPai)

/-- Cards of the deck only, none of them a negative number of times. -/
structure Hand (pai : Pai) (inPai : Option Nat) : Prop where
  cards : ∀ t, 0 < cache pai inPai t → Card t
  held : ∀ t, 0 ≤ pai.shouPai t

theorem Hand.concealed_le_tuos (hand : Hand pai inPai)
    (red : ∀ t, 0 < cache pai inPai t → isHong t = true) :
    totalCount (cache pai inPai) = hongCount pai.shouPai + if inPai.any isHong then 1 else 0 := by
  cases inPai with
  | none =>
      rw [cache, totalCount_eq_hongCount hand.held red]
      simp
  | some inPai =>
      have more : ∀ t, pai.shouPai t ≤ cache pai (some inPai) t := by
        intro t
        simp only [cache, incr_apply]
        split <;> omega
      have won : 0 < cache pai (some inPai) inPai := by
        have := hand.held inPai
        simp only [cache, incr_apply, if_true]
        omega
      have concealed : totalCount pai.shouPai = hongCount pai.shouPai :=
        totalCount_eq_hongCount hand.held fun t held => red t (held.trans_le (more t))
      have hong : isHong inPai = true := red inPai won
      rw [cache, totalCount_incr _ (hand.cards inPai won).mem_range, concealed]
      simp [hong]

/-- An all-red hand has at least as many tuos as cards. -/
theorem Hand.size_le_tuos (hand : Hand pai inPai)
    (red : isTuotuoHong pai (cache pai inPai) = true) : handSize pai inPai ≤ tuos pai inPai := by
  simp only [isTuotuoHong, Bool.and_eq_true, List.all_eq_true, Bool.or_eq_true,
    decide_eq_true_eq] at red
  have exposed : (pai.mingPai.map fun s => s.cards.length).sum ≤ mingTuos pai :=
    List.sum_le_sum fun s mem => cards_le_tuos (red.1 s mem)
  have concealed := hand.concealed_le_tuos fun t held =>
    (red.2 t (hand.cards t held).mem_range).resolve_left (by omega)
  rw [handSize, tuos, concealed]
  omega

theorem pingHu_iff :
    ((getHuTypes pai counts).lookup .pingHu).isSome = true ↔
      isTuotuoHong pai counts = false ∧ isBabaHei pai counts = false ∧
        isHeiLong pai counts = false := by
  unfold getHuTypes
  cases isTuotuoHong pai counts <;> cases isBabaHei pai counts <;> cases isHeiLong pai counts <;>
    decide

theorem special_iff :
    ((getHuTypes pai counts).lookup .heiLong).isSome = true ∨
        ((getHuTypes pai counts).lookup .babaHei).isSome = true ↔
      isHeiLong pai counts = true ∨ isBabaHei pai counts = true := by
  unfold getHuTypes
  cases isTuotuoHong pai counts <;> cases isBabaHei pai counts <;> cases isHeiLong pai counts <;>
    decide

theorem getHuTypes_ne_weiHu : getHuTypes pai counts ≠ [(.weiHu, 1)] := by
  unfold getHuTypes
  cases isTuotuoHong pai counts <;> cases isBabaHei pai counts <;> cases isHeiLong pai counts <;>
    decide

/-- `rule.hu` finds a win: the cards pair off, and the kind or the tuos allow it. -/
theorem hu_iff (other : ∀ t ∈ inPai, tileValue t ≠ 7) :
    hu pai inPai isZhuang ≠ [[(.weiHu, 1)]] ↔
      (huState ((counts2Tiles (cache pai inPai)).length + 1) (cache pai inPai) []).isEmpty = false ∧
        (isTuotuoHong pai (cache pai inPai) = true ∨ isBabaHei pai (cache pai inPai) = true ∨
          isHeiLong pai (cache pai inPai) = true ∨ leastTuos isZhuang ≤ tuos pai inPai) := by
  have allowed : inPai.any (fun tile => tileValue tile = 7) = false := by
    cases inPai with
    | none => rfl
    | some tile => simpa using other tile rfl
  have won : [getHuTypes pai (cache pai inPai)] ≠ [[(.weiHu, 1)]] := fun same =>
    getHuTypes_ne_weiHu (List.singleton_inj.1 same)
  rw [hu, if_neg (by simp [allowed])]
  dsimp only
  split
  · rename_i nothing
    simp [nothing]
  · rename_i something
    have few : ((getHuTypes pai (cache pai inPai)).lookup .pingHu).isSome = true ↔ _ :=
      pingHu_iff
    split
    · rename_i ping
      have := few.1 ping.1
      grind
    · rename_i enough
      refine iff_of_true won ⟨by simpa using something, ?_⟩
      grind

/-- The winning judges agree on every hand of at least 14 cards. -/
theorem winning_judges_agree (pai : Pai) (inPai : Option Nat) (isZhuang : Bool) (hand : Hand pai inPai)
    (size : 14 ≤ handSize pai inPai) (other : ∀ t ∈ inPai, tileValue t ≠ 7) :
    isHu pai inPai isZhuang = true ↔ hu pai inPai isZhuang ≠ [[(.weiHu, 1)]] := by
  have least : leastTuos isZhuang ≤ 14 := by cases isZhuang <;> decide
  have red := hand.size_le_tuos
  rw [hu_iff other, huState_isEmpty_iff hand.cards]
  simp only [isHu, Bool.and_eq_true, decide_eq_true_eq, special_iff]
  refine and_congr_right fun _ => ?_
  constructor
  · rintro (enough | hei | baba)
    · exact .inr (.inr (.inr enough))
    · exact .inr (.inr (.inl hei))
    · exact .inr (.inl baba)
  · rintro (allRed | baba | hei | enough)
    · exact .inl (least.trans (size.trans (red allRed)))
    · exact .inr (.inr baba)
    · exact .inr (.inl hei)
    · exact .inl enough

/-- Four red triplets and a pair of 3 and 11: both judges see the win. -/
theorem four_red_triplets_win :
    let pai : Pai :=
      { shouPai := fun t => if t = 2 then 1 else 0
        mingPai := [.peng 1, .peng 5, .peng 15, .peng 21]
        deskTiles := []
        unUsecard := none }
    isHu pai (some 20) false = true ∧ hu pai (some 20) false ≠ [[(.weiHu, 1)]] := by
  intro pai
  have hand : Hand pai (some 20) := by
    refine ⟨fun t held => ?_, fun t => ?_⟩
    · have which : t = 2 ∨ t = 20 := by
        by_contra other
        simp only [cache, incr_apply, pai] at held
        split_ifs at held <;> omega
      rcases which with rfl | rfl <;> decide
    · simp only [pai]
      split <;> omega
  have wins : isHu pai (some 20) false = true := by decide +kernel
  refine ⟨wins, (winning_judges_agree pai (some 20) false hand (by decide +kernel) ?_).1 wins⟩
  intro t same
  rw [← Option.some.inj same]
  decide

end Tuos

end FkServer.ChangpaiZigong.Rule
