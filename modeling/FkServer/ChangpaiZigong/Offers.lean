import FkServer.ChangpaiZigong.Handlers

/-!
What the offers of the table promise: an action is offered only with the cards it needs
in the hand, and a message that passes `check_action_before_do` answers an offer.
-/
namespace FkServer.ChangpaiZigong

/-- Every action of `a` is also one of `b`, with the same keys. -/
structure Actions.Within (a b : Actions) : Prop where
  peng : a.peng ⊆ b.peng
  tou : a.tou ⊆ b.tou
  baGang : a.baGang ⊆ b.baGang
  chi : a.chi ⊆ b.chi

namespace Actions.Within
variable {a b d : Actions}

theorem refl (a : Actions) : a.Within a :=
  ⟨List.Subset.refl _, List.Subset.refl _, List.Subset.refl _, List.Subset.refl _⟩

/-- One stage of `get_actions` at a time. -/
theorem ite {p : Prop} [Decidable p] {a' : Actions} (h : a.Within b) (h' : a'.Within b) :
    (if p then a else a').Within b := by
  split
  · exact h
  · exact h'

end Actions.Within

variable {c : Conf} {t : Table} {pai : Pai} {chair : Nat} {moPai inPai : Option Nat}
variable {canEat isZhuang canBa : Bool} {x : Nat}

/-- The actions of `mj_util` with the ways to eat that leave a card to discard. -/
def Util.leaving (pai : Pai) (a : Actions) : Actions :=
  { a with chi := a.chi.filter fun e =>
      pai.unUsecard.all fun unusable => chiLeaves pai unusable e.1 e.2 }

/-- `get_actions` only takes actions away. -/
theorem getActions_within :
    (getActions c t chair moPai inPai canEat canBa).Within
      (Util.leaving (t.player chair).pai
        (Util.getActions (t.player chair).pai moPai inPai canEat (t.zhuang = chair) canBa)) := by
  have nil : ∀ {α : Type} (l : List α), [] ⊆ l := fun l => List.nil_subset l
  have filtered : ∀ {α : Type} {p : α → Bool} {l l' : List α}, l ⊆ l' → l.filter p ⊆ l' :=
    fun h _ mem => h (List.mem_filter.1 mem).1
  unfold getActions
  extract_lets p zhuang a₀ a₁ a₂ passed a₃ a₄ a₅ a₆ a₇ a₈
  have same := Actions.Within.refl
  have h₁ : a₁.Within a₀ := .ite (same a₀) ⟨(same a₀).peng, (same a₀).tou, (same a₀).baGang,
    (same a₀).chi⟩
  have h₂ : a₂.Within (Util.leaving p.pai a₀) := ⟨h₁.peng, h₁.tou, h₁.baGang, List.filter_subset _ h₁.chi⟩
  have h₃ : a₃.Within (Util.leaving p.pai a₀) := .ite ⟨h₂.peng, h₂.tou, h₂.baGang, h₂.chi⟩ h₂
  have h₄ : a₄.Within (Util.leaving p.pai a₀) :=
    .ite ⟨filtered h₃.peng, h₃.tou, h₃.baGang, h₃.chi⟩ h₃
  have h₅ : a₅.Within (Util.leaving p.pai a₀) :=
    .ite ⟨h₄.peng, h₄.tou, h₄.baGang, filtered h₄.chi⟩ h₄
  have h₆ : a₆.Within (Util.leaving p.pai a₀) := .ite ⟨h₅.peng, h₅.tou, h₅.baGang, h₅.chi⟩ h₅
  have h₇ : a₇.Within (Util.leaving p.pai a₀) := .ite ⟨nil _, nil _, h₆.baGang, nil _⟩ h₆
  have h₈ : a₈.Within (Util.leaving p.pai a₀) := .ite ⟨nil _, nil _, nil _, nil _⟩ h₇
  exact .ite ⟨h₈.peng, h₈.tou, h₈.baGang, h₈.chi⟩ h₈

/-- A section of three `tile`s is shown, and a fourth one is in the hand. -/
def CanAdd (pai : Pai) (tile : Nat) : Prop :=
  0 < pai.shouPai tile ∧ ∃ s ∈ pai.mingPai, s.three = some tile

/-- What is offered after a draw, the drawn card being in the hand. -/
theorem getActions_mo {mo : Nat} (held : 0 < (t.player chair).pai.shouPai mo) :
    (∀ x ∈ (getActions c t chair (some mo) none canEat canBa).tou,
      3 ≤ (t.player chair).pai.shouPai x) ∧
    ∀ x ∈ (getActions c t chair (some mo) none canEat canBa).baGang,
      CanAdd (t.player chair).pai x := by
  have sub : (getActions c t chair (some mo) none canEat canBa).Within _ := getActions_within
  constructor
  · intro x mem
    have := (List.mem_filter.1 (sub.tou mem)).2
    simp only [decide_eq_true_eq] at this
    omega
  · intro x mem
    obtain ⟨shown, which⟩ := List.mem_filter.1 (sub.baGang mem)
    simp only [decide_eq_true_eq] at which
    refine ⟨?_, List.mem_filterMap.1 shown⟩
    cases which with
    | inl same => exact same ▸ held
    | inr held => exact held

/-- What is offered when a card is discarded or flipped. -/
theorem getActions_in {tile : Nat} :
    let a := getActions c t chair none (some tile) canEat canBa
    (∀ x ∈ a.peng, x = tile ∧ 2 ≤ (t.player chair).pai.shouPai tile) ∧
    (∀ e ∈ a.chi, e.2 = tile ∧ 0 < (t.player chair).pai.shouPai e.1 ∧
      ∀ unusable ∈ (t.player chair).pai.unUsecard,
        chiLeaves (t.player chair).pai unusable e.1 e.2) ∧
    a.tou = [] ∧ (canBa = false → a.baGang = []) := by
  intro a
  have sub : a.Within _ := getActions_within
  refine ⟨fun x mem => ?_, fun e mem => ?_, ?_, fun no => ?_⟩
  · have := sub.peng mem
    simp only [Util.leaving, Util.getActions, List.mem_ite_nil_right, List.mem_singleton] at this
    exact ⟨this.2, this.1⟩
  · obtain ⟨made, leaves⟩ := List.mem_filter.1 (sub.chi mem)
    rw [Option.all_eq_true] at leaves
    simp only [Util.getActions, List.mem_ite_nil_right, List.mem_map, List.mem_filter,
      decide_eq_true_eq] at made
    obtain ⟨_, key, ⟨_, held, _⟩, rfl⟩ := made
    exact ⟨rfl, held, leaves⟩
  · exact List.subset_nil.1 sub.tou
  · have none : a.baGang ⊆ [] := by simpa [Util.leaving, Util.getActions, Actions.none, no] using sub.baGang
    exact List.subset_nil.1 none

theorem getActionsFirstTurn_keys {a : Actions} (h : getActionsFirstTurn t chair = some a) :
    a.tou = (List.range' 1 50).filter (fun x => 3 ≤ (t.player chair).pai.shouPai x) ∧
      a.baGang = ((t.player chair).pai.mingPai.filterMap Section.three).filter
        fun x => 0 < (t.player chair).pai.shouPai x := by
  obtain ⟨base, found, rfl⟩ := Option.map_eq_some_iff.1 h
  have own : base.tou = (List.range' 1 50).filter (fun x => 3 ≤ (t.player chair).pai.shouPai x) ∧
      base.baGang = ((t.player chair).pai.mingPai.filterMap Section.three).filter
        fun x => 0 < (t.player chair).pai.shouPai x := by
    unfold Util.getActionsFirstTurn at found
    split at found
    · obtain ⟨mo, _, rfl⟩ := Option.map_eq_some_iff.1 found
      exact ⟨rfl, rfl⟩
    · rw [← Option.some.inj found]
      exact ⟨rfl, rfl⟩
  split <;> exact own

/-- What is offered in the opening. -/
theorem getActionsFirstTurn_own {a : Actions} (h : getActionsFirstTurn t chair = some a) :
    (∀ x ∈ a.tou, 3 ≤ (t.player chair).pai.shouPai x) ∧
      ∀ x ∈ a.baGang, CanAdd (t.player chair).pai x := by
  rw [(getActionsFirstTurn_keys h).1, (getActionsFirstTurn_keys h).2]
  constructor
  · intro x mem
    simpa using (List.mem_filter.1 mem).2
  · intro x mem
    obtain ⟨shown, held⟩ := List.mem_filter.1 mem
    exact ⟨by simpa using held, List.mem_filterMap.1 shown⟩

theorem Actions.not_isEmpty_of_baGang {a : Actions} {x : Nat} (h : x ∈ a.baGang) :
    a.isEmpty = false := by
  have mem : Action.baGang ∈ a.offered := by
    refine List.mem_filter.2 ⟨by simp, ?_⟩
    exact decide_eq_true (List.ne_nil_of_mem h)
  simpa [Actions.isEmpty] using List.ne_nil_of_mem mem

namespace Table

variable {waiting : List Offer} {msg : Msg} {offer : Offer}

/-- A message that is let through answers an offer made to its sender. -/
theorem checkActionBeforeDo_some (h : checkActionBeforeDo waiting chair msg = some offer) :
    offer ∈ waiting ∧ offer.chair = chair ∧
      (msg.action ≠ .pass → offer.actions.keys msg.action ≠ []) ∧
      (msg.action = .baGang → ∃ x ∈ offer.actions.baGang, place msg.valueTile = some x) := by
  unfold checkActionBeforeDo at h
  obtain ⟨o, found, h⟩ := Option.bind_eq_some_iff.1 h
  have here : o ∈ waiting ∧ o.chair = chair :=
    ⟨List.mem_of_find?_eq_some found, by simpa using List.find?_some found⟩
  split at h
  · cases h
  · split at h
    · rename_i pass
      obtain rfl := Option.some.inj h
      exact ⟨here.1, here.2, fun other => absurd pass other, fun gang => absurd (pass.symm.trans gang)
        (by decide)⟩
    · split at h
      · cases h
      · rename_i gang
        split at h
        · cases h
        · rename_i keys
          obtain rfl := Option.some.inj h
          refine ⟨here.1, here.2, fun _ => keys, fun isGang => ?_⟩
          by_contra none
          refine gang ⟨isGang, ?_⟩
          simp only [Option.all_eq_true, decide_eq_true_eq]
          exact fun x value mem => none ⟨x, mem, value⟩

theorem mem_markDone {o : Offer} (h : o ∈ markDone waiting chair msg) :
    ∃ old ∈ waiting, o.chair = old.chair ∧ o.actions = old.actions ∧
      (o.done = old.done ∨ (old.chair = chair ∧
        o.done = some ⟨msg.action, place msg.valueTile, place msg.otherTile⟩)) := by
  obtain ⟨old, mem, rfl⟩ := List.mem_map.1 h
  refine ⟨old, mem, ?_⟩
  split
  · rename_i same
    exact ⟨rfl, rfl, .inr ⟨same, rfl⟩⟩
  · exact ⟨rfl, rfl, .inl rfl⟩

theorem first_mem {α : Type} {cur : Nat} {key : α → Action × Nat} {l : List α} {x : α}
    (h : first cur key l = some x) : x ∈ l := by
  induction l with
  | nil => cases h
  | cons y rest ih =>
      rw [first] at h
      split at h
      · rw [Option.some.inj h]
        exact List.mem_cons_self
      · rename_i z found
        split at h
        · exact List.mem_cons_of_mem y (ih (found.trans h))
        · rw [Option.some.inj h]
          exact List.mem_cons_self

theorem mem_allActions {a : Offer × Done} (h : a ∈ allActions waiting) :
    a.1 ∈ waiting ∧ a.1.done = some a.2 := by
  obtain ⟨o, mem, made⟩ := List.mem_filterMap.1 h
  obtain ⟨done, answered, rfl⟩ := Option.map_eq_some_iff.1 made
  exact ⟨mem, answered⟩

theorem mem_waitFor {l : List (Nat × Actions)} {o : Offer}
    (h : o ∈ (t.waitFor l).waitingActions.getD []) : (o.chair, o.actions) ∈ l ∧ o.done = none := by
  obtain ⟨e, mem, rfl⟩ := List.mem_map.1 h
  exact ⟨List.fst_mem_of_mem_zipIdx mem, rfl⟩

end Table

end FkServer.ChangpaiZigong
