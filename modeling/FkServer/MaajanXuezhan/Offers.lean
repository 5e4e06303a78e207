import FkServer.MaajanXuezhan.View

/-!
What the table waits for are moves that the game allows: tiles for a meld are in the
hand, claims are for the discard on top of the desk, and nobody who has won or is on
turn is asked.
-/
namespace FkServer.MaajanXuezhan

variable {c : Conf} {s s' : State}

/-! ### Offered actions -/

theorem mem_getActions {chair : Nat} {moPai inPai : Option Nat} {qiangGang : Bool}
    {act : Action × Nat} (h : act ∈ getActions c s chair moPai inPai qiangGang) :
    act ∈ paiActions (s.player chair).pai moPai inPai c.play.siDui :=
  List.mem_of_mem_filter h

theorem mem_getActionsFirstTurn {chair : Nat} {moPai : Option Nat} {act : Action × Nat}
    (h : act ∈ getActionsFirstTurn c s chair moPai) :
    act ∈ paiActionsFirstTurn (s.player chair).pai moPai c.play.siDui :=
  List.mem_of_mem_filter h

/-- A gang from the hand needs its four tiles. -/
theorem anGang_offered {pai : Pai} {moPai inPai : Option Nat} {siDui : Bool} {tile : Nat}
    (h : (Action.anGang, tile) ∈ paiActions pai moPai inPai siDui) : pai.shouPai tile = 4 := by
  cases moPai <;> cases inPai <;> simp [paiActions] at h
  · exact h.2
  · exact h.2

theorem anGang_offered_first {pai : Pai} {moPai : Option Nat} {siDui : Bool} {tile : Nat}
    (h : (Action.anGang, tile) ∈ paiActionsFirstTurn pai moPai siDui) : pai.shouPai tile = 4 := by
  simp [paiActionsFirstTurn] at h
  exact h.2

theorem baGang_not_offered_first {pai : Pai} {moPai : Option Nat} {siDui : Bool} {tile : Nat} :
    (Action.baGang, tile) ∉ paiActionsFirstTurn pai moPai siDui := by
  simp [paiActionsFirstTurn]

/-- A tile is added to a triplet when it is in the hand or was just drawn. -/
theorem baGang_offered {pai : Pai} {drawn tile : Nat} {inPai : Option Nat} {siDui : Bool}
    (h : (Action.baGang, tile) ∈ paiActions pai (some drawn) inPai siDui) :
    (0 < pai.shouPai tile ∨ drawn = tile) ∧
      ∃ old, pai.mingPai.find? (Section.isPeng tile) = some old := by
  have found : (∃ sec ∈ pai.mingPai, sec.tile = tile ∧ sec.type = .peng) →
      ∃ old, pai.mingPai.find? (Section.isPeng tile) = some old := by
    rintro ⟨sec, laid, is_peng⟩
    have some_found : (pai.mingPai.find? (Section.isPeng tile)).isSome := by
      rw [List.find?_isSome]
      exact ⟨sec, laid, by simpa [Section.isPeng] using is_peng⟩
    exact Option.isSome_iff_exists.1 some_found
  cases inPai <;> simp [paiActions] at h
  all_goals
    cases h with
    | inl just => exact ⟨.inr just.2.symm, found (just.2 ▸ just.1)⟩
    | inr held => exact ⟨.inl held.2.1, found held.2.2⟩

/-- What is offered on a discard is offered for its tile, and for a meld the hand
has the other tiles. -/
theorem claim_offered {pai : Pai} {tile : Nat} {siDui : Bool} {act : Action × Nat}
    (h : act ∈ paiActions pai none (some tile) siDui) :
    act.2 = tile ∧ (act.1 = .peng → 2 ≤ pai.shouPai tile) ∧
      (act.1 = .mingGang → pai.shouPai tile = 3) ∧ act.1 ∈ [.mingGang, .peng, .hu] := by
  simp only [paiActions, List.nil_append, List.append_nil, List.mem_append] at h
  rcases h with (gang | peng) | hu
  · split at gang
    · rename_i three
      cases List.mem_singleton.1 gang
      exact ⟨rfl, nofun, fun _ => three, by simp⟩
    · cases gang
  · split at peng
    · rename_i two
      cases List.mem_singleton.1 peng
      exact ⟨rfl, fun _ => two, nofun, by simp⟩
    · cases peng
  · split at hu
    · cases List.mem_singleton.1 hu
      exact ⟨rfl, nofun, nofun, by simp⟩
    · cases hu

/-! ### What a waiting player is offered -/

/-- The player on turn with a drawn tile. -/
structure OwnOffer (g : Game) (moPai : Option Nat) (w : Waiting) : Prop where
  own : w.chairId = g.turn
  anGang : ∀ tile, (Action.anGang, tile) ∈ w.actions → g.hand g.turn tile = 4
  baGang : ∀ tile, (Action.baGang, tile) ∈ w.actions →
    (0 < g.hand g.turn tile ∨ moPai = some tile) ∧
      ∃ old, (g.melds g.turn).find? (Section.isPeng tile) = some old

/-- Another player, asked for the tile of the player on turn. -/
structure Offer (c : Conf) (g : Game) (session tile : Nat) (w : Waiting) : Prop where
  free : g.Free c w.chairId
  actions : ∀ act ∈ w.actions, act.2 = tile
  done : ∀ act, w.done = some act → act.1 = .pass ∨ act ∈ w.actions
  session_le : w.sessionId ≤ session

structure ClaimOffer (c : Conf) (g : Game) (session tile : Nat) (w : Waiting) : Prop
    extends Offer c g session tile w where
  peng : ∀ act ∈ w.actions, act.1 = .peng → 2 ≤ g.hand w.chairId tile
  mingGang : ∀ act ∈ w.actions, act.1 = .mingGang → g.hand w.chairId tile = 3
  kinds : ∀ act ∈ w.actions, act.1 ∈ [.mingGang, .peng, .hu]

structure RobOffer (c : Conf) (g : Game) (session tile : Nat) (w : Waiting) : Prop
    extends Offer c g session tile w where
  kinds : ∀ act ∈ w.actions, act.1 = .qiangGangHu

/-- The players who are asked about one tile. -/
structure Asked (each : Waiting → Prop) (waiting : List Waiting) : Prop where
  somebody : waiting ≠ []
  nodup : (waiting.map Waiting.chairId).Nodup
  each : ∀ w ∈ waiting, each w

def Offers (c : Conf) (s : State) : Prop :=
  match s.fsm with
  | .huanPai | .dingQue => s.chuPaiPlayerIndex = c.zhuang
  | .waitActionAfterMoPai w => OwnOffer (abs s) s.chuPaiPlayer.moPai w
  | .waitActionAfterChuPai waiting => ∃ tile,
      ((abs s).desk (abs s).turn).getLast? = some tile ∧ s.chuPaiPlayer.chuPai = some tile ∧
        Asked (ClaimOffer c (abs s) s.sessionId tile) waiting
  | .waitQiangGangHu tile waiting =>
      (∃ old, ((abs s).melds (abs s).turn).find? (Section.isPeng tile) = some old) ∧
        Asked (RobOffer c (abs s) s.sessionId tile) waiting
  | .waitChuPai | .over _ _ => True

theorem offers_doneLastAction (chair : Nat) (action : Option (Action × Nat)) :
    Offers c (doneLastAction s chair action) ↔ Offers c s := Iff.rfl

theorem moPai_offers (c : Conf) (s : State) (rnd : Nat) : Offers c (moPai c s rnd) := by
  rw [moPai_eq]
  cases s.dealer.dealOne rnd with
  | none => trivial
  | some dealt =>
      obtain ⟨tile, dealer⟩ := dealt
      dsimp only
      split
      · trivial
      · refine ⟨rfl, ?_, ?_⟩
        · intro t offered
          exact anGang_offered (mem_getActions offered)
        · intro t offered
          obtain ⟨held, old⟩ := baGang_offered (mem_getActions offered)
          refine ⟨?_, old⟩
          cases held with
          | inl held => exact .inl held
          | inr just => exact .inr ((moPai_drawn s tile dealer).trans (congrArg some just))

theorem afterHu_offers {from_ rnd : Nat} (h : afterHu c s from_ rnd = some s') : Offers c s' := by
  unfold afterHu at h
  split at h
  · cases h
    trivial
  · obtain ⟨s₁, _, rfl⟩ := Option.map_eq_some_iff.1 h
    exact moPai_offers c s₁ rnd

/-! ### Who is asked -/

/-- The entries of `collect` are the chairs that have something to do. -/
theorem mem_collect {offers : Nat → List (Action × Nat)} {chairs : List Nat} {session : Nat}
    {w : Waiting} (h : w ∈ (collect offers chairs session).1) :
    w.chairId ∈ chairs ∧ w.actions = offers w.chairId ∧ w.done = none ∧
      (offers w.chairId).isEmpty = false ∧ session < w.sessionId ∧
        w.sessionId ≤ (collect offers chairs session).2 := by
  have grows : ∀ (chairs : List Nat) (session : Nat), session ≤ (collect offers chairs session).2 := by
    intro chairs
    induction chairs with
    | nil => exact fun _ => Nat.le_refl _
    | cons chair rest ih =>
        intro session
        unfold collect
        split
        · exact ih session
        · exact (Nat.le_succ session).trans (ih (session + 1))
  induction chairs generalizing session with
  | nil => cases h
  | cons chair rest ih =>
      unfold collect at h ⊢
      split at h
      · rename_i nothing
        obtain ⟨listed, others⟩ := ih h
        rw [if_pos nothing]
        exact ⟨.tail _ listed, others⟩
      · rename_i something
        rw [if_neg something]
        cases List.mem_cons.1 h with
        | inl here =>
            subst here
            exact ⟨.head _, rfl, rfl, Bool.eq_false_of_not_eq_true something, Nat.lt_succ_self _,
              grows rest (session + 1)⟩
        | inr later =>
            obtain ⟨listed, acts, undone, some_act, after, before⟩ := ih later
            exact ⟨.tail _ listed, acts, undone, some_act, by omega, before⟩

theorem collect_nodup {offers : Nat → List (Action × Nat)} {chairs : List Nat} {session : Nat}
    (nodup : chairs.Nodup) : ((collect offers chairs session).1.map Waiting.chairId).Nodup := by
  induction chairs generalizing session with
  | nil => exact List.nodup_nil
  | cons chair rest ih =>
      rw [List.nodup_cons] at nodup
      unfold collect
      split
      · exact ih nodup.2
      · rw [List.map_cons, List.nodup_cons]
        refine ⟨?_, ih nodup.2⟩
        intro again
        obtain ⟨w, listed, same⟩ := List.mem_map.1 again
        exact nodup.1 ((show w.chairId = chair from same) ▸ (mem_collect listed).1)

/-- A table of waiting actions in the order in which `pairs` meets it. -/
theorem asked_pairs {each : Waiting → Prop} {offers : Nat → List (Action × Nat)} {session : Nat}
    (some_left : (collect offers c.seats session).1.isEmpty = false)
    (all : ∀ w ∈ (collect offers c.seats session).1, each w) :
    Asked each (c.pairs (collect offers c.seats session).1) := by
  have perm := c.pairs_perm (collect offers c.seats session).1
  refine ⟨?_, ?_, ?_⟩
  · intro none_left
    have := perm.length_eq
    rw [none_left, List.length_nil, eq_comm, List.length_eq_zero_iff] at this
    rw [this] at some_left
    cases some_left
  · exact (perm.map Waiting.chairId).nodup_iff.2 (collect_nodup c.seats_nodup)
  · exact fun w listed => all w (perm.mem_iff.1 listed)

theorem asked_setDone {each : Waiting → Prop} {waiting : List Waiting} {chair : Nat}
    {act : Action × Nat} (asked : Asked each waiting)
    (answers : ∀ w ∈ waiting, w.chairId = chair → each { w with done := some act }) :
    Asked each (setDone waiting chair act) := by
  have chairs : (setDone waiting chair act).map Waiting.chairId = waiting.map Waiting.chairId := by
    rw [setDone, List.map_map]
    apply List.map_congr_left
    intro w _
    dsimp only [Function.comp]
    split <;> rfl
  refine ⟨?_, chairs ▸ asked.nodup, ?_⟩
  · exact fun none_left => asked.somebody (List.map_eq_nil_iff.1 none_left)
  · intro w' listed
    obtain ⟨w, here, rfl⟩ := List.mem_map.1 listed
    split
    · rename_i same
      exact answers w here same
    · exact asked.each w here

/-- An accepted answer is a pass or one of the actions offered to the player. -/
theorem accepted {waiting : List Waiting} {chair tile session : Nat} {action : Action}
    {w : Waiting} (h : checkActionBeforeDo waiting chair action tile session = some w) :
    w ∈ waiting ∧ w.chairId = chair ∧ w.sessionId = session ∧
      (action = .pass ∨ (action, tile) ∈ w.actions) := by
  obtain ⟨found, valid⟩ := Option.filter_eq_some_iff.1 h
  rw [decide_eq_true_eq] at valid
  exact ⟨List.mem_of_find?_eq_some found, by simpa using List.find?_some found, valid.1, valid.2⟩

/-- Each chair is asked once, so the accepted answer is for its only entry. -/
theorem Asked.unique {each : Waiting → Prop} {waiting : List Waiting} (asked : Asked each waiting)
    {w w' : Waiting} (h : w ∈ waiting) (h' : w' ∈ waiting) (same : w.chairId = w'.chairId) :
    w = w' :=
  List.inj_on_of_nodup_map asked.nodup h h' same

/-- An accepted answer keeps what is known of the offers if the offer it answers keeps it. -/
theorem Asked.answered {each : Waiting → Prop} {waiting : List Waiting} (asked : Asked each waiting)
    {chair tile session : Nat} {action : Action} {w : Waiting}
    (h : checkActionBeforeDo waiting chair action tile session = some w)
    (keeps : each w → action = .pass ∨ (action, tile) ∈ w.actions →
      each { w with done := some (action, tile) }) :
    Asked each (setDone waiting chair (action, tile)) := by
  obtain ⟨listed, same, _, valid⟩ := accepted h
  apply asked_setDone asked
  intro w' listed' same'
  obtain rfl := asked.unique listed' listed (same'.trans same.symm)
  exact keeps (asked.each w' listed') valid

section Answers

variable {g : Game} {session tile chair answered : Nat} {action : Action} {w : Waiting}
  {waiting : List Waiting}

theorem Offer.answer (offer : Offer c g session tile w) {act : Action × Nat}
    (valid : act.1 = .pass ∨ act ∈ w.actions) :
    Offer c g session tile { w with done := some act } where
  free := offer.free
  actions := offer.actions
  done := fun _ same => Option.some.inj same ▸ valid
  session_le := offer.session_le

/-- An accepted answer leaves the offers to the others, and to its player, as they are. -/
theorem Asked.claimAnswered {session' : Nat} (asked : Asked (ClaimOffer c g session tile) waiting)
    (h : checkActionBeforeDo waiting chair action answered session' = some w) :
    Asked (ClaimOffer c g session tile) (setDone waiting chair (action, answered)) := by
  refine asked.answered h fun offer valid => ?_
  exact ⟨offer.toOffer.answer valid, offer.peng, offer.mingGang, offer.kinds⟩

theorem Asked.robAnswered {session' : Nat} (asked : Asked (RobOffer c g session tile) waiting)
    (h : checkActionBeforeDo waiting chair action answered session' = some w) :
    Asked (RobOffer c g session tile) (setDone waiting chair (action, answered)) := by
  refine asked.answered h fun offer valid => ?_
  exact ⟨offer.toOffer.answer valid, offer.kinds⟩

end Answers

end FkServer.MaajanXuezhan
