import FkServer.MaajanXuezhan.Offers

/-!
The exchange of tiles and the void suits before the first discard, as moves of the
game: everybody's tiles go to one other player, whichever way round they go.
-/
namespace FkServer.MaajanXuezhan

open Relation (ReflTransGen)
open Rotation (forward backward places)

variable {c : Conf} {ok : Guard} {s s' : State}

/-! ### Who gets whose tiles -/

theorem Conf.seats_places (c : Conf) {chair : Nat} (seated : chair ∈ c.seats) :
    chair ∈ places c.chairCount :=
  c.seats_in chair seated

theorem Conf.chairCount_pos (c : Conf) : 0 < c.chairCount := by
  have ⟨low, high⟩ := c.seats_in c.zhuang c.zhuang_in
  omega

/-- With four players every chair from 1 to 4 is taken. -/
theorem Conf.four_seats {c : Conf} (four : c.seats.length = 4) {chair : Nat} (low : 1 ≤ chair)
    (high : chair ≤ 4) : chair ∈ c.seats := by
  have inside : c.seats ⊆ List.range' 1 4 := by
    intro i seated
    have := c.seats_in i seated
    have := c.chairs_le
    rw [List.mem_range'_1]
    omega
  have perm := (List.subperm_of_subset c.seats_nodup inside).perm_of_length_le (by simp [four])
  exact perm.mem_iff.2 (by rw [List.mem_range'_1]; omega)

theorem seek_target {next : Nat → Nat} (maps : Set.MapsTo next (places c.chairCount) (places c.chairCount))
    (inj : Set.InjOn next (places c.chairCount)) :
    let target := fun chair =>
      (Rotation.seek next c.seats.contains c.chairCount chair).getD chair
    (∀ chair ∈ c.seats, target chair ∈ c.seats) ∧
      ((∀ chair ∈ c.seats, ∃ found,
          Rotation.seek next c.seats.contains c.chairCount chair = some found) →
        ∀ a ∈ c.seats, ∀ b ∈ c.seats, target a = target b → a = b) := by
  intro target
  constructor
  · intro chair seated
    dsimp only [target]
    cases found : Rotation.seek next c.seats.contains c.chairCount chair with
    | none => exact seated
    | some other =>
        obtain ⟨_, _, _, stops, _⟩ := Rotation.seek_eq_some found
        exact List.contains_iff_mem.1 stops
  · intro finds a seated_a b seated_b same
    obtain ⟨found_a, from_a⟩ := finds a seated_a
    obtain ⟨found_b, from_b⟩ := finds b seated_b
    simp only [target, from_a, from_b, Option.getD_some] at same
    subst same
    exact Rotation.seek_inj maps inj (c.seats_places seated_a) (c.seats_places seated_b)
      (List.contains_iff_mem.2 seated_a) (List.contains_iff_mem.2 seated_b) from_a from_b

/-- A search for an occupied chair comes back to where it started. -/
theorem seek_back {next : Nat → Nat} {chair : Nat} (seated : chair ∈ c.seats)
    (round : ∃ k, k < c.chairCount ∧ next^[k + 1] chair = chair) :
    ∃ found, Rotation.seek next c.seats.contains c.chairCount chair = some found := by
  obtain ⟨k, within, back⟩ := round
  exact Rotation.seek_isSome within (by rw [back]; exact List.contains_iff_mem.2 seated)

theorem huanTarget_perm (c : Conf) (rnd : Nat) :
    (c.seats.map (huanTarget c (huanOrder c rnd))).Perm c.seats := by
  have enough : ∀ target : Nat → Nat, (∀ chair ∈ c.seats, target chair ∈ c.seats) →
      (∀ a ∈ c.seats, ∀ b ∈ c.seats, target a = target b → a = b) →
      (c.seats.map target).Perm c.seats := by
    intro target inside inj
    have nodup : (c.seats.map target).Nodup :=
      c.seats_nodup.map_on fun a ha b hb same => inj a ha b hb same
    have subset : c.seats.map target ⊆ c.seats := by
      intro i h
      obtain ⟨chair, seated, rfl⟩ := List.mem_map.1 h
      exact inside chair seated
    exact (List.subperm_of_subset nodup subset).perm_of_length_le (by simp)
  have pos := c.chairCount_pos
  have back := @seek_target c (backward c.chairCount)
    (fun place _ => Rotation.backward_mem pos place) (Rotation.backward_injOn _)
  have forth := @seek_target c (forward c.chairCount)
    (fun place _ => Rotation.forward_mem pos place) (Rotation.forward_injOn _)
  match order : huanOrder c rnd with
  | 0 =>
      exact enough _ back.1 (back.2 fun chair seated =>
        seek_back seated (Rotation.backward_round pos (c.seats_places seated)))
  | 1 =>
      exact enough _ forth.1 (forth.2 fun chair seated =>
        seek_back seated (Rotation.forward_round (c.seats_places seated)))
  | k + 2 =>
      have four : c.seats.length = 4 := by
        unfold huanOrder at order
        split at order
        · assumption
        · omega
      have range : ∀ chair ∈ c.seats, 1 ≤ chair ∧ chair ≤ 4 := by
        intro chair seated
        have := c.seats_in chair seated
        have := c.chairs_le
        omega
      apply enough
      · intro chair seated
        exact c.four_seats four (Nat.succ_pos _) (Nat.mod_lt _ (by decide))
      · intro a ha b hb same
        have := range a ha
        have := range b hb
        simp only [huanTarget] at same
        omega

/-! ### The tiles change hands -/

theorem decrAll_apply (counts : Counts) (tiles : List Nat) (t : Nat) :
    decrAll counts tiles t = counts t - tiles.count t := by
  unfold decrAll
  induction tiles generalizing counts with
  | nil => simp
  | cons tile tiles ih =>
      rw [List.foldl_cons, ih, decr_apply, List.count_cons]
      by_cases here : t = tile
      · simp [here]
        omega
      · simp [here, Ne.symm here]

theorem incrAll_apply (counts : Counts) (tiles : List Nat) (t : Nat) :
    incrAll counts tiles t = counts t + tiles.count t := by
  unfold incrAll
  induction tiles generalizing counts with
  | nil => simp
  | cons tile tiles ih =>
      rw [List.foldl_cons, ih, incr_apply, List.count_cons]
      by_cases here : t = tile
      · simp [here]
        omega
      · simp [here, Ne.symm here]

/-- Changing hands one after another changes nothing but the hands, and each hand by
all the changes that go to it. -/
theorem foldl_hands {target : Nat → Nat} {f : Nat → Counts → Counts} {change : Nat → Nat → Int}
    (each : ∀ i counts t, f i counts t = counts t + change i t) (chairs : List Nat) (s : State)
    (phase : Phase) :
    view (chairs.foldl (fun s i => s.update (target i) fun p => p.withShouPai (f i)) s) phase =
      (view s phase).setHand fun chair t => (view s phase).hand chair t +
        ((chairs.filter fun i => target i = chair).map fun i => change i t).sum := by
  induction chairs generalizing s with
  | nil => simp [Game.setHand]
  | cons i chairs ih =>
      rw [List.foldl_cons, ih, view_withShouPai]
      unfold Game.setHand
      congr 1
      funext chair t
      dsimp only
      by_cases here : chair = target i
      · subst here
        rw [List.filter_cons_of_pos (by simp), List.map_cons, List.sum_cons, alter_self, each]
        omega
      · rw [alter_of_ne here, List.filter_cons_of_neg (by simpa using Ne.symm here)]

theorem sum_filter_self {chairs : List Nat} (nodup : chairs.Nodup) (chair : Nat) (f : Nat → Int) :
    ((chairs.filter fun i => i = chair).map f).sum = if chair ∈ chairs then f chair else 0 := by
  rw [List.filter_eq]
  split
  · rename_i listed
    rw [List.count_eq_one_of_mem nodup listed]
    simp
  · rename_i not_listed
    rw [List.count_eq_zero_of_not_mem not_listed]
    simp

theorem view_doHuanPai (c : Conf) (s : State) (rnd : Nat) (phase : Phase) :
    view (doHuanPai c s rnd) phase =
      (view s phase).setHand ((view s phase).exchange c (huanTarget c (huanOrder c rnd))).hand := by
  have push := @foldl_hands (huanTarget c (huanOrder c rnd))
    (fun i counts => incrAll counts ((s.player i).pai.huan.getD []))
    (fun i t => (((s.player i).pai.huan.getD []).count t : Nat))
    (fun i counts t => incrAll_apply counts _ t)
  have pop := @foldl_hands id
    (fun i counts => decrAll counts ((s.player i).pai.huan.getD []))
    (fun i t => -(((s.player i).pai.huan.getD []).count t : Nat))
    (fun i counts t => decrAll_apply counts _ t)
  have popped := pop c.seats s phase
  dsimp only [id] at popped
  unfold doHuanPai
  refine (push _ _ _).trans ?_
  dsimp only
  rw [popped]
  unfold Game.setHand Game.exchange
  congr 1
  funext chair t
  dsimp only
  rw [sum_filter_self c.seats_nodup]
  split
  · rfl
  · simp only [Int.add_zero, Int.sub_zero]
    rfl

/-! ### Up to the first discard -/

theorem choiceFirstTurnMoPai_held {rnd tile : Nat} (h : choiceFirstTurnMoPai s rnd = some tile) :
    0 < s.chuPaiPlayer.pai.shouPai tile := by
  obtain ⟨within, rfl⟩ := List.getElem?_eq_some_iff.1 h
  simpa using (List.mem_filter.1 (List.getElem_mem within)).2

/-- The table after the dealer has got a tile to look at. -/
def looked (s : State) (rnd : Nat) : State :=
  s.update s.chuPaiPlayerIndex fun p => { p with moPai := choiceFirstTurnMoPai s rnd }

theorem looked_unseen (s : State) (rnd : Nat) : Unseen s (looked s rnd) :=
  .update s.chuPaiPlayerIndex (fun _ => rfl) (fun _ => rfl) (fun _ => rfl) fun _ => rfl

theorem moPai_looked (s : State) (rnd : Nat) :
    (looked s rnd).chuPaiPlayer.moPai = choiceFirstTurnMoPai s rnd := by
  simp [looked, State.update, State.chuPaiPlayer]

theorem actionAfterDingQue_eq (c : Conf) (s : State) (rnd : Nat) :
    actionAfterDingQue c s rnd =
      let actions := getActionsFirstTurn c (looked s rnd) s.chuPaiPlayerIndex
        (choiceFirstTurnMoPai s rnd)
      if actions.isEmpty then chuPai (looked s rnd)
      else actionAfterMoPai (looked s rnd) actions := rfl

theorem actionAfterDingQue_quiet (c : Conf) (ok : Guard) (s : State) (rnd : Nat) :
    Quiet c ok (view s (.act none)) (abs (actionAfterDingQue c s rnd)) := by
  rw [actionAfterDingQue_eq]
  dsimp only
  split
  · rw [show abs (chuPai (looked s rnd)) = view (looked s rnd) (.act none) from rfl,
      (looked_unseen s rnd).view]
  · have seen : ∀ actions, abs (actionAfterMoPai (looked s rnd) actions) =
        view s (.act (choiceFirstTurnMoPai s rnd)) := by
      intro actions
      rw [← (looked_unseen s rnd).view, ← moPai_looked s rnd]
      rfl
    rw [seen]
    have look : Move c ok false (view s (.act none))
        { view s (.act none) with phase := .act (choiceFirstTurnMoPai s rnd) } :=
      .look rfl fun t chosen => choiceFirstTurnMoPai_held chosen
    exact .single look

theorem actionAfterDingQue_offers (c : Conf) (s : State) (rnd : Nat) :
    Offers c (actionAfterDingQue c s rnd) := by
  rw [actionAfterDingQue_eq]
  dsimp only
  split
  · trivial
  · refine ⟨rfl, ?_, ?_⟩
    · intro t offered
      exact anGang_offered_first (mem_getActionsFirstTurn offered)
    · intro t offered
      exact absurd (mem_getActionsFirstTurn offered) baGang_not_offered_first

theorem jump_zhuang (turn : s.chuPaiPlayerIndex = c.zhuang) (phase : Phase) :
    view (jumpToPlayerIndex s c.zhuang) phase = view s phase := by
  rw [view_jump, ← turn]
  rfl

theorem dingQue_quiet (ok : Guard) (turn : s.chuPaiPlayerIndex = c.zhuang) (rnd : Nat) :
    Quiet c ok (view s (.act none)) (abs (dingQue c s rnd)) := by
  unfold dingQue
  split
  · rw [← jump_zhuang turn]
    exact actionAfterDingQue_quiet c ok _ rnd
  · exact .refl

theorem dingQue_offers (turn : s.chuPaiPlayerIndex = c.zhuang) (rnd : Nat) :
    Offers c (dingQue c s rnd) := by
  unfold dingQue
  split
  · exact actionAfterDingQue_offers c _ rnd
  · exact turn

theorem onDingQue_burst (fsm : s.fsm = .dingQue) (turn : s.chuPaiPlayerIndex = c.zhuang)
    (chair men rnd : Nat) :
    Burst c ok (abs s) (abs (onDingQue c s chair men rnd)) ∧ Offers c (onDingQue c s chair men rnd) := by
  have here : abs s = view s (.act none) := by rw [abs, phaseOf, fsm]
  have offers : Offers c s := by rw [Offers, fsm]; exact turn
  unfold onDingQue
  split
  · exact ⟨.inl rfl, offers⟩
  · have chosen : Unseen s (s.update chair fun p => { p with que := some men }) :=
      .update chair (fun _ => rfl) (fun _ => rfl) (fun _ => rfl) fun _ => rfl
    have same_fsm : (s.update chair fun p => { p with que := some men }).fsm = .dingQue := fsm
    dsimp only
    generalize (s.update chair fun p => { p with que := some men }) = s₁ at chosen same_fsm ⊢
    have turn₁ : s₁.chuPaiPlayerIndex = c.zhuang := chosen.turn.trans turn
    split
    · have moves := actionAfterDingQue_quiet c ok (jumpToPlayerIndex s₁ c.zhuang) rnd
      rw [jump_zhuang turn₁, chosen.view, ← here] at moves
      exact ⟨.of_quiet moves, actionAfterDingQue_offers c _ rnd⟩
    · have same : abs s₁ = abs s := by rw [here, abs, phaseOf, same_fsm, chosen.view]
      refine ⟨.inl same.symm, ?_⟩
      rw [Offers, same_fsm]
      exact turn₁

theorem onHuanPai_burst {huan : HuanConf} {chair : Nat} {tiles : List Nat}
    (conf : c.huan = some huan) (fsm : s.fsm = .huanPai) (turn : s.chuPaiPlayerIndex = c.zhuang) (seated : chair ∈ c.seats)
    (fair : ok.give (abs s) chair tiles) (rnd : Nat) :
    Burst c ok (abs s) (abs (onHuanPai c s huan chair tiles rnd)) ∧
      Offers c (onHuanPai c s huan chair tiles rnd) := by
  have here : abs s = view s .exchange := by rw [abs, phaseOf, fsm]
  have offers : Offers c s := by rw [Offers, fsm]; exact turn
  unfold onHuanPai
  split
  · exact ⟨.inl rfl, offers⟩
  split
  · exact ⟨.inl rfl, offers⟩
  split
  · exact ⟨.inl rfl, offers⟩
  split
  · exact ⟨.inl rfl, offers⟩
  rename_i fresh held count _
  have move : Move c ok false (abs s) ((abs s).give chair tiles) := by
    apply Move.give _ seated _ _ ⟨huan, conf, not_not.1 count⟩ fair
    · rw [here]
      rfl
    · exact Option.not_isSome_iff_eq_none.1 fresh
    · intro t listed none_held
      exact held (List.any_eq_true.2 ⟨t, listed, decide_eq_true none_held⟩)
  have given := view_huan s chair tiles
  have same_fsm : (s.update chair fun p =>
      { p with pai := { p.pai with huan := some tiles } }).fsm = .huanPai := fsm
  have same_turn : (s.update chair fun p =>
      { p with pai := { p.pai with huan := some tiles } }).chuPaiPlayerIndex = c.zhuang := turn
  dsimp only
  generalize (s.update chair fun p => { p with pai := { p.pai with huan := some tiles } }) = s₁
    at given same_fsm same_turn ⊢
  have now : abs s₁ = (abs s).give chair tiles := by rw [here, abs, phaseOf, same_fsm, given]
  split
  · rename_i all_given
    have swap : Move c ok false (abs s₁) ((abs s₁).exchange c (huanTarget c (huanOrder c rnd))) := by
      apply Move.exchange _ _ (huanTarget_perm c rnd)
      · rw [abs, phaseOf, same_fsm]
        rfl
      · simpa [abs, view] using all_given
    have swapped : view (doHuanPai c s₁ rnd) (.act none) =
        (abs s₁).exchange c (huanTarget c (huanOrder c rnd)) := by
      rw [view_doHuanPai, abs, phaseOf, same_fsm]
      rfl
    have turn₁ : (doHuanPai c s₁ rnd).chuPaiPlayerIndex = c.zhuang :=
      (congrArg Game.turn swapped).trans same_turn
    have rest := dingQue_quiet ok turn₁ (rnd / 3)
    rw [swapped] at rest
    rw [← now] at move
    exact ⟨.inr ⟨false, _, move, .head swap rest⟩, dingQue_offers turn₁ _⟩
  · refine ⟨.inr ⟨false, _, move, now ▸ .refl⟩, ?_⟩
    rw [Offers, same_fsm]
    exact same_turn

end FkServer.MaajanXuezhan
