import FkServer.ChangpaiZigong.Invariant

/-!
The handlers that make sections: what `adjust_shou_pai` does to the hand of the player
who makes one, and the steps that follow it.
-/
namespace FkServer.ChangpaiZigong

/-- A section is made of cards the player holds and of the card claimed. -/
inductive MeldMade (pai : Pai) (claimed : Option Nat) : List Section → Prop
  | peng (tile : Nat) : claimed = some tile → 2 ≤ pai.shouPai tile →
      MeldMade pai claimed (pai.mingPai ++ [.peng tile])
  | chi (tile othertile : Nat) : claimed = some tile → 0 < pai.shouPai othertile →
      MeldMade pai claimed (pai.mingPai ++ [.chi tile othertile])
  | tou (tile : Nat) : 3 ≤ pai.shouPai tile →
      MeldMade pai claimed (pai.mingPai ++ [.tou tile])
  | baGang (tile : Nat) (s : Section) : 0 < pai.shouPai tile → s ∈ pai.mingPai →
      s.three = some tile → MeldMade pai claimed (pai.mingPai.erase s ++ [.baGang tile])

/-- A step keeps the invariant, makes sections lawfully and makes up no card; where the
cards are watched it loses none either. -/
structure Moves (c : Conf) (aim : Aim) (claimed : Option Nat) (t t' : Table) : Prop where
  inv : Inv c aim t'
  melds : ∀ i, (t'.player i).pai.mingPai = (t.player i).pai.mingPai ∨
    MeldMade (t.player i).pai claimed (t'.player i).pai.mingPai
  cards : aim = .cards → t'.fsm ≠ .gameOver → ∀ x, total c t' x = total c t x
  fewer : t'.fsm ≠ .gameOver → ∀ x, total c t' x ≤ total c t x

variable {c : Conf} {aim : Aim} {claimed : Option Nat} {t t' t'' : Table} {i o x tile : Nat}
variable {n : Int} {secs : List Section}

theorem MeldMade.of_pai {p q : Pai} (made : MeldMade p claimed secs)
    (hand : p.shouPai = q.shouPai) (ming : p.mingPai = q.mingPai) : MeldMade q claimed secs := by
  cases made with
  | peng tile card held => exact ming ▸ .peng tile card (hand ▸ held)
  | chi tile othertile card held => exact ming ▸ .chi tile othertile card (hand ▸ held)
  | tou tile held => exact ming ▸ .tou tile (hand ▸ held)
  | baGang tile s held mem three => exact ming ▸ .baGang tile s (hand ▸ held) (ming ▸ mem) three

theorem Goes.moves (h : Goes c aim t t') : Moves c aim claimed t t' :=
  ⟨h.1, fun i => .inl (h.2.ming i), fun _ _ => h.2.cards, fun _ x => (h.2.cards x).le⟩

theorem Moves.after (h : Alike c t t')
    (hand : ∀ i, (t'.player i).pai.shouPai = (t.player i).pai.shouPai)
    (h' : Moves c aim claimed t' t'') : Moves c aim claimed t t'' := by
  refine ⟨h'.inv, fun i => ?_, fun watched running x => (h'.cards watched running x).trans (h.cards x),
    fun running x => (h'.fewer running x).trans (h.cards x).le⟩
  cases h'.melds i with
  | inl same => exact .inl (same.trans (h.ming i))
  | inr made => exact .inr (made.of_pai (hand i) (h.ming i))

theorem Goes.endsAfter {r : Run} (h : Alike c t t')
    (h' : EarlyExit.Ends (Goes c aim t') (Goes c aim t') r) :
    EarlyExit.Ends (Goes c aim t) (Goes c aim t) r :=
  h'.mono (fun _ goes => .after h goes) fun _ goes => .after h goes

theorem Goes.endsMoves {r : Run} (h : EarlyExit.Ends (Goes c aim t) (Goes c aim t) r) :
    EarlyExit.Ends (Moves c aim claimed t) (Moves c aim claimed t) r :=
  h.mono (fun _ goes => goes.moves) fun _ goes => goes.moves

theorem Moves.endsAfter {r : Run} (h : Alike c t t')
    (hand : ∀ i, (t'.player i).pai.shouPai = (t.player i).pai.shouPai)
    (h' : EarlyExit.Ends (Moves c aim claimed t') (Moves c aim claimed t') r) :
    EarlyExit.Ends (Moves c aim claimed t) (Moves c aim claimed t) r :=
  h'.mono (fun _ moves => .after h hand moves) fun _ moves => .after h hand moves

/-- Only marks of the players differ. -/
structure Keeps (t t' : Table) : Prop where
  pai : ∀ i, (t'.player i).pai = (t.player i).pai
  moPai : ∀ i, (t'.player i).moPai = (t.player i).moPai
  cur : t'.cur = t.cur
  zhuang : t'.zhuang = t.zhuang
  wall : t'.wall = t.wall
  piles : t'.qiePai = t.qiePai ∧ t'.untaken = t.untaken
  waiting : t'.waitingActions = t.waitingActions
  clock : t'.clock = t.clock
  fsm : t'.fsm = t.fsm

namespace Keeps

theorem refl (t : Table) : Keeps t t := ⟨fun _ => rfl, fun _ => rfl, rfl, rfl, rfl, ⟨rfl, rfl⟩, rfl, rfl, rfl⟩

theorem trans (h : Keeps t t') (h' : Keeps t' t'') : Keeps t t'' :=
  ⟨fun i => (h'.pai i).trans (h.pai i), fun i => (h'.moPai i).trans (h.moPai i), h'.cur.trans h.cur, h'.zhuang.trans h.zhuang,
    h'.wall.trans h.wall, ⟨h'.piles.1.trans h.piles.1, h'.piles.2.trans h.piles.2⟩,
    h'.waiting.trans h.waiting, h'.clock.trans h.clock, h'.fsm.trans h.fsm⟩

theorem setPlayer (t : Table) (i : Nat) {f : Player → Player} (same : ∀ p, (f p).pai = p.pai)
    (mo : ∀ p, (f p).moPai = p.moPai) : Keeps t (t.setPlayer i f) := by
  refine ⟨fun j => ?_, fun j => ?_, rfl, rfl, rfl, ⟨rfl, rfl⟩, rfl, rfl, rfl⟩
  · rw [Table.setPlayer_player]
    split
    · exact same _
    · rfl
  · rw [Table.setPlayer_player]
    split
    · exact mo _
    · rfl

theorem alike (h : Keeps t t') : Alike c t t' :=
  alike_of_pai (fun i => .of_eq (h.pai i)) ⟨h.piles.1, h.piles.2, h.wall⟩

theorem stock (h : Keeps t t') (stock : Stock c t) : Stock c t' :=
  stock.of_pai (fun i => .of_eq (h.pai i)) (h.cur ▸ stock.cur) h.zhuang h.wall

theorem ready (h : Keeps t t') (ready : Ready c t) : Ready c t' :=
  { h.stock ready.toStock with
    offers := h.waiting ▸ ready.offers
    clock := h.clock ▸ ready.clock }

theorem cleanGzh (t : Table) (chair : Nat) : Keeps t (t.cleanGzh chair) :=
  setPlayer t chair (fun _ => rfl) fun _ => rfl

theorem checkAllPass (t : Table) (tile : Option Nat) (answers : List (Offer × Done)) :
    Keeps t (t.checkAllPass c tile answers) := by
  unfold Table.checkAllPass
  induction answers generalizing t with
  | nil => exact refl t
  | cons a answers ih =>
      rw [List.foldl_cons]
      refine trans ?_ (ih _)
      split
      · exact setPlayer t a.1.chair (fun _ => rfl) fun _ => rfl
      · exact refl t

theorem rememberRob (t : Table) (tile : Nat) (answers : List (Offer × Done)) :
    Keeps t (t.rememberRob c tile answers) := by
  unfold Table.rememberRob
  induction answers generalizing t with
  | nil => exact refl t
  | cons a answers ih =>
      rw [List.foldl_cons]
      refine trans ?_ (ih _)
      exact setPlayer t a.1.chair (fun _ => rfl) fun _ => rfl

theorem markChuBao (t : Table) (chair : Nat) : Keeps t (t.markChuBao c chair) := by
  unfold Table.markChuBao
  split
  · exact setPlayer t t.cur (fun _ => rfl) fun _ => rfl
  · exact refl t

theorem markFanBao (t : Table) (answers : List (Offer × Done)) (chair : Nat) :
    Keeps t (t.markFanBao c answers chair) := by
  unfold Table.markFanBao
  split
  · exact setPlayer t t.cur (fun _ => rfl) fun _ => rfl
  · exact refl t

end Keeps

/-- `n` cards `o` of one hand are spent on its sections; nothing else changes but marks. -/
structure Spends (t t' : Table) (i o : Nat) (n : Int) (secs : List Section)
    (unUsecard : Option (List Nat)) : Prop where
  mine : (t'.player i).pai =
    { (t.player i).pai with
      shouPai := decr (t.player i).pai.shouPai o n
      mingPai := secs
      unUsecard := unUsecard }
  others : ∀ j, j ≠ i → (t'.player j).pai = (t.player j).pai
  moPai : ∀ j, (t'.player j).moPai = (t.player j).moPai
  cur : t'.cur = t.cur
  zhuang : t'.zhuang = t.zhuang
  wall : t'.wall = t.wall
  piles : t'.qiePai = t.qiePai ∧ t'.untaken = t.untaken
  waiting : t'.waitingActions = t.waitingActions
  clock : t'.clock = t.clock
  fsm : t'.fsm = t.fsm

variable {unUsecard : Option (List Nat)}

namespace Spends

theorem hand (h : Spends t t' i o n secs unUsecard) (j x : Nat) :
    (t'.player j).pai.shouPai x =
      (t.player j).pai.shouPai x - if j = i ∧ x = o then n else 0 := by
  by_cases mine : j = i
  · subst mine
    rw [h.mine]
    simp [decr_apply]
  · rw [h.others j mine]
    simp [mine]

theorem stock (h : Spends t t' i o n secs unUsecard) (stock : Stock c t)
    (held : n ≤ (t.player i).pai.shouPai o) (pos : 0 ≤ n) : Stock c t' := by
  refine ⟨h.cur ▸ stock.cur, h.zhuang ▸ stock.zhuang, fun j x => ?_, fun j x more => ?_,
    h.wall ▸ stock.wall⟩
  · have := stock.held j x
    rw [h.hand]
    split
    · rename_i same
      obtain ⟨rfl, rfl⟩ := same
      omega
    · omega
  · rw [h.hand] at more
    apply stock.cards j x
    split at more <;> omega

theorem cards (h : Spends t t' i o n secs unUsecard) (seat : i ∈ chairs c) (x : Nat) :
    total c t' x = total c t x - (if x = o then n else 0) +
      ((secs.flatMap Section.cards).count x -
        ((t.player i).pai.mingPai.flatMap Section.cards).count x) := by
  have pai : ∀ j, (t'.player j).pai.Alike ((t.setPai i fun pai => { pai with
      shouPai := decr pai.shouPai o n
      mingPai := secs }).player j).pai := by
    intro j
    rw [Table.setPai_player]
    by_cases mine : j = i
    · subst mine
      rw [if_pos rfl, h.mine]
      exact ⟨rfl, rfl, rfl⟩
    · rw [if_neg mine, h.others j mine]
      exact .of_eq rfl
  have same : Alike c (t.setPai i _) t' := alike_of_pai pai ⟨h.piles.1, h.piles.2, h.wall⟩
  rw [same.cards, total_setPai seat]
  simp only [Pai.cards, decr_apply]
  omega

theorem ready (h : Spends t t' i o n secs unUsecard) (ready : Ready c t)
    (held : n ≤ (t.player i).pai.shouPai o) (pos : 0 ≤ n) : Ready c t' :=
  { h.stock ready.toStock held pos with
    offers := h.waiting ▸ ready.offers
    clock := h.clock ▸ ready.clock }

/-- A section is made on the way from `t` to where the table goes; between `t` and `t₀`
a card may have left the table, which the section takes up again. -/
theorem moves {t₀ : Table} (h : Spends t₀ t' i o n secs unUsecard) (seat : i ∈ chairs c)
    (ming : ∀ j, (t₀.player j).pai.mingPai = (t.player j).pai.mingPai)
    (made : MeldMade (t.player i).pai claimed secs)
    (cards : aim = .cards → ∀ x, total c t₀ x + ((secs.flatMap Section.cards).count x : Int) =
      total c t x + ((t.player i).pai.mingPai.flatMap Section.cards).count x +
        if x = o then n else 0)
    (fewer : ∀ x, total c t₀ x + ((secs.flatMap Section.cards).count x : Int) ≤
      total c t x + ((t.player i).pai.mingPai.flatMap Section.cards).count x +
        if x = o then n else 0)
    (goes : Goes c aim t' t'') : Moves c aim claimed t t'' := by
  have all : ∀ x, total c t'' x = total c t₀ x - (if x = o then n else 0) +
      ((secs.flatMap Section.cards).count x -
        ((t.player i).pai.mingPai.flatMap Section.cards).count x) := by
    intro x
    rw [goes.2.cards, h.cards seat, ming]
  refine ⟨goes.1, fun j => ?_, fun watched _ x => ?_, fun _ x => ?_⟩
  · rw [goes.2.ming]
    by_cases mine : j = i
    · subst mine
      rw [h.mine]
      exact .inr made
    · rw [h.others j mine]
      exact .inl (ming j)
  · have := cards watched x
    rw [all]
    omega
  · have := fewer x
    rw [all]
    omega

end Spends

namespace Table

theorem adjustThree_spends (t : Table) (card : Card tile) (n : Int) (sec : Nat → Section) :
    EarlyExit.Ends (fun _ => False)
      (fun t' => Spends t t' i tile n ((t.player i).pai.mingPai ++ [sec tile])
        (some ((t.player i).pai.unusable ++ [tile])))
      (t.adjustThree i (some tile) n sec) := by
  unfold adjustThree
  dsimp only
  rw [if_pos card]
  refine ⟨?_, ?_, fun j => ?_, rfl, rfl, rfl, ⟨rfl, rfl⟩, rfl, rfl, rfl⟩
  · simp only [setPai_player, if_true]
    rfl
  · intro j other
    simp only [setPai_player, if_neg other]
  · simp only [setPai_player]
    split <;> rfl

theorem adjustChi_spends (t : Table) (card : Card tile ∧ Card o) :
    EarlyExit.Ends (fun _ => False)
      (fun t' => Spends t t' i o 1 ((t.player i).pai.mingPai ++ [.chi tile o])
        (some ((t.player i).pai.unusable ++ [tile])))
      (t.adjustChi i (some tile) (some o)) := by
  unfold adjustChi
  dsimp only
  rw [if_pos card]
  refine ⟨?_, ?_, fun j => ?_, rfl, rfl, rfl, ⟨rfl, rfl⟩, rfl, rfl, rfl⟩
  · rw [setPlayer_player]
    split <;> simp only [setPai_player, if_true] <;> rfl
  · intro j other
    rw [setPlayer_player]
    split <;> simp only [setPai_player, if_neg other]
  · simp only [setPlayer_player, setPai_player]
    split_ifs <;> rfl

theorem adjustBaGang_spends (t : Table) (can : CanAdd (t.player i).pai tile) :
    ∃ s ∈ (t.player i).pai.mingPai, s.three = some tile ∧
      Spends t (t.adjustBaGang i (some tile)) i tile 1
        ((t.player i).pai.mingPai.erase s ++ [.baGang tile]) (t.player i).pai.unUsecard := by
  obtain ⟨_, shown, mem, three⟩ := can
  cases found : (t.player i).pai.mingPai.find? fun s => s.three = some tile with
  | none => exact absurd three (by simpa using List.find?_eq_none.1 found shown mem)
  | some s =>
      refine ⟨s, List.mem_of_find?_eq_some found, by simpa using List.find?_some found,
        ?_, ?_, fun j => ?_, rfl, rfl, rfl, ⟨rfl, rfl⟩, rfl, rfl, rfl⟩
      · simp only [adjustBaGang, setPai_player, if_true, found]
      · intro j other
        simp only [adjustBaGang, setPai_player, if_neg other]
      · simp only [adjustBaGang, setPai_player]
        split <;> rfl

/-- The player in seat `i` shows cards of the hand; the unusable ones stay covered. -/
structure Showed (c : Conf) (t t' : Table) (i : Nat) : Prop where
  cur : t'.cur = t.cur
  zhuang : t'.zhuang = t.zhuang
  fsm : t'.fsm = t.fsm
  others : ∀ j, j ≠ i → (t'.player j).pai = (t.player j).pai
  covered : (t.player i).pai.Covered → (t'.player i).pai.Covered
  cards : ∀ x, total c t' x = total c t x

theorem Showed.of_keeps (keeps : Keeps t t') (showed : Showed c t' t'' i) : Showed c t t'' i :=
  ⟨showed.cur.trans keeps.cur, showed.zhuang.trans keeps.zhuang, showed.fsm.trans keeps.fsm,
    fun j other => (showed.others j other).trans (keeps.pai j),
    fun h => showed.covered ((keeps.pai i).symm ▸ h),
    fun x => (showed.cards x).trans (keeps.alike.cards x)⟩

section own
variable {k : Table → Run}

/-- A player adds a fourth card to a section and the table goes on. -/
theorem baGang_moves (ready : Ready c t) (seat : i ∈ chairs c)
    (can : CanAdd (t.player i).pai tile)
    (next : ∀ t₁, Ready c t₁ → Showed c t t₁ i →
      EarlyExit.Ends (Goes c aim t₁) (Goes c aim t₁) (k t₁)) :
    EarlyExit.Ends (Moves c aim claimed t) (Moves c aim claimed t)
      (t.adjustShouPai i .baGang (some tile) none >>= k) := by
  obtain ⟨s, mem, three, spends⟩ := adjustBaGang_spends t can
  have ready' := spends.ready ready can.1 (by omega)
  have even : ∀ x, total c t x + ((((t.player i).pai.mingPai.erase s ++
      [Section.baGang tile]).flatMap Section.cards).count x : Int) = total c t x +
        ((t.player i).pai.mingPai.flatMap Section.cards).count x +
          if x = tile then 1 else 0 := by
    intro x
    rw [count_snoc, Section.count_baGang, count_erase mem, Section.count_three three]
    split_ifs <;> omega
  have showed : Showed c t (t.adjustBaGang i (some tile)) i := by
    refine ⟨spends.cur, spends.zhuang, spends.fsm, spends.others, fun covered x unusable => ?_,
      fun x => ?_⟩
    · rw [spends.mine] at unusable ⊢
      obtain ⟨s', mem', shows⟩ := covered x unusable
      by_cases same : s' = s
      · refine ⟨.baGang tile, List.mem_append_right _ List.mem_cons_self, .inr ?_⟩
        cases shows with
        | inl three' =>
            rw [Option.some.inj (three.symm.trans (same ▸ three'))]
        | inr four =>
            rw [← same, four] at three
            cases three
      · exact ⟨s', List.mem_append_left _ ((List.mem_erase_of_ne same).2 mem'), shows⟩
    · have := even x
      rw [spends.cards seat]
      omega
  have moved : ∀ t₂, Goes c aim _ t₂ → Moves c aim claimed t t₂ := fun t₂ goes =>
    spends.moves seat (fun _ => rfl) (.baGang tile s can.1 mem three) (fun _ => even)
      (fun x => (even x).le) goes
  exact (next _ ready' showed).mono moved moved

/-- A player shows three cards of the hand and the table goes on. -/
theorem tou_moves (ready : Ready c t) (seat : i ∈ chairs c)
    (held : 3 ≤ (t.player i).pai.shouPai tile)
    (next : ∀ t₁, Ready c t₁ → Showed c t t₁ i →
      EarlyExit.Ends (Goes c aim t₁) (Goes c aim t₁) (k t₁)) :
    EarlyExit.Ends (Moves c aim claimed t) (Moves c aim claimed t)
      (t.adjustShouPai i .tou (some tile) none >>= k) := by
  have card : Card tile := ready.cards i tile (by omega)
  have even : ∀ x, total c t x + ((((t.player i).pai.mingPai ++
      [Section.tou tile]).flatMap Section.cards).count x : Int) = total c t x +
        ((t.player i).pai.mingPai.flatMap Section.cards).count x +
          if x = tile then 3 else 0 := by
    intro x
    rw [count_snoc, Section.count_tou]
    split_ifs <;> omega
  refine EarlyExit.Ends.bind ((adjustThree_spends t card 3 .tou).mono (fun _ h => h.elim)
    fun _ h => h) fun t₁ spends => ?_
  have showed : Showed c t t₁ i := by
    refine ⟨spends.cur, spends.zhuang, spends.fsm, spends.others, fun covered x unusable => ?_,
      fun x => ?_⟩
    · rw [spends.mine] at unusable ⊢
      cases List.mem_append.1 unusable with
      | inl old =>
          obtain ⟨s, mem, shows⟩ := covered x old
          exact ⟨s, List.mem_append_left _ mem, shows⟩
      | inr new =>
          rw [List.mem_singleton] at new
          exact ⟨.tou tile, List.mem_append_right _ List.mem_cons_self, .inl (congrArg some new.symm)⟩
    · have := even x
      rw [spends.cards seat]
      omega
  have moved : ∀ t₂, Goes c aim _ t₂ → Moves c aim claimed t t₂ := fun t₂ goes =>
    spends.moves seat (fun _ => rfl) (.tou tile held) (fun _ => even) (fun x => (even x).le) goes
  exact (next t₁ (spends.ready ready held (by omega)) showed).mono moved moved

end own

/-- A card has left the table; the hands and the sections are as they were. -/
structure Taken (c : Conf) (t t₀ : Table) : Prop where
  ready : Ready c t₀
  hand : ∀ j, (t₀.player j).pai.shouPai = (t.player j).pai.shouPai
  ming : ∀ j, (t₀.player j).pai.mingPai = (t.player j).pai.mingPai
  unUsecard : ∀ j, (t₀.player j).pai.unUsecard = (t.player j).pai.unUsecard
  moPai : ∀ j, (t₀.player j).moPai = (t.player j).moPai

theorem Taken.keeps {t₀ t₁ : Table} (h : Taken c t t₀) (keeps : Keeps t₀ t₁) : Taken c t t₁ :=
  ⟨keeps.ready h.ready, fun j => (congrArg Pai.shouPai (keeps.pai j)).trans (h.hand j),
    fun j => (congrArg Pai.mingPai (keeps.pai j)).trans (h.ming j),
    fun j => (congrArg Pai.unUsecard (keeps.pai j)).trans (h.unUsecard j),
    fun j => (keeps.moPai j).trans (h.moPai j)⟩

variable {t₀ : Table} {offer : Offer} {done : Done}

/-- The player in seat `i` is on turn once the passes are remembered. -/
theorem passed_ready (ready : Ready c t) (seat : i ∈ chairs c) (inPai : Option Nat)
    (answers : List (Offer × Done)) :
    Ready c { t.checkAllPass c inPai answers with cur := i } ∧
      Alike c t { t.checkAllPass c inPai answers with cur := i } := by
  have keeps : Keeps t (t.checkAllPass c inPai answers) := .checkAllPass t inPai answers
  have pai : ∀ j, ({ t.checkAllPass c inPai answers with cur := i }.player j).pai.Alike
      (t.player j).pai := fun j => .of_eq (keeps.pai j)
  refine ⟨{ ready.toStock.of_pai pai seat keeps.zhuang keeps.wall with
    offers := keeps.waiting ▸ ready.offers
    clock := keeps.clock ▸ ready.clock }, ?_⟩
  exact alike_of_pai pai ⟨keeps.piles.1, keeps.piles.2, keeps.wall⟩

theorem chuPai_goes (ready : Ready c t) (fit : aim = .discards → Fit t.chuPaiPlayer) :
    Goes c aim t t.chuPai := by
  have stock : Stock c t.chuPai := ready.toStock.of_holdings ready.cur rfl
  exact ⟨.inr (sound_of_ready ⟨stock, ready.offers, ready.clock⟩ (by simp [chuPai])
    fun watched _ => fit watched), alike_of_holdings rfl⟩

/-- The claimed card and two of the hand become a section; its owner draws. -/
theorem takePeng_moves (taken : Taken c t t₀) (seat : i ∈ chairs c) (card : Card tile)
    (held : 2 ≤ (t.player i).pai.shouPai tile)
    (cards : aim = .cards → ∀ x, total c t₀ x + (if x = tile then 1 else 0) = total c t x)
    (fewer : ∀ x, total c t₀ x + (if x = tile then 1 else 0) ≤ total c t x)
    (inPai : Option Nat) (answers : List (Offer × Done)) :
    EarlyExit.Ends (Moves c aim (some tile) t) (Moves c aim (some tile) t)
      ((t₀.cleanGzh i).adjustShouPai i .peng (some tile) none >>= fun t₁ =>
        moPai c { t₁.checkAllPass c inPai answers with cur := i }) := by
  have clean := Keeps.cleanGzh t₀ i
  have taken' := taken.keeps clean
  have held' : 2 ≤ ((t₀.cleanGzh i).player i).pai.shouPai tile := by
    rw [taken'.hand]
    exact held
  have lawful : MeldMade (t.player i).pai (some tile)
      (((t₀.cleanGzh i).player i).pai.mingPai ++ [.peng tile]) := by
    rw [taken'.ming]
    exact .peng tile rfl held
  have same : ∀ x, total c (t₀.cleanGzh i) x = total c t₀ x := clean.alike.cards
  refine EarlyExit.Ends.bind ((adjustThree_spends _ card 2 .peng).mono (fun _ h => h.elim)
    fun _ h => h) fun t₁ spends => ?_
  obtain ⟨ready, alike⟩ :=
    passed_ready (spends.ready taken'.ready held' (by omega)) seat inPai answers
  have moved : ∀ t₂, Goes c aim _ t₂ → Moves c aim (some tile) t t₂ := fun t₂ goes => by
    refine spends.moves seat taken'.ming lawful (fun watched x => ?_) (fun x => ?_)
      (Goes.after alike goes)
    · have lost := cards watched x
      rw [same, taken'.ming, count_snoc, Section.count_peng]
      split_ifs at lost ⊢ <;> omega
    · have lost := fewer x
      rw [same, taken'.ming, count_snoc, Section.count_peng]
      split_ifs at lost ⊢ <;> omega
  exact (moPai_goes ready).mono moved moved

/-- The claimed card and one of the hand become a section; its owner is on turn. -/
theorem takeChi_moves (taken : Taken c t t₀) (seat : i ∈ chairs c) (card : Card tile)
    (held : 0 < (t.player i).pai.shouPai o)
    (eats : aim = .discards → Eats (t.player i) tile o)
    (cards : aim = .cards → ∀ x, total c t₀ x + (if x = tile then 1 else 0) = total c t x)
    (fewer : ∀ x, total c t₀ x + (if x = tile then 1 else 0) ≤ total c t x)
    (inPai : Option Nat) (answers : List (Offer × Done)) :
    EarlyExit.Ends (Moves c aim (some tile) t) (Moves c aim (some tile) t)
      (t₀.adjustShouPai i .chi (some tile) (some o) >>= fun t₁ =>
        .ok { t₁.checkAllPass c inPai answers with cur := i }.chuPai) := by
  have held' : 0 < (t₀.player i).pai.shouPai o := by
    rw [taken.hand]
    exact held
  have card' : Card o := taken.ready.cards i o held'
  have lawful : MeldMade (t.player i).pai (some tile)
      ((t₀.player i).pai.mingPai ++ [.chi tile o]) := by
    rw [taken.ming]
    exact .chi tile o rfl held
  refine EarlyExit.Ends.bind ((adjustChi_spends _ ⟨card, card'⟩).mono (fun _ h => h.elim)
    fun _ h => h) fun t₁ spends => ?_
  obtain ⟨ready, alike⟩ :=
    passed_ready (spends.ready taken.ready (by omega) (by omega)) seat inPai answers
  have passed : Keeps t₁ (t₁.checkAllPass c inPai answers) := .checkAllPass t₁ inPai answers
  have fit : aim = .discards →
      Fit { t₁.checkAllPass c inPai answers with cur := i }.chuPaiPlayer := by
    intro watched
    have pai : ((t₁.checkAllPass c inPai answers).player i).pai = _ :=
      (passed.pai i).trans spends.mine
    have mo : ((t₁.checkAllPass c inPai answers).player i).moPai = (t.player i).moPai :=
      ((passed.moPai i).trans (spends.moPai i)).trans (taken.moPai i)
    refine (eats watched).fit ?_ ?_ mo
    · rw [chuPaiPlayer, pai, taken.hand]
    · rw [chuPaiPlayer, pai, Pai.unusable, taken.unUsecard]
      rfl
  refine spends.moves seat taken.ming lawful (fun watched x => ?_) (fun x => ?_)
    (Goes.after alike (chuPai_goes ready fit))
  · have lost := cards watched x
    rw [taken.ming, count_snoc, Section.count_chi]
    split_ifs at lost ⊢ <;> omega
  · have lost := fewer x
    rw [taken.ming, count_snoc, Section.count_chi]
    split_ifs at lost ⊢ <;> omega

/-- The player whose answer comes first takes the card. -/
theorem takeCard_moves (taken : Taken c t t₀) (claim : ClaimOffer c aim t tile offer)
    (card : Card tile) (answered : offer.done = some done) (act : done.action ≠ .pass)
    (cards : aim = .cards → done.action = .peng ∨ done.action = .chi → ∀ x,
      total c t₀ x + (if x = tile then 1 else 0) = total c t x)
    (fewer : ∀ x, total c t₀ x + (if x = tile then 1 else 0) ≤ total c t x)
    (inPai : Option Nat) (answers : List (Offer × Done)) :
    EarlyExit.Ends (Moves c aim (some tile) t) (Moves c aim (some tile) t)
      (t₀.takeCard c inPai answers offer.chair done) := by
  have answer := claim.done done answered
  unfold Answer at answer
  unfold takeCard
  split at answer
  · rename_i peng
    obtain ⟨x, offered, named⟩ := answer
    obtain ⟨rfl, held⟩ := claim.peng x offered
    rw [peng]
    dsimp only
    rw [named]
    exact takePeng_moves taken claim.chair card held (fun watched => cards watched (.inl peng))
      fewer inPai answers
  · rename_i chi
    obtain ⟨⟨other, x⟩, offered, named, spent⟩ := answer
    obtain ⟨rfl, held, _⟩ := claim.chi (other, x) offered
    have eats : aim = .discards → Eats (t.player offer.chair) x other := fun watched =>
      claim.eats watched done answered chi x named other spent
    rw [chi]
    dsimp only
    rw [named, spent]
    exact takeChi_moves taken claim.chair card held eats
      (fun watched => cards watched (.inr chi)) fewer inPai answers
  · rename_i hu
    rw [hu]
    exact ⟨.inl (over_of taken.ready.toStock), fun j => .inl (taken.ming j),
      fun _ running => absurd rfl running, fun running => absurd rfl running⟩
  · rename_i pass
    exact absurd pass act
  · exact answer.elim

end Table

end FkServer.ChangpaiZigong
