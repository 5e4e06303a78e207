import FkServer.MaajanNanchong.LayOut
import FkServer.MaajanNanchong.Turn

/-!
Announced hands. A hand that was declared ready, or from which cards were laid out, has
to stay what was announced; the table checks this for some gangs and for nothing else, so
it holds as far as the players keep to it.
-/
namespace FkServer.MaajanNanchong

open MaajanXuezhan (Action Section SectionType Waiting)
open MaajanXuezhan.Rule (without)

variable {c : Conf} {s s' : State} {r : Request} {p p' : Player}

/-! ### Announced hands -/

/-- The hand is ready, the cards laid out are in it, and each announced tile wins. -/
structure Laid (c : Conf) (p : Player) : Prop where
  ready : ting c p ≠ []
  held : ∀ v, (p.pai.baiPai.count v : Int) ≤ p.pai.shouPai v
  wins : ∀ t ∈ p.pai.baiTing, MaajanXuezhan.Rule.isHu p.pai.toPai (some t) c.play.siDui = true

/-- A player without a tile to discard. -/
structure Waits (c : Conf) (p : Player) : Prop where
  rule : p.baipai = true → c.play.baiPai = true
  melds : p.baoting = some true → ∀ tile, p.pai.mingPai.find? (Section.isPeng tile) = none
  ready : p.baoting = some true → p.baipai = false → ting c p ≠ []
  laid : p.baipai = true → Laid c p

/-- A player with a tile to discard: what was drawn goes, or what the lay-out named. -/
structure Holds (c : Conf) (p : Player) : Prop where
  rule : p.baipai = true → c.play.baiPai = true
  melds : p.baoting = some true → ∀ tile, p.pai.mingPai.find? (Section.isPeng tile) = none
  ready : p.baoting = some true → p.baipai = false →
    ∀ tile, p.moPai = some tile → ting c (p.decr tile 1) ≠ []
  laid : p.baipai = true → ∀ tile ∈ p.canDiscards.getD [], Laid c (p.decr tile 1)
  named : p.baipai = true →
    p.canDiscards = some (Rule.cardsCanBai p.pai.toPai p.pai.baiPai).1 ∨
      ∃ tile, p.moPai = some tile ∧ p.canDiscards = some [tile]

/-- What the announcement is about has not changed. -/
structure Alike (p p' : Player) : Prop where
  hand : p'.pai.shouPai = p.pai.shouPai
  melds : p'.pai.mingPai = p.pai.mingPai
  cards : p'.pai.baiPai = p.pai.baiPai
  tiles : p'.pai.baiTing = p.pai.baiTing
  baoting : p'.baoting = p.baoting
  baipai : p'.baipai = p.baipai

theorem Alike.refl (p : Player) : Alike p p := ⟨rfl, rfl, rfl, rfl, rfl, rfl⟩

theorem Alike.trans {p₂ : Player} (alike : Alike p p') (alike' : Alike p' p₂) : Alike p p₂ :=
  ⟨alike'.hand.trans alike.hand, alike'.melds.trans alike.melds, alike'.cards.trans alike.cards,
    alike'.tiles.trans alike.tiles, alike'.baoting.trans alike.baoting,
    alike'.baipai.trans alike.baipai⟩

theorem alike_of_core (same : s'.core = s.core) (i : Nat) : Alike (s.player i) (s'.player i) := by
  have pai := pai_of_core same i
  have baoting := congrArg Player.baoting (player_of_core same i)
  have baipai := congrArg Player.baipai (player_of_core same i)
  exact ⟨by rw [pai], by rw [pai], by rw [pai], by rw [pai], baoting, baipai⟩

theorem alike_popDesk (s : State) (i : Nat) : Alike (s.player i) ((popDesk s).player i) := by
  unfold popDesk
  by_cases here : i = s.chuPaiPlayerIndex
  · subst here
    rw [State.update_self]
    exact ⟨rfl, rfl, rfl, rfl, rfl, rfl⟩
  · rw [State.update_of_ne here]
    exact .refl _

theorem ting_congr (hand : p'.pai.shouPai = p.pai.shouPai)
    (melds : p'.pai.mingPai = p.pai.mingPai) : ting c p' = ting c p := by
  unfold ting MaajanXuezhan.Rule.tingTiles MaajanXuezhan.Rule.cache MaajanXuezhan.Rule.tingSiDui
  rw [hand, melds]

theorem isHu_congr {pai pai' : MaajanXuezhan.Pai} (hand : pai'.shouPai = pai.shouPai)
    (melds : pai'.mingPai = pai.mingPai) (inPai : Option Nat) (siDui : Bool) :
    MaajanXuezhan.Rule.isHu pai' inPai siDui = MaajanXuezhan.Rule.isHu pai inPai siDui := by
  unfold MaajanXuezhan.Rule.isHu MaajanXuezhan.Rule.cache MaajanXuezhan.Rule.isQiDui
    MaajanXuezhan.Rule.isSiDui MaajanXuezhan.Rule.isDui
  rw [hand, melds]

theorem Laid.congr (laid : Laid c p) (alike : Alike p p') : Laid c p' where
  ready := ting_congr alike.hand alike.melds ▸ laid.ready
  held v := by
    rw [alike.cards, alike.hand]
    exact laid.held v
  wins t named := by
    rw [isHu_congr alike.hand alike.melds]
    exact laid.wins t (alike.tiles ▸ named)

theorem Waits.congr (waits : Waits c p) (alike : Alike p p') : Waits c p' where
  rule lays := waits.rule (alike.baipai ▸ lays)
  melds declared := by
    rw [alike.melds]
    exact waits.melds (alike.baoting ▸ declared)
  ready declared free := by
    rw [ting_congr alike.hand alike.melds]
    exact waits.ready (alike.baoting ▸ declared) (alike.baipai ▸ free)
  laid lays := (waits.laid (alike.baipai ▸ lays)).congr alike

theorem Alike.decr (alike : Alike p p') (tile : Nat) (n : Int) :
    Alike (p.decr tile n) (p'.decr tile n) where
  hand := congrArg (fun counts => FkServer.decr counts tile n) alike.hand
  melds := alike.melds
  cards := alike.cards
  tiles := alike.tiles
  baoting := alike.baoting
  baipai := alike.baipai

theorem cardsCanBai_congr {pai pai' : MaajanXuezhan.Pai} (hand : pai'.shouPai = pai.shouPai)
    (cards : List Nat) : Rule.cardsCanBai pai' cards = Rule.cardsCanBai pai cards := by
  unfold Rule.cardsCanBai Rule.restCounts
  rw [hand]

theorem Holds.congr (holds : Holds c p) (alike : Alike p p') (moPai : p'.moPai = p.moPai)
    (canDiscards : p'.canDiscards = p.canDiscards) : Holds c p' where
  rule lays := holds.rule (alike.baipai ▸ lays)
  melds declared := by
    rw [alike.melds]
    exact holds.melds (alike.baoting ▸ declared)
  ready declared free tile drawn := by
    rw [ting_congr (alike.decr tile 1).hand alike.melds]
    exact holds.ready (alike.baoting ▸ declared) (alike.baipai ▸ free) tile (moPai ▸ drawn)
  laid lays tile named := by
    rw [canDiscards] at named
    exact (holds.laid (alike.baipai ▸ lays) tile named).congr (alike.decr tile 1)
  named lays := by
    rw [canDiscards, moPai, cardsCanBai_congr alike.hand, alike.cards]
    exact holds.named (alike.baipai ▸ lays)

/-- The tile drawn may go again. -/
theorem Waits.drawn (waits : Waits c p) {tile : Nat}
    (drawn : Alike (p.incr tile) p') (moPai : p'.moPai = some tile)
    (canDiscards : p.baipai = true → p'.canDiscards = some [tile]) : Holds c p' := by
  have back : Alike p (p'.decr tile 1) := by
    refine ⟨?_, drawn.melds, drawn.cards, drawn.tiles, drawn.baoting, drawn.baipai⟩
    funext v
    simp only [Player.decr, drawn.hand, Player.incr, decr_apply, incr_apply]
    split <;> omega
  have lays : p'.baipai = p.baipai := drawn.baipai
  refine ⟨?_, ?_, ?_, ?_, ?_⟩
  · exact fun lay => waits.rule (lays ▸ lay)
  · intro declared
    rw [drawn.melds]
    exact waits.melds (drawn.baoting ▸ declared)
  · intro declared free t is_drawn
    rw [moPai] at is_drawn
    cases is_drawn
    exact ((waits.congr back).ready declared free)
  · intro lay t named
    rw [canDiscards (lays ▸ lay)] at named
    cases List.mem_singleton.1 named
    exact (waits.congr back).laid lay
  · intro lay
    exact .inr ⟨tile, moPai, canDiscards (lays ▸ lay)⟩

/-- A player who keeps to the announcement discards accordingly. -/
theorem Holds.discarded (holds : Holds c p) {tile : Nat} (gone : Alike (p.decr tile 1) p')
    (declared : p.baoting = some true → p.baipai = false → p.moPai = some tile)
    (lays : p.baipai = true → tile ∈ p.canDiscards.getD []) : Waits c p' := by
  have waits : Waits c (p.decr tile 1) :=
    ⟨holds.rule, holds.melds,
      fun ready free => holds.ready ready free tile (declared ready free),
      fun lay => holds.laid lay tile (lays lay)⟩
  exact waits.congr gone

/-- A hand of the table that lays cards out keeps its word with every discard it names. -/
theorem Holds.layOut (holds : Holds c p) {cards : List Nat} (rule : c.play.baiPai = true)
    (laid : Rule.LaidFrom p.pai.toPai cards) (can : canBaiPai p (some cards) = true) :
    Holds c (p.layOut cards) := by
  refine ⟨fun _ => rule, holds.melds, ?_, ?_, ?_⟩
  · intro _ free
    cases free
  · intro _ d named
    have fits : ∀ t ∈ (Rule.cardsCanBai p.pai.toPai cards).2, Rule.Fits p.pai.toPai cards d t :=
      fun t waited => Rule.cardsCanBai_fits laid named waited
    have some_tile : (Rule.cardsCanBai p.pai.toPai cards).2 ≠ [] := by
      simp only [canBaiPai, Option.any_some, Bool.and_eq_true, Bool.not_eq_true',
        List.isEmpty_eq_false_iff] at can
      exact can.2
    obtain ⟨t, waited⟩ := List.exists_mem_of_ne_nil _ some_tile
    refine ⟨?_, (fits t waited).held_without laid, ?_⟩
    · exact List.ne_nil_of_mem ((fits t waited).wins_without laid c.play.siDui).2
    · exact fun t waited => ((fits t waited).wins_without laid c.play.siDui).1
  · intro _
    exact .inl rfl

/-! ### The table -/

/-- Announced hands with `own` tiles more in the hand on turn. -/
structure Keeps (c : Conf) (own : Int) (s : State) : Prop where
  sound : Sound c own s
  waits : ∀ i ∈ c.seats, i ≠ s.chuPaiPlayerIndex ∨ own = 0 → Waits c (s.player i)
  holds : own = 1 → Holds c s.chuPaiPlayer

variable {own own' : Int}

theorem Keeps.congr (keeps : Keeps c own s)
    (turn : s'.chuPaiPlayerIndex = s.chuPaiPlayerIndex) (dealer : s'.dealer = s.dealer)
    (alike : ∀ i, Alike (s.player i) (s'.player i))
    (rest : own = 1 → s'.chuPaiPlayer.moPai = s.chuPaiPlayer.moPai ∧
      s'.chuPaiPlayer.canDiscards = s.chuPaiPlayer.canDiscards) : Keeps c own s' where
  sound := keeps.sound.congr turn dealer (fun i => (alike i).hand) fun i => (alike i).melds
  waits i seated waiting := (keeps.waits i seated (turn ▸ waiting)).congr (alike i)
  holds one := by
    have same : Alike s.chuPaiPlayer s'.chuPaiPlayer := by
      rw [State.chuPaiPlayer, State.chuPaiPlayer, turn]
      exact alike _
    exact (keeps.holds one).congr same (rest one).1 (rest one).2

theorem Keeps.fsm (keeps : Keeps c own s) (fsm : FSM) : Keeps c own { s with fsm := fsm } :=
  keeps.congr rfl rfl (fun _ => ⟨rfl, rfl, rfl, rfl, rfl, rfl⟩) fun _ => ⟨rfl, rfl⟩

theorem Keeps.done (keeps : Keeps c own s) (chair : Nat) (action : Option (Action × Nat)) :
    Keeps c own (doneLastAction s chair action) :=
  keeps.congr rfl rfl (fun _ => ⟨rfl, rfl, rfl, rfl, rfl, rfl⟩) fun _ => ⟨rfl, rfl⟩

/-- What passes block is no part of an announcement. -/
theorem Keeps.of_core (keeps : Keeps c own s) (same : s'.core = s.core) : Keeps c own s' := by
  have turn := turn_of_core same
  have player : s'.chuPaiPlayer.core = s.chuPaiPlayer.core := by
    rw [State.chuPaiPlayer, turn, player_of_core same]
    rfl
  refine keeps.congr turn (dealer_of_core same) (alike_of_core same) ?_
  intro _
  have moPai := congrArg Player.moPai player
  have canDiscards := congrArg Player.canDiscards player
  exact ⟨moPai, canDiscards⟩

theorem Keeps.jump (keeps : Keeps c 0 s) {chair : Nat} (seated : chair ∈ c.seats) :
    Keeps c 0 (jumpToPlayerIndex s chair) where
  sound := keeps.sound.jump seated
  waits i listed _ := keeps.waits i listed (.inr rfl)
  holds one := by cases one

theorem Keeps.next (keeps : Keeps c 0 s) : Keeps c 0 (nextPlayerIndex c s) :=
  (keeps.done _ none).jump (nextChair_seated c keeps.sound.seated)

/-- One player takes the turn with a hand of which the rest is known. -/
theorem Keeps.replace {chair : Nat} {s₂ : State} (keeps : Keeps c own s)
    (sound : Sound c own' (jumpToPlayerIndex s₂ chair))
    (whose : chair = s.chuPaiPlayerIndex ∨ own = 0)
    (others : ∀ i, i ≠ chair → Alike (s.player i) (s₂.player i))
    (waits : own' = 0 → Waits c (s₂.player chair)) (holds : own' = 1 → Holds c (s₂.player chair)) :
    Keeps c own' (jumpToPlayerIndex s₂ chair) := by
  refine ⟨sound, ?_, holds⟩
  intro i listed waiting
  by_cases here : i = chair
  · subst here
    exact waits (waiting.resolve_left fun other => other rfl)
  · have before : i ≠ s.chuPaiPlayerIndex ∨ own = 0 :=
      whose.imp_left fun turn same => here (same.trans turn.symm)
    exact (keeps.waits i listed before).congr (others i here)

theorem Keeps.draw {tile rnd : Nat} {dealer : MaajanTileDealer} (keeps : Keeps c 0 s)
    (deal : s.dealer.dealOne rnd = some (tile, dealer)) : Keeps c 1 (draw s tile dealer) := by
  refine ⟨keeps.sound.draw deal, ?_, ?_⟩
  · intro i listed waiting
    have other : i ≠ s.chuPaiPlayerIndex := waiting.resolve_right (by decide)
    rw [draw_others other]
    exact (keeps.waits i listed (.inr rfl)).congr ⟨rfl, rfl, rfl, rfl, rfl, rfl⟩
  · intro _
    have waits := keeps.waits _ keeps.sound.seated (.inr rfl)
    rw [draw_own]
    exact waits.drawn ⟨rfl, rfl, rfl, rfl, rfl, rfl⟩ rfl fun lays => if_pos lays

theorem Keeps.discard {tile : Nat} (keeps : Keeps c 1 s)
    (held : 0 < s.chuPaiPlayer.pai.shouPai tile)
    (declared : s.chuPaiPlayer.baoting = some true → s.chuPaiPlayer.baipai = false →
      s.chuPaiPlayer.moPai = some tile)
    (lays : s.chuPaiPlayer.baipai = true → tile ∈ s.chuPaiPlayer.canDiscards.getD []) :
    Keeps c 0 (discard s tile) := by
  refine ⟨keeps.sound.discard held, ?_, nofun⟩
  intro i listed _
  by_cases here : i = s.chuPaiPlayerIndex
  · subst here
    have gone : Waits c (MaajanNanchong.discard s tile).chuPaiPlayer := by
      rw [discard_own]
      exact (keeps.holds rfl).discarded ⟨rfl, rfl, rfl, rfl, rfl, rfl⟩ declared lays
    exact gone
  · rw [discard_others here]
    exact (keeps.waits i listed (.inl here)).congr ⟨rfl, rfl, rfl, rfl, rfl, rfl⟩

/-! ### Melds -/

theorem others_adjustShouPai {i chair : Nat} (other : i ≠ chair) (action : Action) (tile : Nat) :
    (adjustShouPai s chair action tile).player i = s.player i := by
  unfold adjustShouPai
  split
  any_goals exact State.update_of_ne other
  · split
    · rfl
    · exact State.update_of_ne other
  · rfl

/-- A meld of a player depends on nothing else but whose turn it is. -/
theorem alike_adjustShouPai {chair : Nat} (turn : s'.chuPaiPlayerIndex = s.chuPaiPlayerIndex)
    (alike : Alike (s.player chair) (s'.player chair)) (action : Action) (tile : Nat) :
    Alike ((adjustShouPai s chair action tile).player chair)
      ((adjustShouPai s' chair action tile).player chair) := by
  have lay : ∀ (n : Int) (sec : Section), Alike (((s.player chair).decr tile n).lay sec)
      (((s'.player chair).decr tile n).lay sec) := by
    intro n sec
    have taken := alike.decr tile n
    refine ⟨taken.hand, ?_, taken.cards, taken.tiles, taken.baoting, taken.baipai⟩
    exact congrArg (fun melds => melds ++ [sec]) taken.melds
  unfold adjustShouPai
  split
  · rw [State.update_self, State.update_self]
    exact lay 4 _
  · rw [State.update_self, State.update_self, turn]
    exact lay 3 _
  · rw [State.update_self, State.update_self, turn]
    exact lay 2 _
  · rw [alike.melds]
    split
    · exact alike
    · rename_i sec _
      rw [State.update_self, State.update_self]
      have taken := alike.decr tile 1
      refine ⟨taken.hand, ?_, taken.cards, taken.tiles, taken.baoting, taken.baipai⟩
      simp only [Player.joinPeng, alike.melds]
  · exact alike

/-- The player with the gang laid. -/
abbrev ganged (s : State) (chair : Nat) (action : Action) (tile : Nat) : Player :=
  (adjustShouPai s chair action tile).player chair

theorem ganged_marks (s : State) (chair : Nat) (action : Action) (tile : Nat) :
    (ganged s chair action tile).baoting = (s.player chair).baoting ∧
      (ganged s chair action tile).baipai = (s.player chair).baipai := by
  unfold ganged adjustShouPai
  split
  any_goals
    rw [State.update_self]
    exact ⟨rfl, rfl⟩
  · split
    · exact ⟨rfl, rfl⟩
    · rw [State.update_self]
      exact ⟨rfl, rfl⟩
  · exact ⟨rfl, rfl⟩

theorem ganged_melds {chair tile : Nat} {action : Action}
    (gang : action = .anGang ∨ action = .mingGang) {t : Nat}
    (no_peng : (s.player chair).pai.mingPai.find? (Section.isPeng t) = none) :
    (ganged s chair action tile).pai.mingPai.find? (Section.isPeng t) = none := by
  cases gang with
  | inl an | inr ming =>
      subst action
      simp only [ganged, adjustShouPai, State.update_self, Player.lay, Player.decr,
        List.find?_append, no_peng]
      simp [meld, Section.isPeng]

/-- A gang that keeps to the announcement. -/
theorem waits_ganged {chair tile : Nat} {action : Action}
    (rule : (s.player chair).baipai = true → c.play.baiPai = true)
    (melds : (s.player chair).baoting = some true →
      ∀ tile, (s.player chair).pai.mingPai.find? (Section.isPeng tile) = none)
    (gang : (s.player chair).baoting = some true → action = .anGang ∨ action = .mingGang)
    (ready : (s.player chair).baoting = some true → (s.player chair).baipai = false →
      ting c (ganged s chair action tile) ≠ [])
    (laid : (s.player chair).baipai = true → Laid c (ganged s chair action tile)) :
    Waits c (ganged s chair action tile) := by
  obtain ⟨baoting, baipai⟩ := ganged_marks s chair action tile
  refine ⟨?_, ?_, ?_, ?_⟩
  · rw [baipai]
    exact rule
  · rw [baoting]
    exact fun declared t => ganged_melds (gang declared) (melds declared t)
  · rw [baoting, baipai]
    exact ready
  · rw [baipai]
    exact laid

/-- A gang that the table accepts. -/
inductive Gangs (s : State) (r : Request) : Action → Nat → Prop
  | anGang {tile : Nat} : Acts s r (.anGang, tile) → Gangs s r .anGang tile
  | baGang {tile : Nat} : Acts s r (.baGang, tile) → Gangs s r .baGang tile
  | mingGang {tile session : Nat} {waiting : List Waiting} {w : Waiting} :
      s.fsm = .waitActionAfterChuPai waiting → r.msg = .doAction .mingGang tile session →
      MaajanXuezhan.checkActionBeforeDo waiting r.chair .mingGang tile session = some w →
      Gangs s r .mingGang tile

/-- The players keep to what they announce: cards are laid out in turn and from the hand,
discards are the ones named or the tile drawn, and a gang of a player who has laid cards
out leaves the announced hand. -/
structure Announces (c : Conf) (s : State) (r : Request) : Prop where
  inTurn : LaidOutInTurn s r
  cards : ∀ cards, Lays s r 1 (some cards) →
    ∀ v, (cards.count v : Int) ≤ (s.player r.chair).pai.shouPai v
  declared : ∀ tile, Discards s r tile → s.chuPaiPlayer.baoting = some true →
    s.chuPaiPlayer.baipai = false → s.chuPaiPlayer.moPai = some tile
  lays : ∀ tile, Discards s r tile → s.chuPaiPlayer.baipai = true →
    tile ∈ s.chuPaiPlayer.canDiscards.getD []
  gangs : ∀ action tile, Gangs s r action tile → (s.player r.chair).baipai = true →
    Laid c (ganged s r.chair action tile)

/-! ### Phases -/

/-- Announced hands, in every state of the table. While ready tips are sent, `left` are the
players who have not got theirs. -/
structure Stays (c : Conf) (left : List Nat) (s : State) : Prop where
  keeps : ∃ own', (own' = 0 ∨ own' = 1) ∧ (s.fsm ≠ .over → own' = MaajanNanchong.own s.fsm) ∧
    Keeps c own' s
  opening : s.fsm = .waitBaoTing → ∀ i ∈ c.seats, (s.player i).pai.mingPai = [] ∧
    ((s.player i).baoting = none → i ∉ left → i ≠ s.chuPaiPlayerIndex ∧ ting c (s.player i) ≠ [])
  robbed : ∀ tile waiting, s.fsm = .waitQiangGangHu tile waiting → s.chuPaiPlayer.baipai = true →
    Laid c (ganged s s.chuPaiPlayerIndex .baGang tile)
  claims : ∀ waiting, s.fsm = .waitActionAfterChuPai waiting → ∀ w ∈ waiting, ∀ tile,
    w.done = some (.mingGang, tile) → (s.player w.chairId).baipai = true →
      Laid c (ganged s w.chairId .mingGang tile)

theorem Stays.running {left : List Nat} (stays : Stays c left s) (running : s.fsm ≠ .over) :
    Keeps c (MaajanNanchong.own s.fsm) s := by
  obtain ⟨own', _, same, keeps⟩ := stays.keeps
  rw [← same running]
  exact keeps

theorem Stays.congr {left : List Nat} (stays : Stays c left s) (fsm : s'.fsm = s.fsm)
    (turn : s'.chuPaiPlayerIndex = s.chuPaiPlayerIndex) (dealer : s'.dealer = s.dealer)
    (alike : ∀ i, Alike (s.player i) (s'.player i))
    (rest : s'.chuPaiPlayer.moPai = s.chuPaiPlayer.moPai ∧
      s'.chuPaiPlayer.canDiscards = s.chuPaiPlayer.canDiscards) : Stays c left s' := by
  refine ⟨?_, ?_, ?_, ?_⟩
  · obtain ⟨own', zero_one, same, keeps⟩ := stays.keeps
    rw [fsm]
    exact ⟨own', zero_one, same, keeps.congr turn dealer alike fun _ => rest⟩
  · rw [fsm, turn]
    intro phase i seated
    obtain ⟨none_laid, asked⟩ := stays.opening phase i seated
    rw [(alike i).melds, (alike i).baoting, ting_congr (alike i).hand (alike i).melds]
    exact ⟨none_laid, asked⟩
  · intro tile waiting phase lays
    have laid := alike_adjustShouPai turn (alike s.chuPaiPlayerIndex) .baGang tile
    rw [State.chuPaiPlayer, turn, (alike _).baipai] at lays
    rw [turn]
    exact (stays.robbed tile waiting (fsm ▸ phase) lays).congr laid
  · intro waiting phase w listed tile done lays
    have laid := alike_adjustShouPai turn (alike w.chairId) .mingGang tile
    rw [(alike _).baipai] at lays
    exact (stays.claims waiting (fsm ▸ phase) w listed tile done lays).congr laid

theorem Stays.done {left : List Nat} (stays : Stays c left s) (chair : Nat)
    (action : Option (Action × Nat)) : Stays c left (doneLastAction s chair action) :=
  stays.congr rfl rfl rfl (fun _ => ⟨rfl, rfl, rfl, rfl, rfl, rfl⟩) ⟨rfl, rfl⟩

/-- The states after a draw, a meld or a pass, which ask for no more than the hands. -/
def Plain : FSM → Prop
  | .waitBaiPai | .waitChuPai | .waitActionAfterMoPai _ => True
  | .waitBaoTing | .waitActionAfterChuPai _ | .waitQiangGangHu _ _ | .over => False

theorem Keeps.plain (keeps : Keeps c 1 s) (phase : Plain s.fsm) (left : List Nat) :
    Stays c left s := by
  refine ⟨⟨1, .inr rfl, fun _ => ?_, keeps⟩, ?_, ?_, ?_⟩
  · cases waits : s.fsm with
    | waitBaiPai | waitChuPai | waitActionAfterMoPai => rfl
    | waitBaoTing | waitActionAfterChuPai | waitQiangGangHu | «over» => simp [waits, Plain] at phase
  · intro waits
    simp [waits, Plain] at phase
  · intro tile waiting waits
    simp [waits, Plain] at phase
  · intro waiting waits
    simp [waits, Plain] at phase

theorem Keeps.doBalance (keeps : Keeps c own s) (zero_one : own = 0 ∨ own = 1) :
    Stays c [] (doBalance s) :=
  ⟨⟨own, zero_one, fun running => absurd rfl running, keeps.fsm _⟩, nofun, nofun, nofun⟩

variable {left : List Nat}

theorem Keeps.chuPai (keeps : Keeps c 1 s) : Stays c left (chuPai s) :=
  (keeps.fsm .waitChuPai).plain trivial left

theorem Keeps.baipai (keeps : Keeps c 1 s) (chair : Nat) : Stays c left (baipai c s chair) := by
  unfold MaajanNanchong.baipai
  split
  · exact keeps.chuPai
  · exact (keeps.fsm .waitBaiPai).plain trivial left

theorem Keeps.baipaiOrChuPai (keeps : Keeps c 1 s) : Stays c left (baipaiOrChuPai c s) := by
  unfold MaajanNanchong.baipaiOrChuPai
  split
  · exact keeps.baipai _
  · exact keeps.chuPai

theorem Keeps.startTurn (keeps : Keeps c 1 s) (actions : List (Action × Nat)) :
    Stays c left (startTurn c s actions) := by
  unfold MaajanNanchong.startTurn
  split
  · exact keeps.baipaiOrChuPai
  · have asked : Keeps c 1 (actionAfterMoPai s actions) :=
      keeps.congr rfl rfl (fun _ => .refl _) fun _ => ⟨rfl, rfl⟩
    exact asked.plain trivial left

theorem Keeps.moPai (keeps : Keeps c 0 s) (rnd : Nat) : Stays c [] (moPai c s rnd) := by
  have marked : Keeps c 0 (cleanGsp (cleanGzh s s.chuPaiPlayerIndex) s.chuPaiPlayerIndex) :=
    keeps.of_core (by rw [core_cleanGsp, core_cleanGzh])
  cases moPai_cases c s rnd with
  | inl exhausted =>
      rw [exhausted.2]
      exact marked.doBalance (.inl rfl)
  | inr drawn =>
      obtain ⟨tile, dealer, deal, _, rfl, same⟩ := drawn
      rw [same]
      exact (marked.draw deal).startTurn _

/-- Who has announced nothing may do anything. -/
theorem holds_unannounced (undeclared : p.baoting ≠ some true) (fresh : p.baipai = false) :
    Holds c p := by
  refine ⟨?_, ?_, ?_, ?_, ?_⟩
  · exact fun lays => absurd (fresh.symm.trans lays) nofun
  · exact fun declared => absurd declared undeclared
  · exact fun declared => absurd declared undeclared
  · exact fun lays => absurd (fresh.symm.trans lays) nofun
  · exact fun lays => absurd (fresh.symm.trans lays) nofun

/-- A meld, with what passes block marked before and after it. -/
theorem Keeps.meld {chair tile : Nat} {action : Action} {s₁ s₂ : State} (keeps : Keeps c own s)
    (sound : Sound c own' (jumpToPlayerIndex s₂ chair))
    (whose : chair = s.chuPaiPlayerIndex ∨ own = 0)
    (turn : s₁.chuPaiPlayerIndex = s.chuPaiPlayerIndex)
    (before : ∀ i, Alike (s.player i) (s₁.player i))
    (after : ∀ i, Alike ((adjustShouPai s₁ chair action tile).player i) (s₂.player i))
    (waits : own' = 0 → Waits c (ganged s chair action tile))
    (holds : own' = 1 → Holds c (s₂.player chair)) : Keeps c own' (jumpToPlayerIndex s₂ chair) := by
  refine keeps.replace sound whose ?_ ?_ holds
  · intro i other
    have same := after i
    rw [others_adjustShouPai other] at same
    exact (before i).trans same
  · intro zero
    have laid := alike_adjustShouPai turn (before chair) action tile
    exact (waits zero).congr (laid.trans (after chair))

theorem Keeps.peng {chair tile : Nat} (keeps : Keeps c 0 s) (answers : List Waiting)
    (seated : chair ∈ c.seats) (held : 2 ≤ (s.player chair).pai.shouPai tile)
    (undeclared : (s.player chair).baoting ≠ some true) (fresh : (s.player chair).baipai = false) :
    Keeps c 1 (jumpToPlayerIndex (checkAllPass c answers (adjustShouPai (popDesk
      (lastActionIsCanPenghu c (cleanGzh s chair) chair tile answers)) chair .peng tile)) chair) := by
  have marked : (lastActionIsCanPenghu c (cleanGzh s chair) chair tile answers).core = s.core := by
    rw [core_lastActionIsCanPenghu, core_cleanGzh]
  have before : ∀ i, Alike (s.player i)
      ((popDesk (lastActionIsCanPenghu c (cleanGzh s chair) chair tile answers)).player i) :=
    fun i => (alike_of_core marked i).trans (alike_popDesk _ i)
  have after := alike_of_core (core_checkAllPass (c := c) answers (s := adjustShouPai (popDesk
    (lastActionIsCanPenghu c (cleanGzh s chair) chair tile answers)) chair .peng tile))
  have same := turn_of_core marked
  have turn : (popDesk (lastActionIsCanPenghu c (cleanGzh s chair) chair tile
      answers)).chuPaiPlayerIndex = s.chuPaiPlayerIndex := same
  refine keeps.meld (keeps.sound.peng answers seated held) (.inr rfl) turn before after nofun ?_
  intro _
  have laid := (alike_adjustShouPai turn (before chair) .peng tile).trans (after chair)
  obtain ⟨baoting, baipai⟩ := ganged_marks s chair .peng tile
  apply holds_unannounced
  · rw [laid.baoting]
    exact baoting ▸ undeclared
  · rw [laid.baipai]
    exact baipai.trans fresh

theorem Keeps.mingGang {chair tile : Nat} (keeps : Keeps c 0 s) (answers : List Waiting)
    (seated : chair ∈ c.seats) (held : (s.player chair).pai.shouPai tile = 3)
    (waits : Waits c (ganged s chair .mingGang tile)) :
    Keeps c 0 (jumpToPlayerIndex (checkAllPass c answers (adjustShouPai (popDesk
      (cleanGzh s chair)) chair .mingGang tile)) chair) := by
  have before : ∀ i, Alike (s.player i) ((popDesk (cleanGzh s chair)).player i) :=
    fun i => (alike_of_core (core_cleanGzh chair) i).trans (alike_popDesk _ i)
  have after := alike_of_core (core_checkAllPass (c := c) answers
    (s := adjustShouPai (popDesk (cleanGzh s chair)) chair .mingGang tile))
  have turn : (popDesk (cleanGzh s chair)).chuPaiPlayerIndex = s.chuPaiPlayerIndex := rfl
  exact keeps.meld (keeps.sound.mingGang answers seated held) (.inr rfl) turn before after
    (fun _ => waits) nofun

theorem Keeps.anGang {tile : Nat} (keeps : Keeps c 1 s)
    (held : s.chuPaiPlayer.pai.shouPai tile = 4)
    (waits : Waits c (ganged s s.chuPaiPlayerIndex .anGang tile)) :
    Keeps c 0 (jumpToPlayerIndex (adjustShouPai (cleanGzh s s.chuPaiPlayerIndex)
      s.chuPaiPlayerIndex .anGang tile) s.chuPaiPlayerIndex) := by
  have marked := core_cleanGzh (s := s) s.chuPaiPlayerIndex
  exact keeps.meld (keeps.sound.anGang held) (.inl rfl) (turn_of_core marked)
    (alike_of_core marked) (fun _ => .refl _) (fun _ => waits) nofun

/-- A triplet becomes a gang, by what `s₁` marks of `s`. -/
theorem Keeps.baGang {tile : Nat} {old : Section} {s₁ : State} (keeps : Keeps c 1 s)
    (held : 0 < s.chuPaiPlayer.pai.shouPai tile)
    (found : s.chuPaiPlayer.pai.mingPai.find? (Section.isPeng tile) = some old)
    (marked : s₁.core = s.core) (waits : Waits c (ganged s s.chuPaiPlayerIndex .baGang tile)) :
    Keeps c 0 (jumpToPlayerIndex (adjustShouPai s₁ s.chuPaiPlayerIndex .baGang tile)
      s.chuPaiPlayerIndex) := by
  have turn := turn_of_core marked
  have pai : s₁.chuPaiPlayer.pai = s.chuPaiPlayer.pai := by
    rw [State.chuPaiPlayer, turn, pai_of_core marked]
    rfl
  have sound : Sound c 0 (adjustShouPai s₁ s₁.chuPaiPlayerIndex .baGang tile) :=
    (keeps.sound.of_core marked).baGang (pai ▸ held) (pai ▸ found)
  rw [turn] at sound
  exact keeps.meld (sound.jump keeps.sound.seated) (.inl rfl) turn (alike_of_core marked)
    (fun _ => .refl _) (fun _ => waits) (by simp)

/-! ### Declarations and lay-outs -/

theorem Stays.tell (stays : Stays c left s) (chair : Nat) (info : BaotingInfo) :
    Stays c left (s.update chair fun p => p.tell info) := by
  have told : ∀ i, Alike (s.player i) ((s.update chair fun p => p.tell info).player i) ∧
      ((s.update chair fun p => p.tell info).player i).moPai = (s.player i).moPai ∧
        ((s.update chair fun p => p.tell info).player i).canDiscards =
          (s.player i).canDiscards := by
    intro i
    by_cases here : i = chair
    · subst here
      rw [State.update_self]
      exact ⟨⟨rfl, rfl, rfl, rfl, rfl, rfl⟩, rfl, rfl⟩
    · rw [State.update_of_ne here]
      exact ⟨.refl _, rfl, rfl⟩
  exact stays.congr rfl rfl rfl (fun i => (told i).1) (told s.chuPaiPlayerIndex).2

/-- A player with an answer to the ready tips. -/
theorem Keeps.declared (keeps : Keeps c 1 s) {chair : Nat} {baoting : Int}
    (unmelded : chair ∈ c.seats → (s.player chair).pai.mingPai = [])
    (ready : chair ∈ c.seats → baoting = 1 →
      chair ≠ s.chuPaiPlayerIndex ∧ ting c (s.player chair) ≠ []) :
    Keeps c 1 (s.update chair fun p => p.declare baoting) := by
  refine ⟨keeps.sound.update chair (fun _ => rfl) fun _ => rfl, ?_, ?_⟩
  · intro i seated waiting
    have waits := keeps.waits i seated waiting
    by_cases here : i = chair
    · subst here
      rw [State.update_self]
      refine ⟨waits.rule, ?_, ?_, ?_⟩
      · intro _ tile
        simp only [Player.declare, unmelded seated, List.find?_nil]
      · intro declared _
        have one : baoting = 1 := by simpa [Player.declare] using declared
        exact (ready seated one).2
      · intro lays
        have laid := waits.laid lays
        exact ⟨laid.ready, laid.held, laid.wins⟩
    · rw [State.update_of_ne here]
      exact waits
  · intro _
    have holds := keeps.holds rfl
    change Holds c ((s.update chair fun p => p.declare baoting).player s.chuPaiPlayerIndex)
    by_cases here : s.chuPaiPlayerIndex = chair
    · subst here
      have refused : ¬ baoting = 1 := fun one => (ready keeps.sound.seated one).1 rfl
      have undeclared : (s.chuPaiPlayer.declare baoting).baoting ≠ some true := by
        simp [Player.declare, refused]
      rw [State.update_self]
      refine ⟨holds.rule, ?_, ?_, ?_, holds.named⟩
      · exact fun declared => absurd declared undeclared
      · exact fun declared => absurd declared undeclared
      · intro lays tile named
        have laid := holds.laid lays tile named
        exact ⟨laid.ready, laid.held, laid.wins⟩
    · rw [State.update_of_ne here]
      exact holds

theorem Stays.declared (own : OwnTurn c s) (stays : Stays c left s) (chair : Nat) {baoting : Int}
    (told : baoting = 1 → chair ∉ left) : Stays c left (onBaoting c s chair baoting) := by
  have at_zhuang := own.offers
  rcases onBaoting_cases c s chair baoting with same | ⟨phase, fresh, answered⟩
  · rw [same]
    exact stays
  have keeps := stays.running (by rw [phase]; nofun)
  rw [phase] at keeps
  have declared : Keeps c 1 (s.update chair fun p => p.declare baoting) := by
    refine keeps.declared (fun seated => (stays.opening phase chair seated).1) ?_
    intro seated one
    exact (stays.opening phase chair seated).2 fresh (told one)
  cases answered with
  | inl same =>
      rw [same]
      refine ⟨⟨1, .inr rfl, fun _ => ?_, declared⟩, ?_, ?_, ?_⟩
      · rw [show (s.update chair fun p => p.declare baoting).fsm = .waitBaoTing from phase]
        rfl
      · intro _ i seated
        have open_ := stays.opening phase i seated
        by_cases here : i = chair
        · subst here
          rw [State.update_self]
          exact ⟨open_.1, nofun⟩
        · rw [State.update_of_ne here]
          exact open_
      · intro tile waiting waits
        exact absurd (phase.symm.trans waits) nofun
      · intro waiting waits
        exact absurd (phase.symm.trans waits) nofun
  | inr last =>
      rw [Offers, phase] at at_zhuang
      rw [last.2, ← show s.chuPaiPlayerIndex = c.zhuang from at_zhuang]
      exact declared.startTurn _

/-- Who is asked for an answer has given one. -/
theorem onBaoting_answered {chair : Nat} {baoting : Int}
    (phase : (onBaoting c s chair baoting).fsm = .waitBaoTing) :
    ((onBaoting c s chair baoting).player chair).baoting.isSome := by
  unfold onBaoting at phase ⊢
  split
  · split
    · assumption
    · dsimp only
      split
      · rw [actionAfterBaoting, (startTurn_frame _ _ _).2.1]
        simp [jumpToPlayerIndex, Player.declare]
      · simp [Player.declare]
  · rename_i other
    split at phase
    · exact absurd ‹_› other
    · exact absurd phase other

/-- Tips go to players with a ready hand. -/
theorem baotingTips_ready {chair : Nat} {info : BaotingInfo} (other : chair ≠ c.zhuang)
    (tips : baotingTips c s chair = some info) : ting c (s.player chair) ≠ [] := by
  intro unready
  simp [baotingTips, other, tingFans, unready] at tips

/-- Who has got tips or an answer has got them. -/
theorem Stays.got {chair : Nat} (stays : Stays c (chair :: left) s)
    (ready : s.fsm = .waitBaoTing → (s.player chair).baoting = none →
      chair ≠ s.chuPaiPlayerIndex ∧ ting c (s.player chair) ≠ []) : Stays c left s := by
  refine ⟨stays.keeps, ?_, stays.robbed, stays.claims⟩
  intro phase i seated
  obtain ⟨none_laid, asked⟩ := stays.opening phase i seated
  refine ⟨none_laid, ?_⟩
  intro fresh free
  by_cases here : i = chair
  · subst here
    exact ready phase fresh
  · exact asked fresh (by simp [here, free])

theorem Stays.tipped (own : OwnTurn c s) {chair : Nat} (stays : Stays c (chair :: left) s)
    (rule : c.play.baoJiao = true) : Stays c left (sendBaotingTips c s chair) := by
  have declines : ∀ {s : State}, OwnTurn c s → Stays c (chair :: left) s →
      OwnTurn c (onBaoting c s chair 0) ∧ Stays c (chair :: left) (onBaoting c s chair 0) :=
    fun own stays => ⟨ownTurn_onBaoting own chair 0, stays.declared own chair fun one => absurd one (by decide)⟩
  unfold sendBaotingTips
  rw [if_pos rule]
  dsimp only
  by_cases dealer : chair = c.zhuang
  · rw [if_pos dealer]
    obtain ⟨own₁, stays₁⟩ := declines own stays
    split
    · apply (stays₁.tell chair _).got
      intro phase fresh
      have answered := onBaoting_answered phase
      rw [State.update_self] at fresh
      simp [show ((onBaoting c s chair 0).player chair).baoting = none from fresh] at answered
    · apply (declines own₁ stays₁).2.got
      intro phase fresh
      have answered := onBaoting_answered phase
      simp [fresh] at answered
  · rw [if_neg dealer]
    split
    · rename_i info tips
      apply (stays.tell chair _).got
      intro phase _
      have turn := own.offers
      rw [Offers, show s.fsm = .waitBaoTing from phase] at turn
      rw [State.update_self]
      exact ⟨fun here => dealer (here.trans turn), baotingTips_ready dealer tips⟩
    · apply (declines own stays).2.got
      intro phase fresh
      have answered := onBaoting_answered phase
      simp [fresh] at answered

theorem Stays.tips (own : OwnTurn c s) (stays : Stays c [] s) (chairs : List Nat) :
    Stays c [] (chairs.foldl (sendBaotingTips c) s) := by
  have both := @tips_keep c s (fun s => OwnTurn c s ∧ Stays c [] s)
    (fun s chair baoting inv => ⟨ownTurn_onBaoting inv.1 chair baoting,
      inv.2.declared inv.1 chair fun _ => List.not_mem_nil⟩)
    (fun s chair info inv => ⟨inv.1.update chair (fun _ => rfl) fun _ => rfl, inv.2.tell chair info⟩)
    ⟨own, stays⟩ chairs
  exact both.2

theorem Keeps.laidOut {cards : List Nat} (keeps : Keeps c 1 s) (rule : c.play.baiPai = true)
    (can : canBaiPai s.chuPaiPlayer (some cards) = true)
    (held : ∀ v, (cards.count v : Int) ≤ s.chuPaiPlayer.pai.shouPai v) :
    Keeps c 1 (jumpToPlayerIndex (s.update s.chuPaiPlayerIndex fun p => p.layOut cards)
      s.chuPaiPlayerIndex) := by
  have sound := keeps.sound
  have laid : Rule.LaidFrom s.chuPaiPlayer.pai.toPai cards := by
    have two := sound.mod sound.seated
    have size := sound.size _ sound.seated
    have dealt := c.gameTileCount_size.2
    rw [if_pos rfl] at two size
    refine ⟨⟨⟨?_, ?_⟩, two, ?_⟩, held⟩
    · intro t some_held
      have nonneg := sound.nonneg s.chuPaiPlayerIndex t
      exact sound.suit sound.seated (lt_of_le_of_ne nonneg (Ne.symm some_held))
    · exact fun t => ⟨sound.nonneg _ t, sound.le_four sound.seated t⟩
    · simp only [State.chuPaiPlayer]
      omega
  refine keeps.replace ?_ (.inl rfl) ?_ (by simp) ?_
  · have chosen : Sound c 1 (s.update s.chuPaiPlayerIndex fun p => p.layOut cards) :=
      sound.update _ (fun _ => rfl) fun _ => rfl
    exact chosen.congr rfl rfl (fun _ => rfl) fun _ => rfl
  · intro i other
    rw [State.update_of_ne other]
    exact .refl _
  · intro _
    rw [State.update_self]
    exact (keeps.holds rfl).layOut rule laid can

/-! ### Discards and claims -/

theorem Discards.keeps {tile : Nat} (discards : Discards s r tile) (stays : Stays c left s)
    (fair : Announces c s r) : Keeps c 0 (selfPassed c (discard s tile) tile) := by
  have keeps := stays.running (by rw [discards.phase]; nofun)
  rw [discards.phase] at keeps
  have nonneg := keeps.sound.nonneg s.chuPaiPlayerIndex tile
  have held : 0 < s.chuPaiPlayer.pai.shouPai tile :=
    lt_of_le_of_ne nonneg (Ne.symm discards.held)
  have gone : Keeps c 0 (discard s tile) :=
    Keeps.discard keeps held (fair.declared tile discards) (fair.lays tile discards)
  exact gone.of_core (core_selfPassed tile)

/-- A claimed gang of a player who has laid cards out leaves them announced. -/
theorem Answers.laid {tile : Nat} {answers : List Waiting} (claims : Answers c s r tile answers)
    (stays : Stays c left s) (fair : Announces c s r) {w : Waiting} (listed : w ∈ answers) {t : Nat}
    (done : w.done = some (.mingGang, t)) (lays : (s.player w.chairId).baipai = true) :
    Laid c (ganged s w.chairId .mingGang t) := by
  obtain ⟨waiting, action, t', session, phase, msg, rfl⟩ := claims.asked
  have old : w ∈ waiting → Laid c (ganged s w.chairId .mingGang t) :=
    fun before => stays.claims waiting phase w before t done lays
  unfold answer at listed
  cases h : MaajanXuezhan.checkActionBeforeDo waiting r.chair action t' session with
  | none =>
      rw [h] at listed
      exact old listed
  | some asked =>
      rw [h] at listed
      obtain ⟨w', before, rfl⟩ := List.mem_map.1 listed
      by_cases here : w'.chairId = r.chair
      · rw [if_pos here] at done lays ⊢
        obtain ⟨rfl, rfl⟩ := Prod.mk.injEq .. ▸ Option.some.inj done
        rw [here] at lays ⊢
        exact fair.gangs .mingGang t' (.mingGang phase msg h) lays
      · rw [if_neg here] at done lays ⊢
        exact stays.claims waiting phase w' before t done lays

theorem Answers.keeps {tile : Nat} {answers : List Waiting} (claims : Answers c s r tile answers)
    (stays : Stays c left s) : Keeps c 0 s := by
  obtain ⟨_, _, _, _, phase, _⟩ := claims.asked
  have keeps := stays.running (by rw [phase]; nofun)
  rw [phase] at keeps
  exact keeps

theorem Acts.keeps {act : Action × Nat} (acts : Acts s r act) (stays : Stays c left s) :
    Keeps c 1 s := by
  obtain ⟨_, phase, _⟩ := acts.phase
  have keeps := stays.running (by rw [phase]; nofun)
  rw [phase] at keeps
  exact keeps

/-- Who has announced a hand is not offered a triplet. -/
theorem peng_unannounced {chair tile : Nat} (rule : (s.player chair).baipai = true →
      c.play.baiPai = true)
    (offered : (Action.peng, tile) ∈ getActions c s chair none (some tile) false) :
    (s.player chair).baoting ≠ some true ∧ (s.player chair).baipai = false := by
  refine ⟨?_, ?_⟩
  · intro declared
    have kept := (List.mem_filter.1 ((mem_getActions offered).2 declared)).2
    cases kept
  · refine Bool.eq_false_of_not_eq_true fun lays => ?_
    unfold getActions at offered
    dsimp only at offered
    rw [rule lays, lays, Bool.and_self, if_pos rfl] at offered
    have kept := (List.mem_filter.1 offered).2
    cases kept

end FkServer.MaajanNanchong
