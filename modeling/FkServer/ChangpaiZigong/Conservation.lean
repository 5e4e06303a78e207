import FkServer.ChangpaiZigong.Claims
import FkServer.ChangpaiZigong.Start
import FkServer.Library.Runs

/-!
No card is lost or made up: which messages the handlers answer lawfully, and what every
step of the table does to the cards when it meets only such messages.
-/
namespace FkServer.ChangpaiZigong

/-- The cards a message names are the ones offered for its action. -/
def Names (a : Actions) (msg : Msg) : Prop :=
  match msg.action with
  | .peng => ∃ x ∈ a.peng, place msg.valueTile = some x
  | .tou => ∃ x ∈ a.tou, place msg.valueTile = some x
  | .chi => ∃ e ∈ a.chi, place msg.valueTile = some e.2 ∧ place msg.otherTile = some e.1
  | _ => True

/-- What else a message that the handlers let through must keep to: a flipped card is taken
only when the player who flipped it has no discards; a player who eats with no card marked
unusable yet is left with another card, and the card drawn last may still be played; the
dealer leaves the opening with a first card that may be played. -/
def Lawful (c : Conf) (t : Table) (chair : Nat) (msg : Msg) : Aim → Prop
  | .cards =>
      t.fsm = .waitActionAfterFanPai → msg.action = .peng ∨ msg.action = .chi →
        t.chuPaiPlayer.pai.deskTiles = []
  | .discards =>
      (msg.action = .chi → ∀ x ∈ place msg.valueTile, ∀ y ∈ place msg.otherTile,
        ((t.player chair).pai.unUsecard = none → chiLeaves (t.player chair).pai [] y x) ∧
        ∀ mo ∈ (t.player chair).moPai, 0 < decr (t.player chair).pai.shouPai y 1 mo →
          mo ≠ x ∧ mo ∉ (t.player chair).pai.unusable) ∧
      (t.fsm = .waitActionAfterFirstFirstTouPai → msg.action = .pass → t.cur = t.zhuang →
        Leads c (t.player t.zhuang))

/-- The requests a run is to meet: a message that the handlers let through names the cards
offered, adds no flipped card to a section and is lawful; a discard sent while a flip is
due is refused only to a player who has a card to discard. -/
def Honest (c : Conf) (aim : Aim) (t : Table) : Request → Prop
  | .doAction chair msg =>
      (Table.checkActionBeforeDo (t.waitingActions.getD []) chair msg).isSome →
        (∀ o ∈ t.waitingActions.getD [], o.chair = chair → Names o.actions msg) ∧
        (t.fsm = .waitActionAfterFanPai → msg.action ≠ .baGang) ∧ Lawful c t chair msg aim
  | .discard _ tile isSure =>
      aim = .discards → t.clock ≠ none → Refused c t tile isSure → Fit t.chuPaiPlayer
  | _ => True

instance (a : Actions) (msg : Msg) : Decidable (Names a msg) := by
  unfold Names
  split <;> infer_instance

/-- The card on the table that may be claimed. -/
def claimed (t : Table) : Option Nat :=
  match t.fsm with
  | .waitActionAfterChuPai => t.chuPaiPlayer.chuPai
  | .waitActionAfterFanPai => t.chuPaiPlayer.fanPai
  | _ => none

variable {c : Conf} {aim : Aim} {t t' : Table} {i tile : Nat} {msg : Msg}
variable {claim : Option Nat} {waiting : List Offer}

theorem Moves.of_quiet (stock : Stock c t') (alike : Alike c t t')
    (offers : t'.waitingActions.getD [] = [])
    (fsm : t'.fsm ≠ .waitQiangGangHu ∧ t'.fsm ≠ .gameOver)
    (timed : ∀ k ∈ t'.clock, k.Runs t'.fsm) (supply : aim = .discards → Supply c t') :
    Moves c aim claim t t' :=
  Goes.moves ⟨.inr (Table.sound_of_quiet stock offers fsm timed supply), alike⟩

theorem Moves.of_ready (ready : Ready c t') (alike : Alike c t t')
    (fsm : t'.fsm ≠ .waitQiangGangHu ∧ t'.fsm ≠ .gameOver)
    (supply : aim = .discards → Supply c t') : Moves c aim claim t t' :=
  Goes.moves ⟨.inr (Table.sound_of_ready ready fsm supply), alike⟩

theorem Moves.refl (inv : Inv c aim t) : Moves c aim claim t t :=
  Goes.moves ⟨inv, alike_of_holdings rfl⟩

/-- An answer to a claim that keeps to the rules. -/
def Fair (aim : Aim) (t : Table) (o : Offer) (d : Done) : Prop :=
  Answer o.actions d ∧
  (aim = .discards → d.action = .chi → ∀ x ∈ d.tile, ∀ y ∈ d.otherTile,
    Eats (t.player o.chair) x y) ∧
  (t.fsm = .waitActionAfterFanPai → aim = .cards → d.action = .peng ∨ d.action = .chi →
    t.chuPaiPlayer.pai.deskTiles = [])

theorem ClaimOffer.of_same {o o' : Offer} (claim : ClaimOffer c aim t tile o)
    (player : t'.player = t.player) (chair : o'.chair = o.chair)
    (actions : o'.actions = o.actions) (done : ∀ d ∈ o'.done, o.done = some d ∨ Fair aim t o d) :
    ClaimOffer c aim t' tile o' := by
  refine ⟨chair ▸ claim.chair, ?_, ?_, actions ▸ claim.tou, ?_, ?_⟩
  · rw [player, chair, actions]
    exact claim.peng
  · rw [player, chair, actions]
    exact claim.chi
  · rw [actions]
    intro d mem
    cases done d mem with
    | inl old => exact claim.done d old
    | inr new => exact new.1
  · rw [player, chair]
    intro watched d mem
    cases done d mem with
    | inl old => exact claim.eats watched d old
    | inr new => exact new.2.1 watched

/-- Offers rest on the players' cards and on the card on the table, and their answers on
the offers. -/
theorem Backed.of_same {o o' : Offer} (backed : Backed c aim t o) (fsm : t'.fsm = t.fsm)
    (player : t'.player = t.player) (cur : t'.cur = t.cur) (untaken : t'.untaken = t.untaken)
    (chair : o'.chair = o.chair) (actions : o'.actions = o.actions)
    (done : t.fsm = .waitActionAfterChuPai ∨ t.fsm = .waitActionAfterFanPai →
      ∀ d ∈ o'.done, o.done = some d ∨ Fair aim t o d) : Backed c aim t' o' := by
  have turn : t'.chuPaiPlayer = t.chuPaiPlayer := by
    rw [Table.chuPaiPlayer, Table.chuPaiPlayer, player, cur]
  unfold Backed at backed ⊢
  rw [fsm]
  split at backed
  · exact ⟨chair.trans (backed.chair.trans cur.symm), turn ▸ actions ▸ backed.tou,
      turn ▸ actions ▸ backed.baGang⟩
  · exact ⟨chair.trans (backed.chair.trans cur.symm), turn ▸ actions ▸ backed.tou,
      turn ▸ actions ▸ backed.baGang⟩
  · trivial
  · rename_i phase
    obtain ⟨tile, claim⟩ := backed
    exact ⟨tile, claim.card, turn ▸ claim.chu, turn ▸ claim.desk,
      claim.offer.of_same player chair actions (done (.inl phase)), actions ▸ claim.baGang⟩
  · rename_i phase
    obtain ⟨tile, claim⟩ := backed
    refine ⟨tile, claim.card, turn ▸ claim.fan, untaken ▸ claim.untaken,
      claim.offer.of_same player chair actions (done (.inr phase)), fun watched d mem act => ?_⟩
    rw [turn]
    cases done (.inr phase) d mem with
    | inl old => exact claim.bare watched d old act
    | inr new => exact new.2.2 phase watched act
  · exact backed

/-- In the two states that wait for claims every offer is one. -/
theorem Backed.claimOffer {o : Offer} (backed : Backed c aim t o)
    (phase : t.fsm = .waitActionAfterChuPai ∨ t.fsm = .waitActionAfterFanPai) :
    ∃ tile, ClaimOffer c aim t tile o := by
  unfold Backed at backed
  cases phase with
  | inl h =>
      rw [h] at backed
      obtain ⟨tile, claim⟩ := backed
      exact ⟨tile, claim.offer⟩
  | inr h =>
      rw [h] at backed
      obtain ⟨tile, claim⟩ := backed
      exact ⟨tile, claim.offer⟩

/-- The timers are stopped. -/
theorem Sound.clockOff (sound : Sound c aim t) (phase : t.fsm ≠ .waitChuPai) :
    Sound c aim { t with clock := none } :=
  { toStock := sound.toStock.of_holdings sound.cur rfl
    offers := fun o mem =>
      (sound.offers o mem).of_same rfl rfl rfl rfl rfl rfl fun _ _ same => .inl same
    still := fun _ runs => absurd runs (Option.some_ne_none _).symm
    rob := sound.rob
    running := sound.running
    supply := fun watched => by
      have supply := sound.supply watched
      unfold Supply at supply ⊢
      dsimp only
      split at supply
      · rename_i h
        exact absurd h phase
      · exact supply
      · exact supply
      · exact supply
      · exact ⟨supply.held, supply.shown, supply.first⟩
      · exact ⟨supply.held, supply.shown, supply.first⟩
      · trivial }

theorem Moves.clockOff (sound : Sound c aim t) (phase : t.fsm ≠ .waitChuPai) :
    Moves c aim claim t { t with clock := none } :=
  Goes.moves ⟨.inr (sound.clockOff phase), alike_of_holdings rfl⟩

/-- The round ends with the cards where they are. -/
theorem Moves.balance (stock : Stock c t) :
    EarlyExit.Ends (Moves c aim claim t) (Moves c aim claim t) t.doBalance :=
  Goes.moves ⟨.inl (Table.over_of stock), alike_of_holdings rfl⟩

/-- An answer that names the offered cards. -/
theorem Names.answer {a : Actions} (names : Names a msg)
    (act : msg.action ∈ [Action.peng, .chi, .hu, .pass]) :
    Answer a ⟨msg.action, place msg.valueTile, place msg.otherTile⟩ := by
  unfold Names at names
  unfold Answer
  dsimp only
  cases h : msg.action <;> simp_all

/-- A player who keeps to the rules is left with a card to discard. -/
theorem ClaimOffer.lawful_eats {o : Offer} (claim : ClaimOffer c aim t tile o)
    (names : Names o.actions msg) (act : msg.action = .chi)
    (lawful : ∀ x ∈ place msg.valueTile, ∀ y ∈ place msg.otherTile,
      ((t.player o.chair).pai.unUsecard = none → chiLeaves (t.player o.chair).pai [] y x) ∧
      ∀ mo ∈ (t.player o.chair).moPai, 0 < decr (t.player o.chair).pai.shouPai y 1 mo →
        mo ≠ x ∧ mo ∉ (t.player o.chair).pai.unusable) {x y : Nat}
    (tile_ : x ∈ place msg.valueTile) (other : y ∈ place msg.otherTile) :
    Eats (t.player o.chair) x y := by
  obtain ⟨bare, drawn⟩ := lawful x tile_ y other
  refine ⟨?_, drawn⟩
  unfold Names at names
  rw [act] at names
  obtain ⟨e, offered, value, spent⟩ := names
  obtain rfl : e.2 = x := Option.some.inj (value.symm.trans tile_)
  obtain rfl : e.1 = y := Option.some.inj (spent.symm.trans other)
  cases marked : (t.player o.chair).pai.unUsecard with
  | none =>
      rw [Pai.unusable, marked]
      exact bare marked
  | some unusable =>
      rw [Pai.unusable, marked]
      exact (claim.chi e offered).2.2 unusable marked

/-- An answer is written beside its offer. -/
theorem Sound.marked (sound : Sound c aim t) (asked : t.waitingActions = some waiting)
    (phase : t.fsm = .waitActionAfterChuPai ∨ t.fsm = .waitActionAfterFanPai)
    (names : ∀ o ∈ waiting, o.chair = i → Names o.actions msg)
    (act : msg.action ∈ [Action.peng, .chi, .hu, .pass]) (lawful : Lawful c t i msg aim) :
    Sound c aim { t with waitingActions := some (Table.markDone waiting i msg) } := by
  have noRob : t.fsm ≠ .waitQiangGangHu := by
    cases phase with
    | inl h => simp [h]
    | inr h => simp [h]
  have same : t.waitingActions.getD [] = waiting := by rw [asked, Option.getD_some]
  exact {
    toStock := sound.toStock.of_holdings sound.cur rfl
    offers := fun o mem => by
      obtain ⟨old, before, chair, actions, done⟩ := Table.mem_markDone mem
      have backed := sound.offers old (same ▸ before)
      refine backed.of_same rfl rfl rfl rfl chair actions fun _ d answered => ?_
      cases done with
      | inl kept => exact .inl (kept ▸ answered)
      | inr new =>
          obtain ⟨mine, given⟩ := new
          obtain rfl := Option.some.inj (given.symm.trans answered)
          have named := names old before mine
          obtain ⟨tile, claim⟩ := backed.claimOffer phase
          refine .inr ⟨named.answer act, fun watched eat x value y other => ?_,
            fun fan watched => ?_⟩
          · subst watched mine
            exact claim.lawful_eats named eat (lawful.1 eat) value other
          · subst watched
            exact lawful fan
    still := fun k runs => by
      obtain ⟨none, runs⟩ := sound.still k runs
      have nobody : waiting = [] := same ▸ none
      exact ⟨by simp [nobody, Table.markDone], runs⟩
    rob := fun _ _ here => absurd here noRob
    running := sound.running
    supply := fun _ => by
      unfold Supply
      cases phase with
      | inl h => simp only [h]
      | inr h => simp only [h] }

theorem Fit.of_keeps (fit : Fit (t.player i)) (keeps : Keeps t t') : Fit (t'.player i) := by
  obtain ⟨⟨x, held, usable⟩, drawn⟩ := fit
  refine ⟨⟨x, ?_, ?_⟩, ?_⟩
  · rw [keeps.pai]
    exact held
  · rw [keeps.pai]
    exact usable
  · rw [keeps.pai, keeps.moPai]
    exact drawn

namespace Table

/-- The discard goes to the player who claims it. -/
theorem popDesk_taken (ready : Ready c t) : Taken c t t.popDesk := by
  have pai : ∀ j, (t.popDesk.player j).pai.shouPai = (t.player j).pai.shouPai ∧
      (t.popDesk.player j).pai.mingPai = (t.player j).pai.mingPai ∧
      (t.popDesk.player j).pai.unUsecard = (t.player j).pai.unUsecard ∧
      (t.popDesk.player j).moPai = (t.player j).moPai := by
    intro j
    rw [popDesk, setPai_player]
    split <;> exact ⟨rfl, rfl, rfl, rfl⟩
  refine ⟨⟨⟨ready.cur, ready.zhuang, ?_, ?_, ready.wall⟩, ready.offers, ready.clock⟩,
    fun j => (pai j).1, fun j => (pai j).2.1, fun j => (pai j).2.2.1, fun j => (pai j).2.2.2⟩
  · intro j x
    rw [(pai j).1]
    exact ready.held j x
  · intro j x
    rw [(pai j).1]
    exact ready.cards j x

theorem Taken.from {t₀ t₁ : Table} (h : Taken c t₁ t₀)
    (keeps : Keeps { t with waitingActions := none, clock := none } t₁) : Taken c t t₀ :=
  ⟨h.ready, fun j => (h.hand j).trans (congrArg Pai.shouPai (keeps.pai j)),
    fun j => (h.ming j).trans (congrArg Pai.mingPai (keeps.pai j)),
    fun j => (h.unUsecard j).trans (congrArg Pai.unUsecard (keeps.pai j)),
    fun j => (h.moPai j).trans (keeps.moPai j)⟩

theorem popDesk_cards (stock : Stock c t) (x : Nat) :
    total c t.popDesk x = total c t x + t.chuPaiPlayer.pai.deskTiles.dropLast.count x -
      t.chuPaiPlayer.pai.deskTiles.count x := by
  rw [popDesk, total_setPai stock.cur]
  simp only [Pai.cards, chuPaiPlayer]
  omega

theorem nobodyTakes_goes (stock : Stock c t) (offers : t.waitingActions.getD [] = [])
    (phase : Clock.fanPai.Runs t.fsm) (tile : Option Nat) (answers : List (Offer × Done)) :
    Goes c aim t (t.nobodyTakes c tile answers) := by
  have keeps : Keeps t (t.checkAllPass c tile answers) := .checkAllPass t tile answers
  exact Goes.after keeps.alike
    (nextFlips_goes (keeps.stock stock) (keeps.waiting ▸ offers) (keeps.fsm ▸ phase))

/-- Once the answers are in, the table has no offer and runs no timer. -/
theorem ready_of_answered (stock : Stock c t) :
    Ready c { t with waitingActions := none, clock := none } :=
  { toStock := stock.of_holdings stock.cur rfl
    offers := rfl
    clock := rfl }

theorem untake_cards {rest : List Nat} (flip : t.untaken = tile :: rest) (x : Nat) :
    total c { t with untaken := t.untaken.tail } x + (if x = tile then 1 else 0) =
      total c t x := by
  simp only [total, flip, List.tail_cons, List.count_append]
  by_cases here : x = tile
  · simp only [here, List.count_cons_self, if_true]
    omega
  · simp only [List.count_cons_of_ne (Ne.symm here), here, if_false]
    omega

variable {offer : Offer} {done : Done} {t₁ : Table}

/-- The discard that is claimed is the last one of the player on turn. -/
theorem takeChu_moves (stock : Stock c t)
    (desk : ∃ rest, t.chuPaiPlayer.pai.deskTiles = rest ++ [tile])
    (claim : ClaimOffer c aim t tile offer) (card : Card tile) (answered : offer.done = some done)
    (act : done.action ≠ .pass) {inPai : Option Nat} {answers : List (Offer × Done)}
    (keeps : Keeps { t with waitingActions := none, clock := none } t₁) :
    EarlyExit.Ends (Moves c aim (some tile) t) (Moves c aim (some tile) t)
      (t₁.popDesk.takeCard c inPai answers offer.chair done) := by
  have ready := keeps.ready (ready_of_answered stock)
  have taken : Taken c t t₁.popDesk := (popDesk_taken ready).from keeps
  have left : ∀ x, total c t₁.popDesk x + (if x = tile then 1 else 0) = total c t x := by
    intro x
    obtain ⟨rest, top⟩ := desk
    have same : total c t₁ x = total c t x := keeps.alike.cards x
    have pile : t₁.chuPaiPlayer.pai.deskTiles = rest ++ [tile] := by
      rw [chuPaiPlayer, keeps.cur, keeps.pai]
      exact top
    rw [popDesk_cards ready.toStock, same, pile, List.dropLast_concat, List.count_append]
    by_cases here : x = tile
    · simp only [here, List.count_singleton_self, if_true]
      omega
    · simp [here, Ne.symm here]
  exact takeCard_moves taken claim card answered act (fun _ _ => left) (fun x => (left x).le)
    inPai answers

/-- A flipped card that is claimed lies before no discards, where the cards are watched. -/
theorem takeFan_moves (stock : Stock c t) (top : ∃ rest, t.untaken = tile :: rest)
    (claim : ClaimOffer c aim t tile offer) (card : Card tile) (answered : offer.done = some done)
    (act : done.action ≠ .pass)
    (bare : aim = .cards → done.action = .peng ∨ done.action = .chi →
      t.chuPaiPlayer.pai.deskTiles = [])
    {inPai : Option Nat} {answers : List (Offer × Done)}
    (keeps : Keeps { t with waitingActions := none, clock := none } t₁) :
    EarlyExit.Ends (Moves c aim (some tile) t) (Moves c aim (some tile) t)
      ({ t₁.popDesk with untaken := t₁.untaken.tail }.takeCard c inPai answers
        offer.chair done) := by
  have ready := keeps.ready (ready_of_answered stock)
  have popped : Taken c t t₁.popDesk := (popDesk_taken ready).from keeps
  have stock' : Stock c { t₁.popDesk with untaken := t₁.untaken.tail } :=
    popped.ready.toStock.of_pai (fun _ => .of_eq rfl) popped.ready.cur rfl rfl
  have taken : Taken c t { t₁.popDesk with untaken := t₁.untaken.tail } :=
    ⟨⟨stock', popped.ready.offers, popped.ready.clock⟩, popped.hand, popped.ming,
      popped.unUsecard, popped.moPai⟩
  have left : ∀ x, total c { t₁.popDesk with untaken := t₁.untaken.tail } x +
      (if x = tile then 1 else 0) = total c t x +
        t₁.chuPaiPlayer.pai.deskTiles.dropLast.count x -
          t₁.chuPaiPlayer.pai.deskTiles.count x := by
    intro x
    obtain ⟨rest, flip⟩ := top
    have same : total c t₁ x = total c t x := keeps.alike.cards x
    have flips : t₁.popDesk.untaken = tile :: rest := keeps.piles.2.trans flip
    have whole : total c { t₁.popDesk with untaken := t₁.untaken.tail } x + _ = _ :=
      untake_cards flips x
    rw [whole, popDesk_cards ready.toStock, same]
  refine takeCard_moves taken claim card answered act (fun watched takes x => ?_) (fun x => ?_)
    inPai answers
  · have pile : t₁.chuPaiPlayer.pai.deskTiles = [] := by
      rw [chuPaiPlayer, keeps.cur, keeps.pai]
      exact bare watched takes
    rw [left, pile]
    simp
  · have fewer := (List.dropLast_sublist t₁.chuPaiPlayer.pai.deskTiles).count_le x
    rw [left]
    omega

/-- `on_action_after_chu_pai` -/
theorem onActionAfterChuPai_moves (sound : Sound c aim t)
    (phase : t.fsm = .waitActionAfterChuPai) (honest : Honest c aim t (.doAction i msg))
    (act : msg.action ∈ [Action.peng, .chi, .hu, .pass]) :
    EarlyExit.Ends (Moves c aim t.chuPaiPlayer.chuPai t)
      (Moves c aim t.chuPaiPlayer.chuPai t) (t.onActionAfterChuPai c i msg) := by
  have stays : Moves c aim t.chuPaiPlayer.chuPai t t := .refl (.inr sound)
  unfold onActionAfterChuPai
  split
  · exact stays
  · rename_i waiting asked
    have same : t.waitingActions.getD [] = waiting := by rw [asked, Option.getD_some]
    dsimp only
    split
    · exact stays
    · split
      · exact stays
      · rename_i passed
        obtain ⟨names, _, lawful⟩ := honest (by rw [same, passed]; rfl)
        have marked := sound.marked asked (.inl phase) (same ▸ names) act lawful
        have alike : ∀ w k, Alike c t { t with waitingActions := w, clock := k } :=
          fun _ _ => alike_of_holdings rfl
        split
        · exact Goes.moves ⟨.inr marked, alike _ _⟩
        · split
          · exact Goes.moves ⟨.inr marked, alike _ _⟩
          · have stock : ∀ w k, Stock c { t with waitingActions := w, clock := k } := fun _ _ =>
              sound.toStock.of_holdings sound.cur rfl
            split
            · exact .of_quiet (stock none t.clock) (alike none t.clock) rfl (by simp [phase])
                (fun k runs => (sound.still k runs).2) fun _ => by simp [Supply, phase]
            · rename_i top found
              split
              · exact Goes.moves (Goes.after (alike none none)
                  (nobodyTakes_goes (stock none none) rfl (.inr (.inl phase)) _ _))
              · rename_i notPass
                obtain ⟨mem, answered⟩ := mem_allActions (first_mem found)
                have backed := marked.offers top.1 mem
                unfold Backed at backed
                rw [phase] at backed
                obtain ⟨tile, claim⟩ := backed
                have chu : t.chuPaiPlayer.chuPai = some tile := claim.chu
                have offer : ClaimOffer c aim t tile top.1 :=
                  claim.offer.of_same rfl rfl rfl fun _ given => .inl given
                rw [chu]
                apply takeChu_moves sound.toStock claim.desk offer claim.card answered notPass
                split
                · exact .markChuBao _ _
                · exact .refl _

/-- `on_action_after_fan_pai` -/
theorem onActionAfterFanPai_moves (sound : Sound c aim t)
    (phase : t.fsm = .waitActionAfterFanPai) (honest : Honest c aim t (.doAction i msg))
    (act : msg.action ∈ [Action.baGang, .pass, .ziMo, .chi, .peng, .hu]) :
    EarlyExit.Ends (Moves c aim t.chuPaiPlayer.fanPai t)
      (Moves c aim t.chuPaiPlayer.fanPai t) (t.onActionAfterFanPai c i msg) := by
  have stays : Moves c aim t.chuPaiPlayer.fanPai t t := .refl (.inr sound)
  unfold onActionAfterFanPai
  split
  · exact stays
  · exact stays
  · rename_i waiting _ asked
    have same : t.waitingActions.getD [] = waiting := by rw [asked, Option.getD_some]
    dsimp only
    split
    · exact stays
    · split
      · exact stays
      · split
        · exact stays
        · rename_i passed
          obtain ⟨names, only, lawful⟩ := honest (by rw [same, passed]; rfl)
          have noGang := only phase
          have act' : msg.action ∈ [Action.peng, .chi, .hu, .pass] := by
            have keys := (checkActionBeforeDo_some passed).2.2.1
            cases h : msg.action <;> simp_all [Actions.keys]
          have marked := sound.marked asked (.inr phase) (same ▸ names) act' lawful
          have alike : ∀ w k, Alike c t { t with waitingActions := w, clock := k } :=
            fun _ _ => alike_of_holdings rfl
          split
          · exact Goes.moves ⟨.inr marked, alike _ _⟩
          · split
            · exact Goes.moves ⟨.inr marked, alike _ _⟩
            · have stock : ∀ w k, Stock c { t with waitingActions := w, clock := k } := fun _ _ =>
                sound.toStock.of_holdings sound.cur rfl
              split
              · exact .of_ready (ready_of_answered sound.toStock) (alike none none)
                  (by simp [phase]) fun _ => by simp [Supply, phase]
              · rename_i top found
                split
                · exact Goes.moves (Goes.after (alike none none)
                    (nobodyTakes_goes (stock none none) rfl (.inr (.inr phase)) _ _))
                · rename_i notPass
                  split
                  · exact .of_ready (ready_of_answered sound.toStock) (alike none none)
                      (by simp [phase]) fun _ => by simp [Supply, phase]
                  · obtain ⟨mem, answered⟩ := mem_allActions (first_mem found)
                    have backed := marked.offers top.1 mem
                    unfold Backed at backed
                    rw [phase] at backed
                    obtain ⟨tile, claim⟩ := backed
                    have fan : t.chuPaiPlayer.fanPai = some tile := claim.fan
                    have offer : ClaimOffer c aim t tile top.1 :=
                      claim.offer.of_same rfl rfl rfl fun _ given => .inl given
                    have bare : aim = .cards → top.2.action = .peng ∨ top.2.action = .chi →
                      t.chuPaiPlayer.pai.deskTiles = [] := fun s => claim.bare s top.2 answered
                    rw [fan]
                    have keeps : Keeps { t with waitingActions := none, clock := none }
                        (if top.2.action = .chi then
                          { t with waitingActions := none, clock := none }.markFanBao c
                            (allActions (markDone waiting i msg)) top.1.chair
                        else { t with waitingActions := none, clock := none }) := by
                      split
                      · exact .markFanBao _ _ _
                      · exact .refl _
                    exact takeFan_moves sound.toStock claim.untaken offer claim.card answered
                      notPass bare keeps

/-- The player on turn has answered. -/
theorem ready_of_turn (stock : Stock c t) :
    Ready c { t with waitingActions := some [], clock := none } ∧
      Alike c t { t with waitingActions := some [], clock := none } :=
  ⟨⟨stock.of_holdings stock.cur rfl, rfl, rfl⟩, alike_of_holdings rfl⟩

/-- The fourth card is added at once, or others are asked whether they rob it. -/
theorem askRobbers_moves (ready : Ready c t) (can : CanAdd (t.player t.cur).pai tile) :
    EarlyExit.Ends (Moves c aim claim t) (Moves c aim claim t)
      (if t.robbers c tile = [] then do
        let t₁ ← t.adjustShouPai t.cur .baGang (some tile) none
        moPai c (t₁.cleanGzh t.cur)
      else
        .ok { t.waitFor (t.robbers c tile) with
          fsm := .waitQiangGangHu
          waitingActions := some []
          qiangGangActions :=
            some ⟨tile, (t.waitFor (t.robbers c tile)).waitingActions.getD []⟩ }) := by
  split
  · refine baGang_moves ready ready.cur can fun t₁ ready₁ _ => ?_
    have clean := Keeps.cleanGzh t₁ t.cur
    exact Goes.endsAfter clean.alike (moPai_goes (clean.ready ready₁))
  · refine Goes.moves ⟨.inr ?_, alike_of_holdings rfl⟩
    exact {
      toStock := ready.toStock.of_holdings ready.cur rfl
      offers := fun _ mem => absurd mem List.not_mem_nil
      still := fun _ runs => absurd (ready.clock.symm.trans runs) (Option.some_ne_none _).symm
      rob := fun q here _ => Option.some.inj here ▸ can
      running := by simp
      supply := fun _ => trivial }

/-- The player on turn shows three cards. -/
theorem showThree_moves (ready : Ready c t) (held : 3 ≤ (t.player t.cur).pai.shouPai tile)
    {k : Table → Run} (next : ∀ t₁, Ready c t₁ → Showed c t t₁ t.cur →
      EarlyExit.Ends (Goes c aim t₁) (Goes c aim t₁) (k t₁)) :
    EarlyExit.Ends (Moves c aim claim t) (Moves c aim claim t)
      ((t.cleanGzh t.cur).adjustShouPai t.cur .tou (some tile) none >>= k) := by
  have clean := Keeps.cleanGzh t t.cur
  have held' : 3 ≤ ((t.cleanGzh t.cur).player t.cur).pai.shouPai tile := by
    rw [clean.pai]
    exact held
  exact Moves.endsAfter clean.alike (fun j => congrArg Pai.shouPai (clean.pai j))
    (tou_moves (clean.ready ready) ready.cur held' fun t₁ ready₁ showed =>
      next t₁ ready₁ (showed.of_keeps clean))

/-- After a draw the opening goes on. -/
theorem redeal_goes (ready : Ready c t₁) (showed : Showed c t t₁ t.cur)
    (phase : t.fsm = .waitActionAfterFirstFirstTouPai)
    (dealing : aim = .discards → Dealing c t) (few : ∀ x, Card x → total c t x ≤ 4) :
    EarlyExit.Ends (Goes c aim t₁) (Goes c aim t₁)
      (t₁.draw >>= fun t₂ => actionAfterFaPai c c.startCount t₂) := by
  refine EarlyExit.Ends.bind ((draw_ends ready.toStock).mono ?_ fun _ h => h) ?_
  · intro t₂ ⟨ended, alike⟩
    exact ⟨.inl ended, alike⟩
  · intro t₂ ⟨stock, alike, fsm, offers, clock, drew⟩
    have cur : t₂.cur = t.cur := drew.cur.trans showed.cur
    have zhuang : t₂.zhuang = t.zhuang := drew.zhuang.trans showed.zhuang
    have others : ∀ j, j ≠ t.cur → (t₂.player j).pai = (t.player j).pai := fun j other =>
      (drew.others j (showed.cur ▸ other)).trans (showed.others j other)
    have dealing' : aim = .discards → Dealing c t₂ := by
      intro watched
      obtain ⟨held, shown, first⟩ := dealing watched
      by_cases turn : t.cur = t.zhuang
      · have dealer : t₂.player t₂.zhuang = t₂.chuPaiPlayer := by
          rw [chuPaiPlayer, zhuang, cur, turn]
        refine ⟨?_, fun _ => ?_, fun away => absurd (cur.trans (turn.trans zhuang.symm)) away⟩
        · rw [dealer]
          obtain ⟨mo, _, held⟩ := drew.mo
          exact ⟨mo, held⟩
        · have covered := showed.covered (turn ▸ shown turn)
          intro x unusable
          rw [dealer, Pai.unusable, drew.unUsecard, chuPaiPlayer, showed.cur] at unusable
          obtain ⟨s, mem, shows⟩ := covered x unusable
          refine ⟨s, ?_, shows⟩
          rw [dealer, drew.mingPai, chuPaiPlayer, showed.cur]
          exact mem
      · have dealer : (t₂.player t₂.zhuang).pai = (t.player t.zhuang).pai := by
          rw [zhuang]
          exact others t.zhuang (Ne.symm turn)
        refine ⟨dealer ▸ held, fun here => absurd (cur.symm.trans (here.trans zhuang)) turn,
          fun _ => ?_⟩
        obtain ⟨x, leads, usable⟩ := first turn
        exact ⟨x, dealer ▸ leads, dealer ▸ usable⟩
    have none : t₂.clock = none := clock.trans ready.clock
    refine Goes.endsAfter alike (actionAfterFaPai_goes c.startCount stock
      (offers ▸ ready.offers) (.inr (fsm.trans (showed.fsm.trans phase)))
      (fun _ runs => absurd (none.symm.trans runs) (Option.some_ne_none _).symm) dealing'
      fun x card => ?_)
    rw [alike.cards, showed.cards]
    exact few x card

/-- `on_action_after_mo_pai` -/
theorem onActionAfterMoPai_moves (sound : Sound c aim t)
    (phase : t.fsm = .waitActionAfterJinPai) (honest : Honest c aim t (.doAction i msg)) :
    EarlyExit.Ends (Moves c aim claim t) (Moves c aim claim t)
      (t.onActionAfterMoPai c i msg) := by
  have fresh : aim = .discards → Fresh t.chuPaiPlayer := by
    intro watched
    have supply := sound.supply watched
    unfold Supply at supply
    rw [phase] at supply
    exact supply
  unfold onActionAfterMoPai
  split
  · exact .refl (.inr sound)
  · rename_i offer passed
    obtain ⟨mem, chair, keys, gang⟩ := checkActionBeforeDo_some passed
    have names := (honest (by rw [passed]; rfl)).1 offer mem chair
    have backed := sound.offers offer mem
    unfold Backed at backed
    rw [phase] at backed
    dsimp only
    split
    · exact Moves.clockOff sound (by simp [phase])
    · rename_i turn
      obtain rfl : i = t.cur := Classical.not_not.1 turn
      obtain ⟨ready, alike⟩ := ready_of_turn sound.toStock
      refine Moves.endsAfter alike (fun _ => rfl) ?_
      split
      · rename_i act
        obtain ⟨x, offered, named⟩ := gang act
        have can : CanAdd (t.player t.cur).pai x := backed.baGang x offered
        rw [named]
        exact askRobbers_moves ready can
      · rename_i act
        unfold Names at names
        rw [act] at names
        obtain ⟨x, offered, named⟩ := names
        rw [named]
        exact showThree_moves ready (backed.tou x offered) fun t₁ ready₁ _ => moPai_goes ready₁
      · exact .balance ready.toStock
      · have keeps : Keeps { t with waitingActions := some [], clock := none }
            ({ t with waitingActions := some [], clock := none }.setPlayer t.cur fun p =>
              if offer.actions.hu = [] ∧ offer.actions.tianHu = [] then p
              else { p with gzh := some (c.huFan p.pai (t.zhuang = t.cur) p.chuPaiCount none) }) :=
          .setPlayer _ _ (fun p => by split <;> rfl) fun p => by split <;> rfl
        refine Goes.moves (Goes.after keeps.alike (chuPai_goes (keeps.ready ready) fun watched => ?_))
        have fit : Fit ({ t with waitingActions := some [], clock := none }.player t.cur) :=
          (fresh watched).fit
        exact fit.of_keeps keeps
      · exact .of_ready ready (alike_of_holdings rfl)
          (by simp [phase]) fun watched => by
            simp only [Supply, phase]
            exact fresh watched

/-- Nobody robs the card, and it is added to the section. -/
theorem robRemembered_moves (stock : Stock c t) (offers : t.waitingActions.getD [] = [])
    (clock : t.clock = none) (can : CanAdd (t.player t.cur).pai tile)
    (answers : List (Offer × Done)) :
    EarlyExit.Ends (Moves c aim claim t) (Moves c aim claim t)
      ({ t.rememberRob c tile answers with qiangGangActions := none }.adjustShouPai t.cur
        .baGang (some tile) none >>= fun t₁ => moPai c t₁) := by
  have keeps : Keeps t (t.rememberRob c tile answers) := .rememberRob t tile answers
  have pai : ∀ j, ({ t.rememberRob c tile answers with qiangGangActions := none }.player j).pai =
      (t.player j).pai := keeps.pai
  have ready : Ready c { t.rememberRob c tile answers with qiangGangActions := none } :=
    ⟨stock.of_pai (fun j => .of_eq (pai j)) (keeps.cur ▸ stock.cur) keeps.zhuang keeps.wall,
      keeps.waiting ▸ offers, keeps.clock.trans clock⟩
  have alike : Alike c t { t.rememberRob c tile answers with qiangGangActions := none } :=
    alike_of_pai (fun j => .of_eq (pai j)) ⟨keeps.piles.1, keeps.piles.2, keeps.wall⟩
  exact Moves.endsAfter alike (fun j => congrArg Pai.shouPai (pai j))
    (baGang_moves ready stock.cur ((pai t.cur).symm ▸ can) fun t₁ ready₁ _ => moPai_goes ready₁)

/-- `on_action_qiang_gang_hu` -/
theorem onActionQiangGangHu_moves (sound : Sound c aim t)
    (phase : t.fsm = .waitQiangGangHu) :
    EarlyExit.Ends (Moves c aim claim t) (Moves c aim claim t)
      (t.onActionQiangGangHu c i msg) := by
  have stays : Moves c aim claim t t := .refl (.inr sound)
  have offers := sound.closed (by simp [phase])
  unfold onActionQiangGangHu
  split
  · exact stays
  · rename_i qiang asked
    have can : CanAdd (t.player t.cur).pai qiang.tile := sound.rob qiang asked phase
    split
    · exact stays
    · have stock : ∀ q, Stock c { t with clock := none, qiangGangActions := q } := fun _ =>
        sound.toStock.of_holdings sound.cur rfl
      have alike : ∀ q, Alike c t { t with clock := none, qiangGangActions := q } :=
        fun _ => alike_of_holdings rfl
      dsimp only
      split
      · refine Goes.moves ⟨.inr ?_, alike _⟩
        exact {
          stock _ with
          offers := fun _ mem => absurd (offers ▸ mem) List.not_mem_nil
          still := fun _ runs => absurd runs (Option.some_ne_none _).symm
          rob := fun q here _ => Option.some.inj here ▸ can
          running := sound.running
          supply := fun _ => by simp only [Supply, phase] }
      · split
        · exact Moves.endsAfter (alike _) (fun _ => rfl) (robRemembered_moves (stock _) offers rfl
            can _)
        · exact Moves.endsAfter (alike _) (fun _ => rfl) (.balance (stock _))

/-- `on_action_after_first_tou_pai` -/
theorem onActionAfterFirstTouPai_moves (sound : Sound c aim t)
    (phase : t.fsm = .waitActionAfterFirstFirstTouPai)
    (honest : Honest c aim t (.doAction i msg)) (few : ∀ x, Card x → total c t x ≤ 4) :
    EarlyExit.Ends (Moves c aim claim t) (Moves c aim claim t)
      (t.onActionAfterFirstTouPai c i msg) := by
  have dealing : aim = .discards → Dealing c t := by
    intro watched
    have supply := sound.supply watched
    unfold Supply at supply
    rw [phase] at supply
    exact supply
  unfold onActionAfterFirstTouPai
  split
  · exact .refl (.inr sound)
  · rename_i offer passed
    obtain ⟨mem, chair, keys, gang⟩ := checkActionBeforeDo_some passed
    obtain ⟨all, _, lawful⟩ := honest (by rw [passed]; rfl)
    have names := all offer mem chair
    have backed := sound.offers offer mem
    unfold Backed at backed
    rw [phase] at backed
    dsimp only
    split
    · exact Moves.clockOff sound (by simp [phase])
    · rename_i turn
      obtain rfl : i = t.cur := Classical.not_not.1 turn
      obtain ⟨ready, alike⟩ := ready_of_turn sound.toStock
      have dealing' : aim = .discards →
          Dealing c { t with waitingActions := some [], clock := none } := fun watched =>
        ⟨(dealing watched).held, (dealing watched).shown, (dealing watched).first⟩
      have few' : ∀ x, Card x →
          total c { t with waitingActions := some [], clock := none } x ≤ 4 :=
        fun x card => (alike.cards x).symm ▸ few x card
      refine Moves.endsAfter alike (fun _ => rfl) ?_
      split
      · rename_i act
        obtain ⟨x, offered, named⟩ := gang act
        have can : CanAdd (t.player t.cur).pai x := backed.baGang x offered
        rw [named]
        have clean := Keeps.cleanGzh { t with waitingActions := some [], clock := none } t.cur
        have can' : CanAdd ((({ t with waitingActions := some [], clock := none }.cleanGzh
            t.cur).player t.cur).pai) x := (clean.pai t.cur).symm ▸ can
        exact Moves.endsAfter clean.alike (fun j => congrArg Pai.shouPai (clean.pai j))
          (baGang_moves (clean.ready ready) sound.cur can' fun t₁ ready₁ showed =>
            redeal_goes ready₁ (showed.of_keeps clean) phase dealing' few')
      · rename_i act
        unfold Names at names
        rw [act] at names
        obtain ⟨x, offered, named⟩ := names
        rw [named]
        exact showThree_moves ready (backed.tou x offered) fun t₁ ready₁ showed =>
          redeal_goes ready₁ showed phase dealing' few'
      · exact .balance ready.toStock
      · rename_i act
        have next : Ready c ({ t with waitingActions := some [], clock := none }.nextPlayerIndex c) :=
          ⟨ready.toStock.of_holdings (next_mem c _) rfl, rfl, rfl⟩
        have moved : Alike c { t with waitingActions := some [], clock := none }
            ({ t with waitingActions := some [], clock := none }.nextPlayerIndex c) :=
          alike_of_holdings rfl
        have leads : aim = .discards → Leads c (t.player t.zhuang) := by
          intro watched
          by_cases here : t.cur = t.zhuang
          · subst watched
            exact lawful.2 phase act here
          · exact (dealing watched).first here
        split
        · rename_i dealer
          exact Goes.moves (Goes.after moved (actionAfterFirstTou_goes next dealer leads))
        · rename_i away
          exact Goes.endsMoves (Goes.endsAfter moved
            (actionAfterFaPai_goes c.startCount next.toStock rfl (.inr phase)
              (fun _ runs => absurd runs (Option.some_ne_none _).symm)
              (fun watched => ⟨(dealing watched).held, fun here => absurd here away,
                fun _ => leads watched⟩)
              fun x card => (moved.cards x).symm ▸ few' x card))
      · refine .of_ready ready (alike_of_holdings rfl)
          (by simp [phase]) fun watched => ?_
        simp only [Supply, phase]
        exact ⟨(dealing watched).held, (dealing watched).shown, (dealing watched).first⟩

/-- `on_action_after_tianhu` -/
theorem onActionAfterTianHu_moves (sound : Sound c aim t)
    (phase : t.fsm = .waitActionAfterTianHu) :
    EarlyExit.Ends (Moves c aim claim t) (Moves c aim claim t)
      (t.onActionAfterTianHu i msg) := by
  have fit : aim = .discards → Fit (t.player t.zhuang) := by
    intro watched
    have supply := sound.supply watched
    unfold Supply at supply
    rw [phase] at supply
    exact supply
  unfold onActionAfterTianHu
  split
  · exact .refl (.inr sound)
  · dsimp only
    split
    · exact Moves.clockOff sound (by simp [phase])
    · obtain ⟨ready, alike⟩ := ready_of_turn sound.toStock
      split
      · exact Moves.endsAfter alike (fun _ => rfl) (.balance ready.toStock)
      · have waits : Ready c { t with waitingActions := some [], clock := none }.baotingPhase :=
          ⟨ready.toStock.of_holdings ready.cur rfl, rfl, rfl⟩
        exact .of_ready waits (alike_of_holdings rfl)
          (by simp [baotingPhase]) fit
      · refine .of_ready ready alike (by simp [phase]) fun watched => ?_
        simp only [Supply, phase]
        exact fit watched

/-- `on_baoting` -/
theorem onBaoting_moves (sound : Sound c aim t) (i : Nat) (baoting : Bool) :
    Moves c aim claim t (t.onBaoting c i baoting) := by
  unfold onBaoting
  split
  · exact .refl (.inr sound)
  · rename_i waits
    have phase : t.fsm = .waitBaoTing := Classical.not_not.1 (not_or.1 waits).1
    have offers := sound.closed (by simp [phase])
    have fit : aim = .discards → Fit (t.player t.zhuang) := by
      intro watched
      have supply := sound.supply watched
      unfold Supply at supply
      rw [phase] at supply
      exact supply
    have keeps : Keeps t (t.setPlayer i fun p => { p with baoting := some baoting }) :=
      .setPlayer t i (fun _ => rfl) fun _ => rfl
    have fit' : aim = .discards → Fit ((t.setPlayer i fun p =>
        { p with baoting := some baoting }).player t.zhuang) :=
      fun watched => (fit watched).of_keeps keeps
    dsimp only
    split
    · have pai : ∀ j, ({ t.setPlayer i fun p => { p with baoting := some baoting } with
          clock := none, cur := t.zhuang }.player j).pai.Alike (t.player j).pai :=
        fun j => .of_eq (keeps.pai j)
      have ready : Ready c { t.setPlayer i fun p => { p with baoting := some baoting } with
          clock := none, cur := t.zhuang } :=
        ⟨sound.toStock.of_pai pai sound.zhuang rfl rfl, offers, rfl⟩
      exact Goes.moves (Goes.after (alike_of_pai pai ⟨rfl, rfl, rfl⟩)
        (chuPai_goes ready fit'))
    · refine .of_quiet (keeps.stock sound.toStock) keeps.alike offers
        (by rw [keeps.fsm]; simp [phase]) (fun k runs => (sound.still k runs).2) fun watched => ?_
      unfold Supply
      rw [keeps.fsm, phase, keeps.zhuang]
      exact fit' watched

end Table

/-- The handlers of `on_cs_do_action`. -/
theorem onCsDoAction_moves (sound : Sound c aim t) (honest : Honest c aim t (.doAction i msg))
    (few : ∀ x, Card x → total c t x ≤ 4) :
    EarlyExit.Ends (Moves c aim (claimed t) t) (Moves c aim (claimed t) t)
      (onCsDoAction c t i msg) := by
  unfold onCsDoAction
  split <;> rename_i phase act
  all_goals first
    | exact Table.onActionAfterTianHu_moves sound phase
    | exact Table.onActionAfterFirstTouPai_moves sound phase honest few
    | exact Table.onActionAfterMoPai_moves sound phase honest
    | exact Table.onActionQiangGangHu_moves sound phase
    | exact .refl (.inr sound)
    | (rw [claimed, phase]
       exact Table.onActionAfterChuPai_moves sound phase honest (by simp [act]))
    | (rw [claimed, phase]
       exact Table.onActionAfterFanPai_moves sound phase honest (by simp [act]))

/-- Nothing happens at a table whose round is over. -/
theorem Over.run (ended : Over c t) (req : Request) : run c t req = .ok t := by
  cases req with
  | clock => rw [ChangpaiZigong.run, ended.clock]
  | doAction chair msg =>
      rw [ChangpaiZigong.run, onCsDoAction, ended.fsm]
  | discard chair tile isSure =>
      rw [ChangpaiZigong.run, Table.onActionChuPai, ended.fsm, if_pos (.inl (by simp))]
  | baoting chair baoting =>
      rw [ChangpaiZigong.run, Table.onBaoting, ended.fsm, if_pos (.inl (by simp))]

theorem run_moves (inv : Inv c aim t) (req : Request) (honest : Honest c aim t req)
    (few : t.fsm ≠ .gameOver → ∀ x, Card x → total c t x ≤ 4) :
    EarlyExit.Ends (Moves c aim (claimed t) t) (Moves c aim (claimed t) t)
      (run c t req) := by
  cases inv with
  | inl ended =>
      rw [ended.run]
      exact .refl (.inl ended)
  | inr sound =>
      cases req with
      | clock =>
          rw [run]
          split
          · exact .refl (.inr sound)
          · rename_i runs
            obtain ⟨offers, phase⟩ := sound.still _ runs
            exact Goes.endsMoves (Table.actionAfterFaPai_goes c.startCount sound.toStock offers
              (.inl phase) (fun k runs => (sound.still k runs).2) (fun watched => by
                have supply := sound.supply watched
                unfold Supply at supply
                rw [show t.fsm = .xiPai from phase] at supply
                exact supply) (few sound.running))
          · rename_i runs
            obtain ⟨offers, phase⟩ := sound.still _ runs
            exact Goes.endsMoves (Table.fanPai_goes sound.toStock offers phase)
      | doAction chair msg => exact onCsDoAction_moves sound honest (few sound.running)
      | discard chair tile isSure =>
          exact Goes.moves (Table.onActionChuPai_goes sound tile isSure honest)
      | baoting chair baoting => exact Table.onBaoting_moves sound chair baoting

/-- What a step does to the cards. -/
theorem step_moves (inv : Inv c aim t) (req : Request) (honest : Honest c aim t req)
    (few : t.fsm ≠ .gameOver → ∀ x, Card x → total c t x ≤ 4) :
    Moves c aim (claimed t) t (step c t req) := by
  unfold step
  split
  · exact (run_moves inv req honest few).result
  · exact .refl inv

/-- A round that is over stays so. -/
theorem running_before (inv : Inv c aim t) {req : Request}
    (running : (step c t req).fsm ≠ .gameOver) : t.fsm ≠ .gameOver := by
  intro stopped
  cases inv with
  | inl ended =>
      apply running
      unfold step
      rw [ended.run]
      split <;> exact stopped
  | inr sound => exact sound.running stopped

/-- What holds of the cards in every run of such requests. -/
structure Kept (c : Conf) (aim : Aim) (t : Table) : Prop where
  inv : Inv c aim t
  few : t.fsm ≠ .gameOver → ∀ x, Card x → total c t x ≤ 4
  all : aim = .cards → t.fsm ≠ .gameOver → ∀ x, Card x → total c t x = 4

theorem reaches_kept (reached : Runs.Reaches (Started c) (fun s a s' => s' = step c s a)
    (Honest c aim) t) : Kept c aim t := by
  refine reached.invariant ?_ ?_
  · intro s start
    obtain ⟨sound, four⟩ : Sound c aim s ∧ _ := start.sound
    exact ⟨.inr sound, fun _ x card => (four x card).le, fun _ _ => four⟩
  · intro s req s' kept honest move
    subst move
    have moves := step_moves kept.inv req honest kept.few
    refine ⟨moves.inv, fun running x card => ?_, fun watched running x card => ?_⟩
    · exact (moves.fewer running x).trans (kept.few (running_before kept.inv running) x card)
    · rw [moves.cards watched running]
      exact kept.all watched (running_before kept.inv running) x card

/-- A round that meets only lawful messages: no hand ever holds a negative number of a
card, every step makes sections of cards the player has and of the card on the table, and
while the round runs all four of every card are at the table. -/
theorem lawful_rounds_keep_cards
    (reached : Runs.Reaches (Started c) (fun s a s' => s' = step c s a) (Honest c .cards) t) :
    (∀ i x, 0 ≤ (t.player i).pai.shouPai x) ∧
    (∀ req, Honest c .cards t req → ∀ i,
      ((step c t req).player i).pai.mingPai = (t.player i).pai.mingPai ∨
      MeldMade (t.player i).pai (claimed t) ((step c t req).player i).pai.mingPai) ∧
    (t.fsm ≠ .gameOver → ∀ x, Card x → total c t x = 4) := by
  have kept := reaches_kept reached
  refine ⟨?_, fun req honest => (step_moves kept.inv req honest kept.few).melds, kept.all rfl⟩
  cases kept.inv with
  | inl ended => exact ended.held
  | inr sound => exact sound.held

/-- Two players, the first one deals. -/
def twoPlayers : Conf where
  startCount := 2
  two := by decide
  four := by decide
  huFan := fun _ _ _ _ => 0
  firstHeld := fun counts => (List.range' 1 21).find? fun t => 0 < counts t
  firstHeld_some := fun counts t h => by simpa using List.find?_some h
  firstHeld_none := fun counts h t card => by
    have none := List.find?_eq_none.1 h t
      (List.mem_range'_1.2 (by unfold Card at card; omega))
    simpa using none

/-- The dealer holds 1 three times and no 16. -/
def stacked : List Nat :=
  [21, 21, 21, 21, 20, 20, 20, 20, 19, 19, 19, 19, 18, 18, 18] ++
  [1, 1, 1, 2, 3, 4, 5, 6, 7, 8, 9, 10, 11, 12, 13] ++
  [1, 2, 2, 3, 4, 4, 5, 5, 6, 7, 7, 8, 8, 9, 14] ++
  [14, 14, 14, 13, 13, 13, 12, 12, 12, 11, 11, 11, 10, 10, 10, 9, 9, 8, 7, 6, 6, 5, 4, 3, 3, 2,
    15, 15, 15, 15, 16, 16, 16, 16, 17, 17, 17, 17, 18]

def dealerTous : Table := step twoPlayers (started twoPlayers stacked 1 none) .clock

/-- The cards are those of the deck, and the dealer runs out of the card named. -/
theorem stacked_evaluated : stacked.Perm deck ∧
    ¬0 ≤ ((step twoPlayers dealerTous
      (.doAction 1 ⟨.tou, some 16, none, some 1, false⟩)).player 1).pai.shouPai 16 := by
  decide +kernel

theorem stacked_started : Started twoPlayers (started twoPlayers stacked 1 none) :=
  ⟨stacked, 1, none, stacked_evaluated.1, by decide, rfl⟩

/-- The dealer shows the three 1s. -/
theorem three_ones_shown :
    let t := step twoPlayers dealerTous (.doAction 1 ⟨.tou, some 1, none, some 1, false⟩)
    (∀ x, 0 ≤ (t.player 1).pai.shouPai x) ∧ total twoPlayers t 1 = 4 := by
  have cards := lawful_rounds_keep_cards (.next
    (.doAction 1 ⟨.tou, some 1, none, some 1, false⟩)
    (.next .clock (.start stacked_started) trivial rfl)
    (fun _ => ⟨by decide +kernel, by decide +kernel, fun phase => absurd phase (by decide +kernel)⟩)
    rfl)
  exact ⟨cards.1 1, cards.2.2 (by decide +kernel) 1 (by decide)⟩

/-- The dealer is offered three 1s and names the card 16 instead. -/
theorem three_cards_made_up :
    ¬ ∀ c t, Runs.Reachable (Started c) (fun s a s' => s' = step c s a) t →
      ∀ i x, 0 ≤ (t.player i).pai.shouPai x := by
  intro safe
  have held := safe twoPlayers _ (.next (.doAction 1 ⟨.tou, some 16, none, some 1, false⟩)
    (.next .clock (.start stacked_started) trivial rfl) trivial rfl) 1 16
  exact absurd held stacked_evaluated.2

end FkServer.ChangpaiZigong
