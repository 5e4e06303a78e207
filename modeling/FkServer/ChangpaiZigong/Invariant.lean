import FkServer.ChangpaiZigong.Offers
import Mathlib.Algebra.Order.BigOperators.Group.List
import Mathlib.Algebra.Order.Ring.Int

/-!
The invariant of a round: the hands hold cards only, none a negative number of times, and
every offer that is open is backed by them. Beside it go the cards of the table, counted
over all places, and the sections a step may add.
-/
namespace FkServer.ChangpaiZigong

/-- How often a player has a card, concealed, shown or discarded. -/
def Pai.cards (pai : Pai) (x : Nat) : Int :=
  pai.shouPai x + (pai.mingPai.flatMap Section.cards).count x + pai.deskTiles.count x

theorem count_snoc (secs : List Section) (s : Section) (x : Nat) :
    ((secs ++ [s]).flatMap Section.cards).count x =
      (secs.flatMap Section.cards).count x + s.cards.count x := by
  rw [List.flatMap_append, List.count_append, List.flatMap_singleton]

theorem count_erase {secs : List Section} {s : Section} (mem : s ∈ secs) (x : Nat) :
    (secs.flatMap Section.cards).count x =
      ((secs.erase s).flatMap Section.cards).count x + s.cards.count x := by
  have same := ((List.perm_cons_erase mem).flatMap_right Section.cards).count_eq x
  rw [same, List.flatMap_cons, List.count_append, Nat.add_comm]

namespace Section

theorem count_peng (tile x : Nat) :
    (peng tile).cards.count x = if x = tile then 3 else 0 := by
  by_cases h : x = tile
  · simp [cards, h]
  · simp [cards, h, Ne.symm h]

theorem count_tou (tile x : Nat) : (tou tile).cards.count x = if x = tile then 3 else 0 :=
  count_peng tile x

theorem count_baGang (tile x : Nat) :
    (baGang tile).cards.count x = if x = tile then 4 else 0 := by
  by_cases h : x = tile
  · simp [cards, h]
  · simp [cards, h, Ne.symm h]

theorem count_chi (tile othertile x : Nat) :
    (chi tile othertile).cards.count x =
      (if x = tile then 1 else 0) + if x = othertile then 1 else 0 := by
  have one : ∀ a : Nat, (if a == x then 1 else 0) = if x = a then 1 else 0 := fun a => by
    by_cases h : x = a
    · simp [h]
    · simp [h, Ne.symm h]
  rw [cards, List.count_cons, List.count_cons, List.count_nil, one, one]
  omega

theorem count_three {s : Section} {tile : Nat} (h : s.three = some tile) (x : Nat) :
    s.cards.count x = if x = tile then 3 else 0 := by
  cases s with
  | peng t => exact Option.some.inj h ▸ count_peng t x
  | tou t => exact Option.some.inj h ▸ count_tou t x
  | baGang t => cases h
  | chi t o => cases h

end Section

/-- How often a card is at the table: with the players, cut off, flipped and not taken, or
undealt. The card that decides the dealer is one of the undealt ones. -/
def total (c : Conf) (t : Table) (x : Nat) : Int :=
  ((chairs c).map fun i => (t.player i).pai.cards x).sum +
    (t.qiePai ++ t.untaken ++ t.wall).count x

/-- What the cards of a table in play satisfy. -/
structure Stock (c : Conf) (t : Table) : Prop where
  cur : t.cur ∈ chairs c
  zhuang : t.zhuang ∈ chairs c
  held : ∀ i x, 0 ≤ (t.player i).pai.shouPai x
  cards : ∀ i x, 0 < (t.player i).pai.shouPai x → Card x
  wall : ∀ x ∈ t.wall, Card x

/-- What is watched over a run: that no card is lost, or that there is one to discard. -/
inductive Aim
  | cards
  | discards
deriving DecidableEq

/-- The cards a player may not discard. -/
def Pai.unusable (pai : Pai) : List Nat := pai.unUsecard.getD []

/-- Only cards of the player's own sections are unusable. -/
def Pai.Covered (pai : Pai) : Prop :=
  ∀ x ∈ pai.unusable, ∃ s ∈ pai.mingPai, s.three = some x ∨ s = .baGang x

/-- The player holds a card to discard, and the card drawn last is one if still held. -/
structure Fit (p : Player) : Prop where
  some_card : ∃ x, 0 < p.pai.shouPai x ∧ x ∉ p.pai.unusable
  drawn : ∀ mo ∈ p.moPai, 0 < p.pai.shouPai mo → mo ∉ p.pai.unusable

/-- The player has just drawn. -/
structure Fresh (p : Player) : Prop where
  unUsecard : p.pai.unUsecard = none
  drawn : ∃ mo ∈ p.moPai, 0 < p.pai.shouPai mo

/-- The card a player would play first may be discarded. -/
def Leads (c : Conf) (p : Player) : Prop :=
  ∃ x ∈ c.firstHeld p.pai.shouPai, x ∉ p.pai.unusable

theorem Fresh.fit {p : Player} (fresh : Fresh p) : Fit p := by
  have all : p.pai.unusable = [] := by rw [Pai.unusable, fresh.unUsecard, Option.getD_none]
  obtain ⟨mo, _, held⟩ := fresh.drawn
  refine ⟨⟨mo, held, ?_⟩, fun _ _ _ => ?_⟩
  · rw [all]
    exact List.not_mem_nil
  · rw [all]
    exact List.not_mem_nil

/-- The dealer in the opening: the hand is not empty, only cards of the sections shown are
unusable, and once the others are on turn the card it will play first is none of these. -/
structure Dealing (c : Conf) (t : Table) : Prop where
  held : ∃ x, 0 < (t.player t.zhuang).pai.shouPai x
  shown : t.cur = t.zhuang → (t.player t.zhuang).pai.Covered
  first : t.cur ≠ t.zhuang → Leads c (t.player t.zhuang)

/-- What is known of the player who will have to discard. -/
def Supply (c : Conf) (t : Table) : Prop :=
  match t.fsm with
  | .waitChuPai => t.clock = none → Fit t.chuPaiPlayer
  | .waitActionAfterJinPai => Fresh t.chuPaiPlayer
  | .waitBaoTing | .waitActionAfterTianHu => Fit (t.player t.zhuang)
  | .xiPai | .waitActionAfterFirstFirstTouPai => Dealing c t
  | _ => True

/-- After `othertile` is spent on eating `tile`, a card is left to discard, and the card
drawn last is one if it is still held. -/
structure Eats (p : Player) (tile othertile : Nat) : Prop where
  leaves : chiLeaves p.pai p.pai.unusable othertile tile
  drawn : ∀ mo ∈ p.moPai, 0 < decr p.pai.shouPai othertile 1 mo →
    mo ≠ tile ∧ mo ∉ p.pai.unusable

theorem Eats.fit {p q : Player} {tile othertile : Nat} (eats : Eats p tile othertile)
    (hand : q.pai.shouPai = decr p.pai.shouPai othertile 1)
    (unUsecard : q.pai.unUsecard = some (p.pai.unusable ++ [tile]))
    (moPai : q.moPai = p.moPai) : Fit q := by
  have unusable : q.pai.unusable = p.pai.unusable ++ [tile] := by
    rw [Pai.unusable, unUsecard, Option.getD_some]
  have leaves := eats.leaves
  unfold chiLeaves at leaves
  obtain ⟨key, _, usable⟩ := List.any_eq_true.1 leaves
  simp only [decide_eq_true_eq] at usable
  refine ⟨⟨key, ?_, ?_⟩, fun mo drew held => ?_⟩
  · rw [hand]
    exact usable.2.2
  · rw [unusable, List.mem_append, List.mem_singleton, not_or]
    exact ⟨usable.1, usable.2.1⟩
  · rw [moPai] at drew
    rw [hand] at held
    obtain ⟨other, old⟩ := eats.drawn _ drew held
    rw [unusable, List.mem_append, List.mem_singleton, not_or]
    exact ⟨old, other⟩

/-- A card of the hand that `on_action_chu_pai` does not take, having stopped the timer. -/
def Refused (c : Conf) (t : Table) (tile : Option Int) (isSure : Bool) : Prop :=
  ∃ x ∈ place tile, Card x ∧ t.chuPaiPlayer.pai.shouPai x ≠ 0 ∧
    (x ∈ t.chuPaiPlayer.pai.unusable ∨
      isBaoPai (t.player (nestUser c t.cur)) (some x) ∧ isSure = false)

/-- The answer to an offer names the cards offered. -/
def Answer (a : Actions) (d : Done) : Prop :=
  match d.action with
  | .peng => ∃ x ∈ a.peng, d.tile = some x
  | .chi => ∃ e ∈ a.chi, d.tile = some e.2 ∧ d.otherTile = some e.1
  | .hu | .pass => True
  | _ => False

/-- An offer on the player's own cards. -/
structure OwnOffer (t : Table) (o : Offer) : Prop where
  chair : o.chair = t.cur
  tou : ∀ x ∈ o.actions.tou, 3 ≤ t.chuPaiPlayer.pai.shouPai x
  baGang : ∀ x ∈ o.actions.baGang, CanAdd t.chuPaiPlayer.pai x

/-- An offer on a card on the table, with the answer given to it. -/
structure ClaimOffer (c : Conf) (aim : Aim) (t : Table) (tile : Nat) (o : Offer) : Prop where
  chair : o.chair ∈ chairs c
  peng : ∀ x ∈ o.actions.peng, x = tile ∧ 2 ≤ (t.player o.chair).pai.shouPai tile
  chi : ∀ e ∈ o.actions.chi, e.2 = tile ∧ 0 < (t.player o.chair).pai.shouPai e.1 ∧
    ∀ unusable ∈ (t.player o.chair).pai.unUsecard,
      chiLeaves (t.player o.chair).pai unusable e.1 e.2
  tou : o.actions.tou = []
  done : ∀ d ∈ o.done, Answer o.actions d
  eats : aim = .discards → ∀ d ∈ o.done, d.action = .chi → ∀ x ∈ d.tile, ∀ y ∈ d.otherTile,
    Eats (t.player o.chair) x y

/-- The discard that is offered lies on top of the discards of the player on turn. -/
structure ChuClaim (c : Conf) (aim : Aim) (t : Table) (o : Offer) (tile : Nat) : Prop where
  card : Card tile
  chu : t.chuPaiPlayer.chuPai = some tile
  desk : ∃ rest, t.chuPaiPlayer.pai.deskTiles = rest ++ [tile]
  offer : ClaimOffer c aim t tile o
  baGang : o.actions.baGang = []

/-- The flipped card that is offered is the last one. Where the cards are watched it is
taken only when no discard lies before the player who flipped it. -/
structure FanClaim (c : Conf) (aim : Aim) (t : Table) (o : Offer) (tile : Nat) : Prop where
  card : Card tile
  fan : t.chuPaiPlayer.fanPai = some tile
  untaken : ∃ rest, t.untaken = tile :: rest
  offer : ClaimOffer c aim t tile o
  bare : aim = .cards → ∀ d ∈ o.done, d.action = .peng ∨ d.action = .chi →
    t.chuPaiPlayer.pai.deskTiles = []

/-- What an open offer rests on. -/
def Backed (c : Conf) (aim : Aim) (t : Table) (o : Offer) : Prop :=
  match t.fsm with
  | .waitActionAfterFirstFirstTouPai | .waitActionAfterJinPai => OwnOffer t o
  | .waitActionAfterTianHu => True
  | .waitActionAfterChuPai => ∃ tile, ChuClaim c aim t o tile
  | .waitActionAfterFanPai => ∃ tile, FanClaim c aim t o tile
  | _ => False

/-- The states in which the clock timer may run. -/
def Clock.Runs : Clock → FsmState → Prop
  | .faPai, fsm => fsm = .xiPai
  | .fanPai, fsm =>
      fsm = .waitChuPai ∨ fsm = .waitActionAfterChuPai ∨ fsm = .waitActionAfterFanPai

structure Sound (c : Conf) (aim : Aim) (t : Table) : Prop extends Stock c t where
  offers : ∀ o ∈ t.waitingActions.getD [], Backed c aim t o
  still : ∀ k ∈ t.clock, t.waitingActions.getD [] = [] ∧ k.Runs t.fsm
  rob : ∀ q ∈ t.qiangGangActions, t.fsm = .waitQiangGangHu → CanAdd t.chuPaiPlayer.pai q.tile
  running : t.fsm ≠ .gameOver
  supply : aim = .discards → Supply c t

/-- The round is over. -/
structure Over (c : Conf) (t : Table) : Prop extends Stock c t where
  fsm : t.fsm = .gameOver
  clock : t.clock = none

/-- The round is over, or the table is sound. -/
def Inv (c : Conf) (aim : Aim) (t : Table) : Prop := Over c t ∨ Sound c aim t

/-- No offer is open: the table goes on by itself. -/
structure Ready (c : Conf) (t : Table) : Prop extends Stock c t where
  offers : t.waitingActions.getD [] = []
  clock : t.clock = none

/-- The same sections and the same cards. -/
structure Alike (c : Conf) (t t' : Table) : Prop where
  ming : ∀ i, (t'.player i).pai.mingPai = (t.player i).pai.mingPai
  cards : ∀ x, total c t' x = total c t x

/-- The table goes on to a sound one. -/
def Goes (c : Conf) (aim : Aim) (t t' : Table) : Prop := Inv c aim t' ∧ Alike c t t'

variable {c : Conf} {aim : Aim} {t t' t'' : Table} {i x tile : Nat}

theorem Alike.trans (h : Alike c t t') (h' : Alike c t' t'') : Alike c t t'' :=
  ⟨fun i => (h'.ming i).trans (h.ming i), fun x => (h'.cards x).trans (h.cards x)⟩

theorem Goes.after (h : Alike c t t') (h' : Goes c aim t' t'') : Goes c aim t t'' :=
  ⟨h'.1, h.trans h'.2⟩

/-- Two hands with the same cards in the same places. -/
structure Pai.Alike (p q : Pai) : Prop where
  shouPai : p.shouPai = q.shouPai
  mingPai : p.mingPai = q.mingPai
  deskTiles : p.deskTiles = q.deskTiles

theorem Pai.Alike.of_eq {p q : Pai} (h : p = q) : p.Alike q := h ▸ ⟨rfl, rfl, rfl⟩

/-- Nothing moves when every player keeps the cards. -/
theorem alike_of_pai (pai : ∀ i, (t'.player i).pai.Alike (t.player i).pai)
    (pile : t'.qiePai = t.qiePai ∧ t'.untaken = t.untaken ∧ t'.wall = t.wall) : Alike c t t' := by
  refine ⟨fun i => (pai i).mingPai, fun x => ?_⟩
  have same : ∀ i, (t'.player i).pai.cards x = (t.player i).pai.cards x := fun i => by
    rw [Pai.cards, Pai.cards, (pai i).shouPai, (pai i).mingPai, (pai i).deskTiles]
  rw [total, total, pile.1, pile.2.1, pile.2.2]
  simp only [same]

theorem Stock.of_pai (stock : Stock c t) (pai : ∀ i, (t'.player i).pai.Alike (t.player i).pai)
    (cur : t'.cur ∈ chairs c) (zhuang : t'.zhuang = t.zhuang) (wall : t'.wall = t.wall) :
    Stock c t' :=
  ⟨cur, zhuang ▸ stock.zhuang, fun i x => (pai i).shouPai ▸ stock.held i x,
    fun i x held => stock.cards i x ((pai i).shouPai ▸ held), fun x mem => stock.wall x (wall ▸ mem)⟩

/-- What a table has of the cards: the hands, the dealer's seat, and the piles. -/
def Table.holdings (t : Table) : (Nat → Pai) × Nat × List Nat × List Nat × List Nat :=
  (fun i => (t.player i).pai, t.zhuang, t.wall, t.qiePai, t.untaken)

theorem alike_of_holdings (same : t'.holdings = t.holdings) : Alike c t t' := by
  obtain ⟨pai, _, wall, qiePai, untaken⟩ := by
    simpa only [Table.holdings, Prod.mk.injEq] using same
  exact alike_of_pai (fun i => .of_eq (congrFun pai i)) ⟨qiePai, untaken, wall⟩

theorem Stock.of_holdings (stock : Stock c t) (cur : t'.cur ∈ chairs c)
    (same : t'.holdings = t.holdings) : Stock c t' := by
  obtain ⟨pai, zhuang, wall, _⟩ := by
    simpa only [Table.holdings, Prod.mk.injEq] using same
  exact stock.of_pai (fun i => .of_eq (congrFun pai i)) cur zhuang wall

theorem chairs_nodup (c : Conf) : (chairs c).Nodup := List.nodup_range'

theorem sum_alter {α : Type} (l : List Nat) (distinct : l.Nodup) (g : Nat → α) (h : α → α)
    (f : α → Int) (inside : i ∈ l) :
    (l.map fun j => f (alter g i h j)).sum = (l.map fun j => f (g j)).sum +
      (f (h (g i)) - f (g i)) := by
  induction l with
  | nil => cases inside
  | cons j l ih =>
      obtain ⟨fresh, distinct⟩ := List.nodup_cons.1 distinct
      rw [List.map_cons, List.map_cons, List.sum_cons, List.sum_cons]
      by_cases here : j = i
      · subst here
        have rest : l.map (fun k => f (alter g j h k)) = l.map fun k => f (g k) :=
          List.map_congr_left fun k mem => by
            have other : k ≠ j := fun same => fresh (same ▸ mem)
            rw [alter_of_ne other]
        rw [rest, alter_self]
        omega
      · have there : i ∈ l := (List.mem_cons.1 inside).resolve_left (Ne.symm here)
        rw [ih distinct there, alter_of_ne here]
        omega

/-- The cards of the table after one player's have changed. -/
theorem total_setPai (inside : i ∈ chairs c) (f : Pai → Pai) (x : Nat) :
    total c (t.setPai i f) x =
      total c t x + ((f (t.player i).pai).cards x - (t.player i).pai.cards x) := by
  have sum := sum_alter (chairs c) (chairs_nodup c) t.player
    (fun p => { p with pai := f p.pai }) (fun p => p.pai.cards x) inside
  simp only [total, Table.setPai, Table.setPlayer]
  rw [sum]
  dsimp only
  omega

/-- Only in the states that wait for actions an offer is open. -/
theorem Sound.closed (sound : Sound c aim t)
    (fsm : t.fsm = .waitChuPai ∨ t.fsm = .waitBaoTing ∨ t.fsm = .waitQiangGangHu) :
    t.waitingActions.getD [] = [] := by
  apply List.eq_nil_iff_forall_not_mem.2
  intro o mem
  have backed := sound.offers o mem
  unfold Backed at backed
  split at backed
  all_goals simp_all

namespace Table

/-- The player on turn takes the next card of the wall. -/
def drawn (t : Table) (mo : Nat) (wall : List Nat) : Table :=
  { t with wall := wall }.setPai t.cur fun pai => { pai with shouPai := incr pai.shouPai mo 1 }

theorem drawn_alike (cur : t.cur ∈ chairs c) {mo : Nat} {wall : List Nat}
    (top : t.wall = mo :: wall) : Alike c t (t.drawn mo wall) := by
  refine ⟨fun i => ?_, fun x => ?_⟩
  · simp only [drawn, setPai_player]
    split <;> rfl
  · have more : total c (t.drawn mo wall) x = _ :=
      total_setPai cur (fun pai => { pai with shouPai := incr pai.shouPai mo 1 }) x
    have less : total c t x = total c { t with wall := wall } x + if x = mo then 1 else 0 := by
      simp only [total, top, List.count_append, List.count_cons, beq_iff_eq]
      by_cases h : x = mo
      · simp only [h, if_true]
        omega
      · simp only [h, Ne.symm h, if_false]
        omega
    simp only [more, less, Pai.cards, incr_apply]
    omega

theorem drawn_stock (stock : Stock c t) {mo : Nat} {wall : List Nat}
    (top : t.wall = mo :: wall) : Stock c (t.drawn mo wall) := by
  have card : Card mo := stock.wall mo (top ▸ List.mem_cons_self)
  have hand : ∀ i x, ((t.drawn mo wall).player i).pai.shouPai x =
      (t.player i).pai.shouPai x + if i = t.cur ∧ x = mo then 1 else 0 := by
    intro i x
    simp only [drawn, setPai_player]
    by_cases h : i = t.cur
    · simp [h, incr_apply]
    · simp [h]
  refine ⟨stock.cur, stock.zhuang, fun i x => ?_, fun i x held => ?_, fun x mem => ?_⟩
  · have := stock.held i x
    rw [hand]
    split <;> omega
  · rw [hand] at held
    split at held
    · rename_i same
      exact same.2 ▸ card
    · exact stock.cards i x (by omega)
  · exact stock.wall x (top ▸ List.mem_cons_of_mem mo mem)

/-- `do_balance` -/
theorem over_of (stock : Stock c t) : Over c { t with fsm := .gameOver, clock := none } :=
  { toStock := stock.of_holdings stock.cur rfl
    fsm := rfl
    clock := rfl }

/-- What a draw changes: the player on turn has one card more. -/
structure Drew (t t' : Table) : Prop where
  cur : t'.cur = t.cur
  zhuang : t'.zhuang = t.zhuang
  others : ∀ i, i ≠ t.cur → (t'.player i).pai = (t.player i).pai
  unUsecard : t'.chuPaiPlayer.pai.unUsecard = t.chuPaiPlayer.pai.unUsecard
  mingPai : t'.chuPaiPlayer.pai.mingPai = t.chuPaiPlayer.pai.mingPai
  mo : ∃ mo ∈ t'.chuPaiPlayer.moPai, 0 < t'.chuPaiPlayer.pai.shouPai mo

/-- A card from the wall comes into the hand of the player on turn. -/
theorem draw_ends (stock : Stock c t) :
    EarlyExit.Ends (fun t' => Over c t' ∧ Alike c t t')
      (fun t' => Stock c t' ∧ Alike c t t' ∧ t'.fsm = t.fsm ∧
        t'.waitingActions = t.waitingActions ∧ t'.clock = t.clock ∧ Drew t t') t.draw := by
  have clean : ∀ i, ((t.setPlayer t.cur fun p =>
      { p with gzh := none, gsp := [], gsc := [] }).player i).pai.Alike (t.player i).pai := by
    intro i
    apply Pai.Alike.of_eq
    rw [setPlayer_player]
    split <;> rfl
  have ended : Over c _ := over_of (stock.of_pai clean stock.cur rfl rfl)
  unfold draw
  dsimp only
  split
  · exact ⟨ended, alike_of_pai clean ⟨rfl, rfl, rfl⟩⟩
  · cases top : (t.setPlayer t.cur fun p => { p with gzh := none, gsp := [], gsc := [] }).wall with
    | nil => exact ⟨ended, alike_of_pai clean ⟨rfl, rfl, rfl⟩⟩
    | cons mo wall =>
        have same : ∀ i, ((({ t.setPlayer t.cur fun p => { p with gzh := none, gsp := [], gsc := [] } with
            wall := wall }.setPai t.cur fun pai =>
              { pai with shouPai := incr pai.shouPai mo 1 }).onMoPai mo).player i).pai.Alike
            ((t.drawn mo wall).player i).pai := by
          intro i
          apply Pai.Alike.of_eq
          simp only [onMoPai, drawn, setPai_player, setPlayer_player]
          split <;> rfl
        have stock' := drawn_stock stock top
        refine ⟨stock'.of_pai same stock.cur rfl rfl, (drawn_alike stock.cur top).trans (alike_of_pai same ⟨rfl, rfl, rfl⟩),
          rfl, rfl, rfl, rfl, rfl, fun i other => ?_, ?_, ?_, mo, if_pos rfl, ?_⟩
        · simp [onMoPai, other]
        · simp [onMoPai, chuPaiPlayer]
        · simp [onMoPai, chuPaiPlayer]
        · have old := stock.held t.cur mo
          refine (congrFun (same t.cur).shouPai mo).symm ▸ ?_
          simp only [drawn, setPai_player, if_true, incr_apply]
          omega

theorem sound_of_quiet (stock : Stock c t) (offers : t.waitingActions.getD [] = [])
    (fsm : t.fsm ≠ .waitQiangGangHu ∧ t.fsm ≠ .gameOver) (timed : ∀ k ∈ t.clock, k.Runs t.fsm)
    (supply : aim = .discards → Supply c t) : Sound c aim t :=
  { stock with
    offers := fun _ mem => absurd (offers ▸ mem) List.not_mem_nil
    still := fun k runs => ⟨offers, timed k runs⟩
    rob := fun _ _ here => absurd here fsm.1
    running := fsm.2
    supply := supply }

/-- A table without an offer and without a timer. -/
theorem sound_of_ready (ready : Ready c t) (fsm : t.fsm ≠ .waitQiangGangHu ∧ t.fsm ≠ .gameOver)
    (supply : aim = .discards → Supply c t) : Sound c aim t :=
  sound_of_quiet ready.toStock ready.offers fsm
    (fun _ runs => absurd (ready.clock.symm.trans runs) (Option.some_ne_none _).symm) supply

theorem clearUnuseCard_pai (t : Table) (i : Nat) :
    (t.clearUnuseCard.player i).pai.Alike (t.player i).pai := by
  rw [clearUnuseCard, setPai_player]
  split
  · exact ⟨rfl, rfl, rfl⟩
  · exact .of_eq rfl

/-- The drawn card is in the hand when the actions on it are offered. -/
theorem afterDraw_goes (stock : Stock c t) (offers : t.waitingActions.getD [] = [])
    (clock : t.clock = none) {mo : Nat} (drew : mo ∈ t.chuPaiPlayer.moPai)
    (held : 0 < t.chuPaiPlayer.pai.shouPai mo) : Goes c aim t (t.afterDraw c) := by
  have pai := clearUnuseCard_pai t
  have stock' : Stock c t.clearUnuseCard := stock.of_pai pai stock.cur rfl rfl
  have alike : Alike c t t.clearUnuseCard := alike_of_pai pai ⟨rfl, rfl, rfl⟩
  have drew' : t.clearUnuseCard.chuPaiPlayer.moPai = some mo := by
    simpa [clearUnuseCard, chuPaiPlayer] using drew
  have held' : 0 < t.clearUnuseCard.chuPaiPlayer.pai.shouPai mo :=
    (pai t.cur).shouPai.symm ▸ held
  have fresh : Fresh t.clearUnuseCard.chuPaiPlayer :=
    ⟨by simp [clearUnuseCard, chuPaiPlayer], mo, drew', held'⟩
  have offers' : t.clearUnuseCard.waitingActions.getD [] = [] := offers
  have clock' : t.clearUnuseCard.clock = none := clock
  unfold afterDraw
  generalize t.clearUnuseCard = t' at *
  dsimp only
  rw [drew']
  split
  · have same : ∀ i, (t'.chuPai.player i).pai.Alike (t'.player i).pai := fun _ => .of_eq rfl
    have quiet : Sound c aim t'.chuPai :=
      sound_of_ready ⟨stock'.of_pai same stock'.cur rfl rfl, offers', clock'⟩ (by simp [chuPai])
        fun _ _ => fresh.fit
    exact ⟨.inr quiet, alike.trans (alike_of_pai same ⟨rfl, rfl, rfl⟩)⟩
  · refine ⟨.inr ?_, alike.trans (alike_of_holdings rfl)⟩
    have own : (∀ x ∈ (getActions c t' t'.cur (some mo) none false false).tou, _) ∧ _ :=
      getActions_mo held'
    exact {
      toStock := stock'.of_holdings stock'.cur rfl
      offers := fun o mem => by
        obtain ⟨here, _⟩ := mem_waitFor mem
        obtain ⟨chair, actions⟩ := Prod.mk.inj (List.mem_singleton.1 here)
        exact ⟨chair, actions ▸ own.1, actions ▸ own.2⟩
      still := fun _ runs => absurd (clock'.symm.trans runs) (Option.some_ne_none _).symm
      rob := fun _ _ here => absurd here (by simp [waitFor])
      running := by simp [waitFor]
      supply := fun _ => fresh }

/-- `mo_pai` -/
theorem moPai_goes (ready : Ready c t) :
    EarlyExit.Ends (Goes c aim t) (Goes c aim t) (t.moPai c) := by
  have stock : Stock c { t with fsm := .waitMoPai } := ready.toStock.of_holdings ready.cur rfl
  have start : Alike c t { t with fsm := .waitMoPai } := alike_of_holdings rfl
  refine EarlyExit.Ends.bind ((draw_ends stock).mono ?_ fun _ h => h) ?_
  · intro t₁ ⟨ended, alike⟩
    exact ⟨.inl ended, start.trans alike⟩
  · intro t₁ ⟨stock₁, alike, _, offers, clock, drew⟩
    obtain ⟨mo, taken, held⟩ := drew.mo
    have next : Goes c aim t₁ (t₁.afterDraw c) :=
      afterDraw_goes stock₁ (offers ▸ ready.offers) (clock ▸ ready.clock) taken held
    exact Goes.after (start.trans alike) next

theorem next_mem (c : Conf) (t : Table) : (t.nextPlayerIndex c).cur ∈ chairs c := by
  have two := c.two
  have less := Nat.mod_lt t.cur (show 0 < c.startCount by omega)
  rw [chairs, List.mem_range'_1]
  simp only [nextPlayerIndex]
  omega

theorem setMo_pai (t : Table) (mo : Option Nat) (i : Nat) :
    ((t.setPlayer t.cur fun p => { p with moPai := mo }).player i).pai.Alike (t.player i).pai := by
  apply Pai.Alike.of_eq
  rw [setPlayer_player]
  split <;> rfl

/-- The opening ends at the dealer, who plays the card it holds first. -/
theorem actionAfterFirstTou_goes (ready : Ready c t) (dealer : t.cur = t.zhuang)
    (leads : aim = .discards → Leads c (t.player t.zhuang)) :
    Goes c aim t (t.actionAfterFirstTou c) := by
  have pai := setMo_pai t (c.firstHeld t.chuPaiPlayer.pai.shouPai)
  have stock := ready.toStock.of_pai pai ready.cur rfl rfl
  have fit : aim = .discards → Fit ((t.setPlayer t.cur fun p =>
      { p with moPai := c.firstHeld t.chuPaiPlayer.pai.shouPai }).player t.zhuang) := by
    intro watched
    rw [setPlayer_player, if_pos dealer.symm, chuPaiPlayer, dealer]
    obtain ⟨x, first, usable⟩ := leads watched
    refine ⟨⟨x, c.firstHeld_some _ x first, usable⟩, fun mo same _ => ?_⟩
    have : mo = x := Option.some.inj (same.symm.trans first)
    exact this ▸ usable
  unfold actionAfterFirstTou
  dsimp only
  split
  · refine ⟨.inr ?_, alike_of_pai pai ⟨rfl, rfl, rfl⟩⟩
    exact sound_of_ready ⟨stock.of_holdings ready.cur rfl, ready.offers,
      ready.clock⟩ (by simp [baotingPhase]) fit
  · refine ⟨.inr ?_, alike_of_pai pai ⟨rfl, rfl, rfl⟩⟩
    exact {
      toStock := stock.of_holdings ready.cur rfl
      offers := fun _ _ => trivial
      still := fun _ runs => absurd (ready.clock.symm.trans runs) (Option.some_ne_none _).symm
      rob := fun _ _ here => absurd here (by simp [waitFor])
      running := by simp [waitFor]
      supply := fit }

/-- A player's cards are among those of the table. -/
theorem cards_le_total (stock : Stock c t) (seat : i ∈ chairs c) (x : Nat) :
    (t.player i).pai.cards x ≤ total c t x := by
  have all : ∀ n ∈ (chairs c).map fun i => (t.player i).pai.cards x, 0 ≤ n := by
    intro n mem
    obtain ⟨j, _, rfl⟩ := List.mem_map.1 mem
    have := stock.held j x
    unfold Pai.cards
    omega
  have one := List.single_le_sum all _ (List.mem_map_of_mem seat)
  unfold total
  omega

/-- A dealer who has nothing to do in the opening holds no card of the sections shown. -/
theorem leads_of_idle (stock : Stock c t) (dealing : Dealing c t) (turn : t.cur = t.zhuang)
    (few : ∀ x, Card x → total c t x ≤ 4) {actions : Actions}
    (found : getActionsFirstTurn t t.zhuang = some actions) (idle : actions.isEmpty) :
    Leads c (t.player t.zhuang) := by
  obtain ⟨y, held⟩ := dealing.held
  cases first : c.firstHeld (t.player t.zhuang).pai.shouPai with
  | none =>
      have := c.firstHeld_none _ first y (stock.cards _ y held)
      omega
  | some x =>
      have more := c.firstHeld_some _ x first
      refine ⟨x, first, fun unusable => ?_⟩
      obtain ⟨s, shown, kind⟩ := dealing.shown turn x unusable
      cases kind with
      | inl three =>
          have can : x ∈ actions.baGang := by
            rw [(getActionsFirstTurn_keys found).2]
            exact List.mem_filter.2 ⟨List.mem_filterMap.2 ⟨s, shown, three⟩, by simpa using more⟩
          exact absurd idle (by simp [Actions.not_isEmpty_of_baGang can])
      | inr four =>
          have mine := cards_le_total stock stock.zhuang x
          have enough := few x (stock.cards _ x more)
          have full : 4 ≤ ((t.player t.zhuang).pai.mingPai.flatMap Section.cards).count x := by
            rw [count_erase (four ▸ shown), Section.count_baGang, if_pos rfl]
            omega
          unfold Pai.cards at mine
          omega

/-- `action_after_fapai` goes round the table until somebody may act. -/
theorem actionAfterFaPai_goes (seats : Nat) (stock : Stock c t)
    (offers : t.waitingActions.getD [] = [])
    (phase : t.fsm = .xiPai ∨ t.fsm = .waitActionAfterFirstFirstTouPai)
    (timed : ∀ k ∈ t.clock, k.Runs t.fsm) (dealing : aim = .discards → Dealing c t) (few : ∀ x, Card x → total c t x ≤ 4) :
    EarlyExit.Ends (Goes c aim t) (Goes c aim t) (t.actionAfterFaPai c seats) := by
  have same : ∀ {t : Table}, Alike c t t := alike_of_holdings rfl
  have supply : ∀ {t : Table}, t.fsm = .xiPai ∨ t.fsm = .waitActionAfterFirstFirstTouPai →
      Dealing c t → Supply c t := by
    intro t phase dealing
    unfold Supply
    cases phase with
    | inl h => rw [h]; exact dealing
    | inr h => rw [h]; exact dealing
  have idle : ∀ {t : Table}, t.fsm = .xiPai ∨ t.fsm = .waitActionAfterFirstFirstTouPai →
      t.fsm ≠ .waitQiangGangHu ∧ t.fsm ≠ .gameOver := by
    intro t phase
    cases phase with
    | inl h => simp [h]
    | inr h => simp [h]
  induction seats generalizing t with
  | zero =>
      exact ⟨.inr (sound_of_quiet stock offers (idle phase) timed
        fun h => supply phase (dealing h)), same⟩
  | succ seats ih =>
      have here : Ready c t.opening :=
        { toStock := stock.of_holdings stock.cur rfl
          offers := offers
          clock := rfl }
      have alike : Alike c t t.opening := alike_of_holdings rfl
      have phase' : t.opening.fsm = .waitActionAfterFirstFirstTouPai := rfl
      have dealing' : aim = .discards → Dealing c t.opening := fun h =>
        ⟨(dealing h).held, (dealing h).shown, (dealing h).first⟩
      have few' : ∀ x, Card x → total c t.opening x ≤ 4 := fun x card =>
        (alike.cards x).symm ▸ few x card
      rw [actionAfterFaPai]
      generalize t.opening = t' at *
      dsimp only
      split
      · exact ⟨.inr (sound_of_ready here (idle (.inr phase'))
          fun h => supply (.inr phase') (dealing' h)), alike⟩
      · rename_i actions found
        split
        · rename_i nothing
          have stock' : Stock c (t'.nextPlayerIndex c) :=
            here.toStock.of_holdings (next_mem c t') rfl
          have next : Ready c (t'.nextPlayerIndex c) := ⟨stock', here.offers, here.clock⟩
          have moved' : Alike c t' (t'.nextPlayerIndex c) := alike_of_holdings rfl
          have moved : Alike c t (t'.nextPlayerIndex c) := alike.trans moved'
          have leads : aim = .discards → Leads c (t'.player t'.zhuang) := by
            intro h
            by_cases turn : t'.cur = t'.zhuang
            · exact leads_of_idle here.toStock (dealing' h) turn few' (turn ▸ found) nothing
            · exact (dealing' h).first turn
          split
          · rename_i dealer
            exact Goes.after moved (actionAfterFirstTou_goes next dealer leads)
          · rename_i away
            have goes := ih next.toStock here.offers (.inr phase')
              (fun _ runs => absurd (here.clock.symm.trans runs) (Option.some_ne_none _).symm)
              (fun h => ⟨(dealing' h).held, fun turn => absurd turn away, fun _ => leads h⟩)
              fun x card => (moved'.cards x).symm ▸ few' x card
            exact goes.mono (fun _ h => Goes.after moved h) fun _ h => Goes.after moved h
        · have own := getActionsFirstTurn_own found
          refine ⟨.inr ?_, alike.trans (alike_of_holdings rfl)⟩
          exact {
            toStock := here.toStock.of_holdings here.cur rfl
            offers := fun o mem => by
              obtain ⟨mine, _⟩ := mem_waitFor mem
              obtain ⟨chair, same⟩ := Prod.mk.inj (List.mem_singleton.1 mine)
              have backed : OwnOffer (t'.waitFor [(t'.cur, actions)]) o :=
                ⟨chair, same ▸ own.1, same ▸ own.2⟩
              simpa [Backed, waitFor, phase'] using backed
            still := fun _ runs => absurd (here.clock.symm.trans runs) (Option.some_ne_none _).symm
            rob := fun _ _ rob => absurd rob (idle (.inr phase')).1
            running := (idle (.inr phase')).2
            supply := fun h => supply (.inr phase')
              ⟨(dealing' h).held, (dealing' h).shown, (dealing' h).first⟩ }

theorem flipped_alike {wall : List Nat} (top : t.wall = tile :: wall) :
    Alike c t (t.flipped tile wall) := by
  refine ⟨fun _ => rfl, fun x => ?_⟩
  simp only [total, flipped, top, List.count_append, List.count_cons]
  omega

/-- The next player waits for the clock. -/
theorem nextFlips_goes (stock : Stock c t) (offers : t.waitingActions.getD [] = [])
    (phase : Clock.fanPai.Runs t.fsm) : Goes c aim t (t.nextFlips c) := by
  have stock' : Stock c (t.nextFlips c) := stock.of_holdings (next_mem c t) rfl
  have supply : Supply c (t.nextFlips c) := by
    unfold Supply
    cases phase with
    | inl h =>
        simp only [nextFlips, nextPlayerIndex, h]
        exact fun off => absurd off (Option.some_ne_none _)
    | inr h =>
        cases h with
        | inl h => simp only [nextFlips, nextPlayerIndex, h]
        | inr h => simp only [nextFlips, nextPlayerIndex, h]
  refine ⟨.inr (sound_of_quiet stock' offers ?_ ?_ fun _ => supply), alike_of_holdings rfl⟩
  · obtain h | h | h := phase <;> simp [nextFlips, nextPlayerIndex, h]
  · intro k runs
    exact Option.some.inj runs ▸ phase

theorem mem_flipOffers {o : Offer} (h : (o.chair, o.actions) ∈ t.flipOffers c tile)
    (fresh : o.done = none) : ClaimOffer c aim t tile o := by
  obtain ⟨chair, seat, made⟩ := List.mem_filterMap.1 h
  dsimp only at made
  split at made
  · cases made
  · obtain ⟨rfl, actions⟩ := Prod.mk.inj (Option.some.inj made)
    obtain ⟨peng, chi, tou, _⟩ : (∀ x ∈ (getActions c t o.chair none (some tile)
      (o.chair = nestUser c t.cur ∨ o.chair = t.cur) (o.chair = t.cur)).peng, _) ∧ _ :=
        getActions_in
    exact ⟨seat, actions ▸ peng, actions ▸ chi, actions ▸ tou, by simp [fresh], by simp [fresh]⟩

theorem fanPai_goes (stock : Stock c t) (offers : t.waitingActions.getD [] = [])
    (phase : Clock.fanPai.Runs t.fsm) :
    EarlyExit.Ends (Goes c aim t) (Goes c aim t) (t.fanPai c) := by
  have ended : Goes c aim t { t with fsm := .gameOver, clock := none } :=
    ⟨.inl (over_of stock), alike_of_holdings rfl⟩
  unfold fanPai
  split
  · exact ended
  · split
    · exact ended
    · rename_i tile wall top
      have card : Card tile := stock.wall tile (top ▸ List.mem_cons_self)
      have stock' : Stock c (t.flipped tile wall) :=
        ⟨stock.cur, stock.zhuang, stock.held, stock.cards, fun x mem =>
          stock.wall x (top ▸ List.mem_cons_of_mem tile mem)⟩
      refine Goes.after (flipped_alike top) ?_
      unfold afterFlip
      split
      · exact nextFlips_goes stock' offers phase
      · refine ⟨.inr ?_, alike_of_holdings rfl⟩
        exact {
          toStock := stock'.of_holdings stock.cur rfl
          offers := fun o mem => by
            obtain ⟨made, fresh⟩ := mem_waitFor mem
            have claim : ClaimOffer c aim _ tile o := mem_flipOffers made fresh
            exact ⟨tile, card, if_pos rfl, ⟨t.untaken, rfl⟩, ⟨claim.chair, claim.peng, claim.chi,
              claim.tou, claim.done, claim.eats⟩, by simp [fresh]⟩
          still := fun _ runs => absurd runs (Option.some_ne_none _).symm
          rob := fun _ _ rob => absurd rob (by simp [waitFor])
          running := by simp [waitFor]
          supply := fun _ => trivial }

theorem discarded_alike (seat : i ∈ chairs c) : Alike c t (t.discarded i tile) := by
  have pai : ∀ j, ((t.discarded i tile).player j).pai.Alike
      ((t.setPai i fun pai => { pai with
        shouPai := decr pai.shouPai tile 1
        deskTiles := pai.deskTiles ++ [tile] }).player j).pai := by
    intro j
    apply Pai.Alike.of_eq
    rw [setPai_player]
    simp only [discarded]
    split <;> rfl
  have same : Alike c (t.setPai i _) (t.discarded i tile) := alike_of_pai pai ⟨rfl, rfl, rfl⟩
  refine Alike.trans ⟨fun j => ?_, fun x => ?_⟩ same
  · rw [setPai_player]
    split <;> rfl
  · rw [total_setPai seat]
    simp only [Pai.cards, decr_apply, List.count_append, List.count_singleton, beq_iff_eq]
    split_ifs <;> omega

theorem discarded_stock (stock : Stock c t) (held : (t.player i).pai.shouPai tile ≠ 0) :
    Stock c (t.discarded i tile) := by
  have hand : ∀ j x, ((t.discarded i tile).player j).pai.shouPai x =
      (t.player j).pai.shouPai x - if j = i ∧ x = tile then 1 else 0 := by
    intro j x
    simp only [discarded]
    by_cases h : j = i
    · simp [h, decr_apply]
    · simp [h]
  have old := stock.held
  refine ⟨stock.cur, stock.zhuang, fun j x => ?_, fun j x more => ?_, stock.wall⟩
  · rw [hand]
    have := old j x
    split
    · rename_i same
      have := old i tile
      obtain ⟨rfl, rfl⟩ := same
      omega
    · omega
  · rw [hand] at more
    apply stock.cards j x
    split at more <;> omega

theorem mem_discardOffers {o : Offer} (h : (o.chair, o.actions) ∈ t.discardOffers c i tile)
    (fresh : o.done = none) : ClaimOffer c aim t tile o ∧ o.actions.baGang = [] := by
  obtain ⟨chair, seat, made⟩ := List.mem_filterMap.1 h
  dsimp only at made
  split at made
  · cases made
  · obtain ⟨rfl, actions⟩ := Prod.mk.inj (Option.some.inj made)
    obtain ⟨peng, chi, tou, baGang⟩ : (∀ x ∈ (getActions c t o.chair none (some tile)
      (o.chair = nestUser c i) false).peng, _) ∧ _ := getActions_in
    exact ⟨⟨(List.mem_filter.1 seat).1, actions ▸ peng, actions ▸ chi, actions ▸ tou,
      by simp [fresh], by simp [fresh]⟩, actions ▸ baGang rfl⟩

theorem onActionChuPai_goes (sound : Sound c aim t) (tile : Option Int) (isSure : Bool)
    (patient : aim = .discards → t.clock ≠ none → Refused c t tile isSure →
      Fit t.chuPaiPlayer) :
    Goes c aim t (t.onActionChuPai c i tile isSure) := by
  have same : Alike c t t := alike_of_holdings rfl
  unfold onActionChuPai
  split
  · exact ⟨.inr sound, same⟩
  · rename_i turn
    obtain ⟨fsm, rfl⟩ : t.fsm = .waitChuPai ∧ t.cur = i := by
      simpa only [not_or, not_not] using turn
    have offers := sound.closed (.inl fsm)
    have refused : Refused c t tile isSure → Goes c aim t { t with clock := none } := by
      intro refusal
      have stock : Stock c { t with clock := none } := sound.toStock.of_holdings sound.cur rfl
      refine ⟨.inr (sound_of_ready ⟨stock, offers, rfl⟩ (by simp [fsm]) fun watched => ?_),
        alike_of_holdings rfl⟩
      have supply := sound.supply watched
      unfold Supply at supply ⊢
      rw [fsm] at supply ⊢
      intro _
      by_cases stopped : t.clock = none
      · exact supply stopped
      · exact patient watched stopped refusal
    split
    · exact ⟨.inr sound, same⟩
    · rename_i x named
      split
      · exact ⟨.inr sound, same⟩
      · rename_i good
        obtain ⟨card, held⟩ : Card x ∧ (t.player t.cur).pai.shouPai x ≠ 0 := by
          simpa only [not_or, not_not] using good
        split
        · rename_i unusable
          exact refused ⟨x, named, card, held, .inl unusable⟩
        · split
          · rename_i dear
            exact refused ⟨x, named, card, held, .inr dear⟩
          · have stock := discarded_stock sound.toStock held
            have alike : Alike c t (t.discarded t.cur x) := discarded_alike sound.cur
            refine Goes.after alike ?_
            unfold afterDiscard
            split
            · exact nextFlips_goes stock offers (.inl fsm)
            · refine ⟨.inr ?_, alike_of_holdings rfl⟩
              exact {
                toStock := stock.of_holdings sound.cur rfl
                offers := fun o mem => by
                  obtain ⟨made, fresh⟩ := mem_waitFor mem
                  obtain ⟨claim, baGang⟩ : ClaimOffer c aim _ x o ∧ _ :=
                    mem_discardOffers made fresh
                  have top : (t.discarded t.cur x).chuPaiPlayer.chuPai = some x ∧
                      (t.discarded t.cur x).chuPaiPlayer.pai.deskTiles =
                        t.chuPaiPlayer.pai.deskTiles ++ [x] := by
                    simp [chuPaiPlayer, discarded]
                  exact ⟨x, card, top.1, ⟨_, top.2⟩, ⟨claim.chair, claim.peng, claim.chi,
                    claim.tou, claim.done, claim.eats⟩, baGang⟩
                still := fun _ runs => absurd runs (Option.some_ne_none _).symm
                rob := fun _ _ rob => absurd rob (by simp [waitFor])
                running := by simp [waitFor]
                supply := fun _ => trivial }

end Table

end FkServer.ChangpaiZigong
