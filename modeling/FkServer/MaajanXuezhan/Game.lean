import FkServer.Library.Rotation
import FkServer.MaajanXuezhan.Settlement
import Mathlib.Logic.Relation

/-!
What a round is about, without sessions, offers and blocked wins: hands, melds,
discards, winners and the wall, and the moves of the game. A move needs only what
makes it a move of the game; who is asked, and in which order answers arrive, is
left to the table.
-/
namespace FkServer.MaajanXuezhan

/-- A win, in the words of `p.hu`. -/
structure Win where
  time : Nat
  ziMo : Option Bool
  whoee : Option Nat
deriving DecidableEq

/-- The winner keeps the tile it drew itself. -/
def Win.drawn (w : Win) : Bool := w.ziMo ≠ some false

inductive Phase
  | exchange
  /-- The player to discard, with the tile drawn last where it may be added to a meld. -/
  | act (drawn : Option Nat)
  /-- The discard on top of the desk of the player on turn may be claimed. -/
  | claim
  /-- The player on turn wants to add `tile` to a triplet. -/
  | rob (tile : Nat)
  | draw
  | over
deriving DecidableEq

structure Game where
  hand : Nat → Counts
  melds : Nat → List Section
  desk : Nat → List Nat
  given : Nat → Option (List Nat)
  won : Nat → Option Win
  multi : Nat → Bool
  wall : Multiset Nat
  taken : List Nat
  turn : Nat
  clock : Nat
  phase : Phase

namespace Game

/-! ### What moves do -/

def setHand (g : Game) (hand : Nat → Counts) : Game := { g with hand := hand }

def give (g : Game) (chair : Nat) (tiles : List Nat) : Game :=
  { g with given := alter g.given chair fun _ => some tiles }

/-- How many tiles `tile` a player gives away. -/
def gave (g : Game) (chair tile : Nat) : Int := ((g.given chair).getD []).count tile

/-- Everyone's tiles go to `target`. -/
def exchange (g : Game) (c : Conf) (target : Nat → Nat) : Game :=
  { g with
    hand := fun chair tile =>
      g.hand chair tile - (if chair ∈ c.seats then g.gave chair tile else 0) +
        ((c.seats.filter fun i => target i = chair).map fun i => g.gave i tile).sum
    phase := .act none }

def discard (g : Game) (tile : Nat) : Game :=
  { g with
    hand := alter g.hand g.turn fun counts => decr counts tile 1
    desk := alter g.desk g.turn fun tiles => tiles ++ [tile]
    phase := .claim }

def popDesk (g : Game) : Game := { g with desk := alter g.desk g.turn List.dropLast }

/-- `n` tiles leave a hand for a new meld. -/
def lay (g : Game) (chair tile : Nat) (n : Int) (sec : Section) : Game :=
  { g with
    hand := alter g.hand chair fun counts => decr counts tile n
    melds := alter g.melds chair fun secs => secs ++ [sec]
    clock := g.clock + 1 }

def peng (g : Game) (chair tile : Nat) : Game :=
  { g.popDesk.lay chair tile 2 ⟨.peng, tile, some g.turn, none, none, g.clock⟩ with
    turn := chair, phase := .act none }

def mingGang (g : Game) (chair tile : Nat) : Game :=
  { g.popDesk.lay chair tile 3 ⟨.mingGang, tile, some g.turn, none, none, g.clock⟩ with
    turn := chair, phase := .draw }

def anGang (g : Game) (tile : Nat) : Game :=
  { g.lay g.turn tile 4 ⟨.anGang, tile, none, some g.clock, none, g.clock⟩ with phase := .draw }

/-- The triplet `old` becomes a gang. -/
def baGang (g : Game) (tile : Nat) (old : Section) : Game :=
  { g with
    hand := alter g.hand g.turn fun counts => decr counts tile 1
    melds := alter g.melds g.turn fun secs => secs.eraseP (Section.isPeng tile) ++
      [⟨.baGang, tile, old.whoee, some g.clock, none, g.clock⟩]
    clock := g.clock + 1
    phase := .draw }

def drawTile (g : Game) (tile : Nat) (rest : Multiset Nat) : Game :=
  { g with
    hand := alter g.hand g.turn fun counts => incr counts tile 1
    wall := rest
    phase := .act (some tile) }

def winOne (g : Game) (ziMo : Option Bool) (whoee : Option Nat) (chair : Nat) : Game :=
  { g with won := alter g.won chair fun _ => some ⟨g.clock, ziMo, whoee⟩, clock := g.clock + 1 }

/-- The gangs of `gang` that the player on turn has laid are credited to a winner. -/
def mark (g : Game) (gang : Option Nat) (chair : Nat) : Game :=
  { g with melds := alter g.melds g.turn fun secs => secs.map fun sec =>
      if some sec.tile = gang ∧ isSectionGang sec.type then { sec with dianPao := some chair }
      else sec }

def winCount (g : Game) (c : Conf) : Nat :=
  c.seats.countP fun chair => (g.won chair).isSome

/-- Several players win the discard. -/
def claimWins (g : Game) (c : Conf) (gang : Option Nat) (winners : List Nat) (tile : Nat) : Game :=
  let first := 1 < winners.length ∧ g.winCount c = 0
  let g₁ := { g with multi := if first then alter g.multi g.turn fun _ => true else g.multi }
  let g₂ := winners.foldl
    (fun g' chair => (g'.winOne (some false) (some g.turn) chair).mark gang chair) g₁
  { g₂.popDesk with taken := tile :: g₂.taken }

/-- The tile leaves the robbed hand. -/
def takeRobbed (g : Game) (tile : Nat) : Game :=
  { g with
    hand := alter g.hand g.turn fun counts => decr counts tile 1
    taken := tile :: g.taken }

/-- Several players win the tile of a gang; `offered` is how many were asked. -/
def robWins (g : Game) (c : Conf) (winners : List Nat) (offered tile : Nat) : Game :=
  let g₁ := { g with
    multi := alter g.multi g.turn fun _ => decide (g.winCount c = 0 ∧ 1 < offered) }
  (winners.foldl (fun g' chair => g'.winOne (some false) (some g.turn) chair) g₁).takeRobbed tile

def nextSeat (g : Game) (c : Conf) (from_ : Nat) : Option Nat :=
  Rotation.seek (Rotation.forward c.chairCount)
    (fun i => c.seats.contains i && (g.won i).isNone) c.chairCount from_

/-- After a win the round ends with one player left, or the next one draws. -/
inductive AfterWin (c : Conf) (g : Game) (from_ : Nat) : Game → Prop
  | settled : c.seats.length - g.winCount c = 1 → AfterWin c g from_ { g with phase := .over }
  | goesOn {chair : Nat} : c.seats.length - g.winCount c ≠ 1 → g.nextSeat c from_ = some chair →
      AfterWin c g from_ { g with turn := chair, phase := .draw }

end Game

/-! ### The moves -/

/-- Conditions on moves under which runs are looked at. -/
structure Guard where
  give : Game → Nat → List Nat → Prop
  rob : Game → List Nat → Nat → Prop

/-- A player who may claim something from the player on turn. -/
def Game.Free (g : Game) (c : Conf) (chair : Nat) : Prop :=
  chair ∈ c.seats ∧ chair ≠ g.turn ∧ g.won chair = none

/-- The moves; the index tells whether somebody wins. -/
inductive Move (c : Conf) (ok : Guard) : Bool → Game → Game → Prop
  | give {g : Game} {chair : Nat} {tiles : List Nat} : g.phase = .exchange → chair ∈ c.seats →
      g.given chair = none → (∀ t ∈ tiles, g.hand chair t ≠ 0) →
      (∃ huan, c.huan = some huan ∧ tiles.length = huan.count) → ok.give g chair tiles →
      Move c ok false g (g.give chair tiles)
  | exchange {g : Game} {target : Nat → Nat} : g.phase = .exchange →
      (∀ chair ∈ c.seats, (g.given chair).isSome) → (c.seats.map target).Perm c.seats →
      Move c ok false g (g.exchange c target)
  | look {g : Game} {drawn drawn' : Option Nat} : g.phase = .act drawn →
      (∀ t, drawn' = some t → 0 < g.hand g.turn t) →
      Move c ok false g { g with phase := .act drawn' }
  | discard {g : Game} {drawn : Option Nat} {tile : Nat} : g.phase = .act drawn →
      g.hand g.turn tile ≠ 0 → Move c ok false g (g.discard tile)
  | unclaimed {g : Game} {chair : Nat} : g.phase = .claim → g.nextSeat c g.turn = some chair →
      Move c ok false g { g with turn := chair, phase := .draw }
  | peng {g : Game} {chair tile : Nat} : g.phase = .claim → g.Free c chair →
      (g.desk g.turn).getLast? = some tile → 2 ≤ g.hand chair tile →
      Move c ok false g (g.peng chair tile)
  | mingGang {g : Game} {chair tile : Nat} : g.phase = .claim → g.Free c chair →
      (g.desk g.turn).getLast? = some tile → g.hand chair tile = 3 →
      Move c ok false g (g.mingGang chair tile)
  | claimWins {g g' : Game} {winners : List Nat} {tile : Nat} {gang : Option Nat} :
      g.phase = .claim → winners ≠ [] → winners.Nodup → (∀ chair ∈ winners, g.Free c chair) →
      (g.desk g.turn).getLast? = some tile →
      Game.AfterWin c (g.claimWins c gang winners tile) (winners.foldl max 0) g' →
      Move c ok true g g'
  | drawTile {g : Game} {tile : Nat} {rest : Multiset Nat} : g.phase = .draw →
      g.wall = tile ::ₘ rest → Move c ok false g (g.drawTile tile rest)
  | exhausted {g : Game} : g.phase = .draw → g.wall = 0 →
      Move c ok false g { g with phase := .over }
  | anGang {g : Game} {drawn : Option Nat} {tile : Nat} : g.phase = .act drawn →
      g.hand g.turn tile = 4 → Move c ok false g (g.anGang tile)
  | baGang {g : Game} {drawn : Option Nat} {tile : Nat} {old : Section} : g.phase = .act drawn →
      0 < g.hand g.turn tile ∨ drawn = some tile →
      (g.melds g.turn).find? (Section.isPeng tile) = some old →
      Move c ok false g (g.baGang tile old)
  | declare {g : Game} {drawn : Option Nat} {tile : Nat} : g.phase = .act drawn →
      0 < g.hand g.turn tile ∨ drawn = some tile →
      Move c ok false g { g with phase := .rob tile }
  | unrobbed {g : Game} {tile : Nat} {old : Section} : g.phase = .rob tile →
      (g.melds g.turn).find? (Section.isPeng tile) = some old →
      Move c ok false g (g.baGang tile old)
  | robWins {g g' : Game} {winners : List Nat} {offered from_ tile : Nat} : g.phase = .rob tile →
      winners ≠ [] → winners.Nodup → (∀ chair ∈ winners, g.Free c chair) →
      ok.rob g winners offered →
      Game.AfterWin c (g.robWins c winners offered tile) from_ g' → Move c ok true g g'
  | selfDraw {g g' : Game} {drawn whoee : Option Nat} {ziMo : Option Bool} :
      g.phase = .act drawn → ziMo ≠ some false →
      Game.AfterWin c (g.winOne ziMo whoee g.turn) g.turn g' → Move c ok true g g'

/-- Moves after one another in which nobody wins. -/
abbrev Quiet (c : Conf) (ok : Guard) : Game → Game → Prop :=
  Relation.ReflTransGen (Move c ok false)

/-- What one request may do: nothing, or a move and then moves in which nobody wins. -/
def Burst (c : Conf) (ok : Guard) (g g' : Game) : Prop :=
  g = g' ∨ ∃ win g₁, Move c ok win g g₁ ∧ Quiet c ok g₁ g'

theorem Burst.of_quiet {c : Conf} {ok : Guard} {g g' : Game} (moves : Quiet c ok g g') :
    Burst c ok g g' := by
  cases Relation.ReflTransGen.cases_head moves with
  | inl same => exact .inl same
  | inr some_moves =>
      obtain ⟨g₁, first, rest⟩ := some_moves
      exact .inr ⟨false, g₁, first, rest⟩

theorem Burst.keep {c : Conf} {ok : Guard} {Inv : Game → Prop}
    (keep : ∀ win g g', Inv g → Move c ok win g g' → Inv g') {g g' : Game} (inv : Inv g)
    (burst : Burst c ok g g') : Inv g' := by
  cases burst with
  | inl same => exact same ▸ inv
  | inr moves =>
      obtain ⟨win, g₁, first, rest⟩ := moves
      have inv₁ := keep win g g₁ inv first
      induction rest with
      | refl => exact inv₁
      | tail _ last ih => exact keep false _ _ ih last

end FkServer.MaajanXuezhan
