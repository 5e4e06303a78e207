import Mathlib.Data.Finset.Insert
import Mathlib.Logic.Function.Basic

/-!
The fee of a private table, which `cost_private_fee` takes when the first round starts. A payer
is charged with no look at what the payer has. The paths that charge the boss or the owner say
nothing to their caller, and the one that charges each player hands `incr_money` a list of items,
where it looks for the amount of a single one and fails.
-/
namespace FkServer.PrivateFee

abbrev Guid := Nat

/-- A club and the club it stands under, `0` for none. -/
structure ClubRow where
  id : Nat
  owner : Guid
  parent : Option Nat

/-- `base_clubs`; a club is on a level below that of its parent. -/
structure Clubs where
  row : Nat → Option ClubRow
  level : ClubRow → Nat
  lower : ∀ club id parent, club.parent = some id → id ≠ 0 → row id = some parent →
    level parent < level club

/-- `club_utils.parent` -/
def Clubs.parent (clubs : Clubs) (club : ClubRow) : Option ClubRow :=
  (club.parent.filter (· ≠ 0)).bind clubs.row

theorem Clubs.parent_lower {clubs : Clubs} {club parent : ClubRow}
    (h : clubs.parent club = some parent) : clubs.level parent < clubs.level club := by
  obtain ⟨id, above, row⟩ := Option.bind_eq_some_iff.1 h
  obtain ⟨above, other⟩ := Option.filter_eq_some_iff.1 above
  exact clubs.lower club id parent above (by simpa using other) row

/-- `club_utils.root` from a club that is there. -/
def Clubs.root (clubs : Clubs) (club : ClubRow) : ClubRow :=
  match _h : clubs.parent club with
  | none => club
  | some parent => clubs.root parent
termination_by clubs.level club
decreasing_by exact Clubs.parent_lower _h

inductive PayOption
  | AA
  | boss
  | roomOwner
  | other
deriving DecidableEq

/-- The three switches of `runtime_conf`. -/
structure Switches where
  privateFee : Bool
  agency : Guid → Bool
  club : Nat → Bool

/-- `rule.pay.option`, `rule.round.option` and `rule.room.player_count_option` of a private
table. -/
structure Rule where
  pay : Option PayOption
  round : Option (Option Nat)
  room : Option (Option Nat)

/-- `private_conf.fee`, from its first entry. `zhajinhua_room` and `ox_room` have one list for each
number of chairs. -/
inductive Fee
  | byRound (fee : List Int)
  | byChairs (fee : List (List Int))

/-- A table as `cost_private_fee` finds it. `playerData` says who is found; a player object is given
by its `guid`. -/
structure Table where
  isPrivate : Bool
  rule : Option Rule
  club : Option ClubRow
  owner : Option Guid
  ownerGuid : Option Guid
  players : List Guid
  distinct : players.Nodup
  fee : Fee
  clubs : Clubs
  switches : Switches
  playerData : Guid → Bool

/-- The stored money, of players by number and money id, and of clubs. -/
structure Moneys where
  player : Guid → Nat → Int
  club : Nat → Nat → Int

/-- What a call ends with: the value returned, or a Lua error. -/
inductive Outcome
  | returned (value : Option Bool)
  | error
deriving DecidableEq

/-- The argument of `incr_money`: one item, or a list of items, which has none of the fields. -/
inductive Price
  | item (moneyId : Nat) (money : Int)
  | items (list : List (Nat × Int))

def Price.moneyId : Price → Option Nat
  | .item moneyId _ => some moneyId
  | .items _ => none

def Price.money : Price → Option Int
  | .item _ money => some money
  | .items _ => none

/-- HINCRBY on the money of a player. -/
def Moneys.add (m : Moneys) (guid : Guid) (moneyId : Nat) (money : Int) : Moneys :=
  { m with
    player := Function.update m.player guid
      (Function.update (m.player guid) moneyId (m.player guid moneyId + money)) }

/-- `base_player:incr_money`; `math.floor(item.money)` is an error when there is no amount. -/
def incrMoney (m : Moneys) (guid : Guid) (item : Price) : Option Moneys :=
  match item.moneyId, item.money with
  | some moneyId, some money => some (m.add guid moneyId money)
  | _, _ => none

namespace Table

variable (t : Table)

/-- `game_util.is_private_fee_free` -/
def isPrivateFeeFree : Bool :=
  !t.switches.privateFee ||
    match t.club with
    | none => false
    | some club => !t.switches.agency club.owner || !t.switches.club club.id

/-- `get_private_fee` of the room; without a result where a field of nothing is asked for, which is
a Lua error. -/
def getPrivateFee (rule : Rule) : Option (Option Int) :=
  rule.round.bind fun round =>
    match t.fee with
    | .byRound fee => some fee[round.getD 0]?
    | .byChairs fee =>
        rule.room.bind fun chairs => fee[chairs.getD 0]?.map fun fee => fee[round.getD 0]?

/-- The loop over the players; the first of them for whom `incr_money` fails ends the call. -/
def costEach (money : Option Int) : List Guid → Moneys → Outcome × Moneys
  | [], m => (.returned none, m)
  | guid :: players, m =>
      match money with
      | none => (.error, m)
      | some moneyEach =>
          match incrMoney m guid (.items [(0, -moneyEach)]) with
          | none => (.error, m)
          | some m => costEach money players m

/-- One payer pays all of it. -/
def costOne (money : Option Int) (guid : Guid) (m : Moneys) : Outcome × Moneys :=
  match money with
  | none => (.error, m)
  | some money =>
      match incrMoney m guid (.item 0 (-money)) with
      | none => (.error, m)
      | some m => (.returned none, m)

/-- The branches of `cost_private_fee` on the pay option. -/
def costFor (money : Option Int) (m : Moneys) : PayOption → Outcome × Moneys
  | .AA => costEach money t.players m
  | .boss =>
      match t.club with
      | none => (.returned none, m)
      | some club =>
          match t.clubs.row club.id with
          | none => (.error, m)
          | some club =>
              let root := t.clubs.root club
              if t.playerData root.owner then costOne money root.owner m else (.error, m)
  | .roomOwner =>
      match t.owner, t.ownerGuid with
      | some owner, some _ => costOne money owner m
      | _, _ => (.returned none, m)
  | .other => (.returned none, m)

/-- `cost_private_fee` -/
def costPrivateFee (m : Moneys) : Outcome × Moneys :=
  if t.isPrivate = false then
    (.returned none, m)
  else
    match t.rule with
    | none => (.returned none, m)
    | some rule =>
        if t.isPrivateFeeFree then
          (.returned (some true), m)
        else
          match t.getPrivateFee rule, rule.pay with
          | some money, some pay => t.costFor money m pay
          | _, _ => (.error, m)

/-! ### All or nothing -/

/-- The owner of the root of the table's club. -/
def bossGuid : Option Guid :=
  (t.club.bind fun club => t.clubs.row club.id).map fun club => (t.clubs.root club).owner

/-- The players liable for the fee by the pay option. -/
def liable : PayOption → List Guid
  | .AA => t.players
  | .boss => t.bossGuid.toList
  | .roomOwner => t.owner.toList
  | .other => []

/-- Each liable player has paid the fee and nothing else has changed. -/
def Paid (pay : PayOption) (money : Int) (m m' : Moneys) : Prop :=
  m'.club = m.club ∧ ∀ guid moneyId, m'.player guid moneyId =
    if guid ∈ t.liable pay ∧ moneyId = 0 then m.player guid moneyId - money
    else m.player guid moneyId

/-- The fee is paid and the call says so, or no money has changed. -/
def AllOrNothing (m : Moneys) : Prop :=
  ((t.costPrivateFee m).1 = .returned (some true) ∧
    ∃ rule pay money, t.rule = some rule ∧ rule.pay = some pay ∧
      t.getPrivateFee rule = some (some money) ∧ t.Paid pay money m (t.costPrivateFee m).2) ∨
    (t.costPrivateFee m).2 = m

/-- The boss or the owner, if that is who pays and is there. -/
def payer : PayOption → Option Guid
  | .boss => t.bossGuid.filter fun guid => t.playerData guid
  | .roomOwner => if t.ownerGuid.isSome then t.owner else none
  | _ => none

/-- The one player who is charged, and the fee. -/
def charged : Option (Guid × Int) :=
  match t.isPrivate, t.isPrivateFeeFree, t.rule with
  | true, false, some rule =>
      rule.pay.bind fun pay => (t.payer pay).bind fun guid =>
        (t.getPrivateFee rule).join.map fun money => (guid, money)
  | _, _, _ => none

variable {t : Table} {m : Moneys} {guid : Guid} {money : Option Int}

theorem costEach_same (players : List Guid) : (costEach money players m).2 = m := by
  cases players with
  | nil => rfl
  | cons guid players =>
      cases money with
      | none => rfl
      | some moneyEach => rfl

theorem costEach_fst (players : List Guid) : (costEach money players m).1 ≠ .returned (some true) := by
  cases players with
  | nil => simp [costEach]
  | cons guid players =>
      cases money with
      | none => simp [costEach]
      | some moneyEach => simp [costEach, incrMoney, Price.moneyId]

theorem costOne_fst : (costOne money guid m).1 ≠ .returned (some true) := by
  cases money with
  | none => simp [costOne]
  | some money => simp [costOne, incrMoney, Price.moneyId, Price.money]

/-- What the money becomes when one player is charged, if anyone is. -/
def after (m : Moneys) : Option (Guid × Int) → Moneys
  | none => m
  | some (guid, money) => m.add guid 0 (-money)

theorem costOne_snd :
    (costOne money guid m).2 = after m (money.map fun money => (guid, money)) := by
  cases money with
  | none => rfl
  | some money => rfl

theorem costFor_snd (t : Table) (pay : PayOption) : (t.costFor money m pay).2 =
    after m ((t.payer pay).bind fun guid => money.map fun money => (guid, money)) := by
  cases pay with
  | AA => exact costEach_same t.players
  | other => rfl
  | boss =>
      rw [costFor, payer, bossGuid]
      cases t.club with
      | none => rfl
      | some club =>
          rw [Option.bind_some]
          cases row : t.clubs.row club.id with
          | none => simp [row, after]
          | some club =>
              rw [Option.map_some, Option.filter_some]
              by_cases there : t.playerData (t.clubs.root club).owner = true
              · simpa [row, there] using costOne_snd
              · simp [row, there, after]
  | roomOwner =>
      rw [costFor, payer]
      cases t.owner with
      | none => cases t.ownerGuid <;> rfl
      | some owner =>
          cases t.ownerGuid with
          | none => rfl
          | some _ => exact costOne_snd

theorem costFor_fst (t : Table) (pay : PayOption) :
    (t.costFor money m pay).1 ≠ .returned (some true) := by
  cases pay with
  | AA => exact costEach_fst t.players
  | other => simp [costFor]
  | boss =>
      rw [costFor]
      cases t.club with
      | none => simp
      | some club =>
          cases row : t.clubs.row club.id with
          | none => simp [row]
          | some club =>
              by_cases there : t.playerData (t.clubs.root club).owner = true
              · simpa [row, there] using costOne_fst
              · simp [row, there]
  | roomOwner =>
      rw [costFor]
      cases t.owner with
      | none => cases t.ownerGuid <;> simp
      | some owner =>
          cases t.ownerGuid with
          | none => simp
          | some _ => exact costOne_fst

/-- The money after the call, and a call that says that it succeeded has charged nobody. -/
theorem costPrivateFee_spec (t : Table) (m : Moneys) :
    (t.costPrivateFee m).2 = after m t.charged ∧
      ((t.costPrivateFee m).1 = .returned (some true) → t.charged = none) := by
  rw [costPrivateFee, charged]
  cases t.isPrivate with
  | false => exact ⟨rfl, fun _ => rfl⟩
  | true =>
      rw [if_neg (by decide)]
      cases t.rule with
      | none => cases t.isPrivateFeeFree <;> exact ⟨rfl, fun _ => rfl⟩
      | some rule =>
          cases t.isPrivateFeeFree with
          | true => exact ⟨rfl, fun _ => rfl⟩
          | false =>
              cases option : rule.pay with
              | none => cases fee : t.getPrivateFee rule <;> simp [option, fee, after]
              | some pay =>
                  cases fee : t.getPrivateFee rule with
                  | none => simp [option, fee, after]
                  | some money =>
                      simp only [option, fee, Option.bind_some, Option.join_some]
                      exact ⟨t.costFor_snd pay, fun success => absurd success (t.costFor_fst pay)⟩

/-- A charge of nothing changes nothing, and any other one does. -/
theorem after_same {guid : Guid} {money : Int} : after m (some (guid, money)) = m ↔ money = 0 := by
  constructor
  · intro same
    have here := congrArg (fun m => m.player guid 0) same
    simp only [after, Moneys.add, Function.update_self] at here
    omega
  · rintro rfl
    simp [after, Moneys.add]

/-- The fee is taken whole or not at all just when it is not the boss or the owner who is charged
it: these are charged and the call returns nothing. -/
theorem cost_private_fee_iff (t : Table) (m : Moneys) :
    t.AllOrNothing m ↔ ∀ guid money, t.charged = some (guid, money) → money = 0 := by
  obtain ⟨left, success⟩ := t.costPrivateFee_spec m
  have unchanged : t.AllOrNothing m ↔ after m t.charged = m := by
    rw [AllOrNothing, left]
    refine ⟨fun h => ?_, .inr⟩
    cases h with
    | inl paid => rw [success paid.1, after]
    | inr same => exact same
  rw [unchanged]
  cases t.charged with
  | none => exact iff_of_true rfl nofun
  | some charge =>
      obtain ⟨guid, money⟩ := charge
      rw [after_same]
      constructor
      · rintro rfl guid money same
        cases same
        rfl
      · intro all
        exact all guid money rfl

/-! ### A table paid by its owner -/

def ownerTable : Table where
  isPrivate := true
  rule := some ⟨some .roomOwner, some none, some none⟩
  club := none
  owner := some 7
  ownerGuid := some 7
  players := [7, 8]
  distinct := by decide
  fee := .byRound [4]
  clubs := ⟨fun _ => none, fun _ => 0, fun _ _ _ _ _ none => nomatch none⟩
  switches := ⟨true, fun _ => true, fun _ => true⟩
  playerData := fun _ => true

/-- The owner has paid four and the call has not said so. -/
theorem owner_pays_without_success : ¬ ∀ (t : Table) (m : Moneys), t.AllOrNothing m := by
  intro all
  have paid : (ownerTable.costPrivateFee ⟨fun _ _ => 0, fun _ _ => 0⟩).1 = .returned none := rfl
  cases all ownerTable ⟨fun _ _ => 0, fun _ _ => 0⟩ with
  | inl said =>
      rw [said.1] at paid
      cases paid
  | inr same =>
      have now : (ownerTable.costPrivateFee ⟨fun _ _ => 0, fun _ _ => 0⟩).2.player 7 0 = -4 := by decide
      rw [same] at now
      cases now

end Table
end FkServer.PrivateFee
