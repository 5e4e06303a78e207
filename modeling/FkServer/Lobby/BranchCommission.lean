import FkServer.Club.BaseClub
import FkServer.Club.TeamBranches
import FkServer.Lobby.Tax

/-!
How one player's commission tax is split over the teams of the branch above the player. A level
keeps what is left when the next level has taken its cumulative share, which is cut to between
nothing and all of it, so whatever the configurations say the levels' parts make up the tax.
What a team is paid in the end is a floor of all its parts.
-/
namespace FkServer.Tax
open RedisHash Hash ParentForest

/-! ### The configured commissions -/

/-- A commission of a team, either `percent` or the entries `{range, value}` of a roulette. -/
structure CommissionConf where
  percent : Option ℚ
  ranges : List (ℚ × ℚ)

/-- `table.nums(conf) == 0` -/
def CommissionConf.empty (conf : CommissionConf) : Bool := conf.percent = none ∧ conf.ranges = []

/-- `conf` unless it is nil or empty. -/
def filled (conf : Option CommissionConf) : Option CommissionConf := conf.filter fun conf => !conf.empty

/-- The stored commissions of one club and one template. -/
structure CommissionConfs where
  partnerTemplateCommission : Guid → Option CommissionConf
  partnerCommission : Guid → Option CommissionConf
  templateDefaultCommission : Guid → Option CommissionConf
  partnerConf : Guid → Option CommissionConf

/-- `club_utils.get_template_commission_conf` -/
def getTemplateCommissionConf (confs : CommissionConfs) (partners : Hash Guid) (team : Guid) :
    Option CommissionConf :=
  match filled (confs.partnerTemplateCommission team) with
  | some conf => some conf
  | none =>
      match filled (confs.partnerCommission team) with
      | some conf => some conf
      | none =>
          match nonzero (partners.hget team) with
          | none => none
          | some parent =>
              match filled (confs.templateDefaultCommission parent) with
              | some conf => some conf
              | none => confs.partnerConf parent

/-- The loop of `roulette_commission`, with the range before. -/
def rouletteFrom (tax : ℚ) : ℚ → List (ℚ × ℚ) → ℚ
  | _, [] => 0
  | s0, (range, value) :: conf =>
      if s0 < tax ∧ tax ≤ range then value else rouletteFrom tax range conf

def rouletteCommission (lua : LuaSort) (conf : List (ℚ × ℚ)) (tax : ℚ) : ℚ :=
  rouletteFrom tax 0 (lua.sort (fun l r => decide (l.1 < r.1)) conf)

/-- `math.floor(rate * commission)`; `floor percent commission` is the floor of the product in
floating point. -/
def percentageCommission (floor : ℚ → ℚ → Int) (conf : Option CommissionConf)
    (commission : ℚ) : ℚ :=
  floor ((conf.bind CommissionConf.percent).getD 0) commission

/-- `(conf and not conf.percent) and conf or {}` -/
def fixedRanges : Option CommissionConf → List (ℚ × ℚ)
  | some ⟨none, ranges⟩ => ranges
  | _ => []

def fixedCommission (lua : LuaSort) (conf : Option CommissionConf) (commission : ℚ) : ℚ :=
  let value := rouletteCommission lua (fixedRanges conf) commission
  if commission < value then commission else value

/-- `club_utils.team_commission` -/
def teamCommission (lua : LuaSort) (floor : ℚ → ℚ → Int) (conf : Option CommissionConf)
    (commission : ℚ) (percentage : Bool) : ℚ :=
  if percentage then percentageCommission floor conf commission
  else fixedCommission lua conf commission

/-- A table whose branches and commissions are those of a forest of partners. -/
structure RatedTable extends TaxTable where
  forest : PartnerForest
  confs : CommissionConfs
  floor : ℚ → ℚ → Int
  percentage : Bool
  branch_eq : ∀ guid, ClubUtils.teamBranch forest.club guid = some (branch guid)
  team_eq : ∀ team commission, teamCommission team commission = Tax.teamCommission lua floor
    (getTemplateCommissionConf confs forest.club.memberPartnerView team) commission percentage

/-! ### What is configured and who receives what -/

/-- The value of the least range that is not below the tax, or nothing if all are below. -/
def GivesValue (ranges : List (ℚ × ℚ)) (tax value : ℚ) : Prop :=
  (∃ range, (range, value) ∈ ranges ∧ tax ≤ range ∧ ∀ e ∈ ranges, tax ≤ e.1 → range ≤ e.1) ∨
    value = 0 ∧ ∀ e ∈ ranges, e.1 < tax

namespace RatedTable

variable (t : RatedTable)

def confOf (team : Guid) : Option CommissionConf :=
  getTemplateCommissionConf t.confs t.forest.club.memberPartnerView team

/-- The commission that is configured for a team when this much comes down to its father. -/
def Configured (team : Guid) (commission value : ℚ) : Prop :=
  if t.percentage then value = t.floor (((t.confOf team).bind CommissionConf.percent).getD 0) commission
  else GivesValue (fixedRanges (t.confOf team)) commission value

/-- The configured commission goes on, but no less than nothing and no more than all. -/
def PassesOn (team : Guid) (commission handed : ℚ) : Prop :=
  ∃ value, t.Configured team commission value ∧ handed = min (max value 0) commission

/-- How a tax comes down a branch: `handed i` is what gets to its level `i`. -/
structure Cascade (branch : List Guid) (tax : ℚ) (handed : Nat → ℚ) : Prop where
  top : handed 0 = tax
  next : ∀ i son, branch[i + 1]? = some son → 0 < handed i → t.PassesOn son (handed i) (handed (i + 1))
  bottom : ∀ i, branch.length ≤ i + 1 → handed (i + 1) = 0
  spent : ∀ i, handed i ≤ 0 → handed (i + 1) = 0

/-- The shares of a player's tax are not negative and make up the tax, and each level of the
branch has the difference between what gets to it and what it hands on by the configuration. -/
structure Split (taxes : Guid → ℚ) (guid : Guid) : Prop where
  nonneg : ∀ share ∈ t.sharesOf taxes guid, 0 ≤ share.2
  sum : ((t.sharesOf taxes guid).map Prod.snd).sum = if t.branch guid = [] then 0 else max (taxes guid) 0
  levels : 0 < taxes guid → ∃ handed, t.Cascade (t.branch guid) (taxes guid) handed ∧
    ∀ i team, (t.branch guid)[i]? = some team →
      (t.sharesOf taxes guid)[i]? = some (team, handed i - handed (i + 1)) ∨
        (t.sharesOf taxes guid).length ≤ i ∧ handed i = 0

/-- The shares that teams get of the same tax of every player. -/
def taxDues (tax : ℚ) : List (Guid × ℚ) :=
  if t.template then t.shares fun _ => tax else []

/-- The shares that teams get of the winners' taxes, after the insurance. -/
def winnerDues (taxes : List (Guid × ℚ)) : List (Guid × ℚ) :=
  if t.template then t.insurance taxes ++ t.shares fun _ => t.eachWin taxes else []

/-- The configured values are whole numbers, and so is the least share. -/
structure WholeConf : Prop where
  ranges : ∀ team, ∀ e ∈ fixedRanges (t.confOf team), IsWhole e.2
  minEnsurance : ∀ conf least, t.conf = some conf → conf.minEnsurance = some least → IsWhole least

end RatedTable

/-- What a team is credited in all. -/
def Books.received (b : Books) (team : Guid) : Int :=
  ((b.credits.filter fun e => e.1 = team).map Prod.snd).sum

variable {payments logs table : List (Guid × ℚ)} {team : Guid} {commission tax : ℚ} {t : RatedTable}

/-! ### The configured value -/

theorem strictOrder_range : StrictOrder fun l r : ℚ × ℚ => decide (l.1 < r.1) where
  asymm := by
    intro a b h
    rw [decide_eq_true_eq] at h
    rw [decide_eq_false_iff_not]
    exact not_lt.2 h.le
  trans := by
    intro a b c h h'
    rw [decide_eq_false_iff_not, not_lt] at h h' ⊢
    exact h'.trans h

theorem rouletteFrom_gives {s0 : ℚ} (above : s0 < tax) {conf : List (ℚ × ℚ)}
    (sorted : conf.Pairwise fun a b => a.1 ≤ b.1) : GivesValue conf tax (rouletteFrom tax s0 conf) := by
  induction conf generalizing s0 with
  | nil => exact .inr ⟨rfl, fun e member => absurd member List.not_mem_nil⟩
  | cons e rest ih =>
      obtain ⟨range, value⟩ := e
      obtain ⟨least, sorted⟩ := List.pairwise_cons.1 sorted
      rw [rouletteFrom]
      by_cases within : tax ≤ range
      · rw [if_pos ⟨above, within⟩]
        refine .inl ⟨range, List.mem_cons_self, within, fun e member _ => ?_⟩
        cases List.mem_cons.1 member with
        | inl same => exact same ▸ le_rfl
        | inr later => exact least e later
      · have below := not_le.1 within
        rw [if_neg fun both => within both.2]
        obtain ⟨found, member, reached, first⟩ | ⟨none, all⟩ := ih below sorted
        · refine .inl ⟨found, List.mem_cons_of_mem _ member, reached, fun e member up => ?_⟩
          cases List.mem_cons.1 member with
          | inl same =>
              rw [same] at up
              exact absurd up within
          | inr later => exact first e later up
        · exact .inr ⟨none, List.forall_mem_cons.2 ⟨below, all⟩⟩

theorem rouletteCommission_gives (lua : LuaSort) (positive : 0 < tax) (conf : List (ℚ × ℚ)) :
    GivesValue conf tax (rouletteCommission lua conf tax) := by
  have perm := lua.perm (fun l r : ℚ × ℚ => decide (l.1 < r.1)) conf
  have sorted : (lua.sort (fun l r : ℚ × ℚ => decide (l.1 < r.1)) conf).Pairwise fun a b => a.1 ≤ b.1 := by
    refine (lua.sorted _ strictOrder_range conf).imp fun h => ?_
    rw [decide_eq_false_iff_not] at h
    exact not_lt.1 h
  obtain ⟨range, member, within, first⟩ | ⟨none, all⟩ := rouletteFrom_gives positive sorted
  · exact .inl ⟨range, perm.mem_iff.1 member, within, fun e here => first e (perm.mem_iff.2 here)⟩
  · exact .inr ⟨none, fun e here => all e (perm.mem_iff.2 here)⟩

/-- What the table passes on to a team is what the configuration says. -/
theorem passesOn (t : RatedTable) (team : Guid) (positive : 0 < commission) :
    t.PassesOn team commission (min (max (t.teamCommission team commission) 0) commission) := by
  rw [t.team_eq, teamCommission]
  split
  · rename_i percentage
    refine ⟨_, ?_, rfl⟩
    rw [RatedTable.Configured, if_pos percentage]
    rfl
  · rename_i fixed
    refine ⟨rouletteCommission t.lua (fixedRanges (t.confOf team)) commission, ?_, ?_⟩
    · rw [RatedTable.Configured, if_neg fixed]
      exact rouletteCommission_gives t.lua positive _
    · rw [fixedCommission]
      split
      · rename_i more
        rw [max_eq_left positive.le, min_self]
        exact (min_eq_right (more.le.trans (le_max_left _ _))).symm
      · rfl

/-! ### The levels of a branch -/

/-- What gets to the levels, down to the last one that is reached, and the differences. -/
theorem levelShares_cascade (t : RatedTable) (branch : List Guid) (positive : 0 < commission) :
    ∃ handed, t.Cascade branch commission handed ∧ ∀ i team, branch[i]? = some team →
      (t.levelShares branch commission)[i]? = some (team, handed i - handed (i + 1)) ∨
        (t.levelShares branch commission).length ≤ i ∧ handed i = 0 := by
  induction branch generalizing commission with
  | nil =>
      refine ⟨fun i => if i = 0 then commission else 0, ⟨rfl, fun i son h => ?_, fun i _ => rfl,
        fun i _ => rfl⟩, fun i team h => ?_⟩
      · cases h
      · cases h
  | cons myself rest ih =>
      have passed : ∀ son below, rest = son :: below →
          t.PassesOn son commission (t.sonCommission rest commission) := by
        intro son below split
        rw [split, TaxTable.sonCommission_cons]
        exact passesOn t son positive
      obtain ⟨low, -⟩ := t.sonCommission_bounds rest positive
      rw [TaxTable.levelShares]
      generalize left : t.sonCommission rest commission = son at passed low ⊢
      by_cases goes : son ≤ 0
      · -- nothing comes to the level below
        have nothing : son = 0 := le_antisymm goes low
        rw [if_pos goes, nothing]
        refine ⟨fun i => if i = 0 then commission else 0, ⟨rfl, fun i below h some => ?_,
          fun i _ => rfl, fun i _ => rfl⟩, fun i team h => ?_⟩
        · cases i with
          | zero =>
              rw [List.getElem?_cons_succ] at h
              cases rest with
              | nil => cases h
              | cons first later =>
                  cases h
                  exact nothing ▸ passed below later rfl
          | succ i => exact absurd some (lt_irrefl _)
        · cases i with
          | zero =>
              cases h
              exact .inl rfl
          | succ i => exact .inr ⟨Nat.le_add_left 1 i, rfl⟩
      · rw [if_neg goes]
        obtain ⟨handed, cascade, levels⟩ := ih (not_le.1 goes)
        refine ⟨fun i => Nat.casesOn i commission handed, ⟨rfl, fun i below h some => ?_, fun i short => ?_,
          fun i spent => ?_⟩, fun i team h => ?_⟩
        · rw [List.getElem?_cons_succ] at h
          cases i with
          | zero =>
              cases rest with
              | nil => cases h
              | cons first later =>
                  cases h
                  have here := passed below later rfl
                  rw [← cascade.top] at here
                  exact here
          | succ i => exact cascade.next i below h some
        · cases i with
          | zero =>
              have empty : rest = [] := by
                refine List.length_eq_zero_iff.1 ?_
                rw [List.length_cons] at short
                omega
              rw [empty, TaxTable.sonCommission_nil positive] at left
              exact absurd left.ge goes
          | succ i => exact cascade.bottom i (Nat.le_of_succ_le_succ short)
        · cases i with
          | zero => exact absurd spent (not_le.2 positive)
          | succ i => exact cascade.spent i spent
        · cases i with
          | zero =>
              cases h
              refine .inl ?_
              rw [List.getElem?_cons_zero, ← cascade.top]
              rfl
          | succ i =>
              rw [List.getElem?_cons_succ] at h ⊢
              cases levels i team h with
              | inl share => exact .inl share
              | inr unreached => exact .inr ⟨Nat.succ_le_succ unreached.1, unreached.2⟩

theorem sharesOf_split (t : RatedTable) (taxes : Guid → ℚ) (guid : Guid) : t.Split taxes guid := by
  refine ⟨t.sharesOf_nonneg taxes guid, t.sharesOf_sum taxes guid, fun positive => ?_⟩
  have all : t.sharesOf taxes guid = t.levelShares (t.branch guid) (taxes guid) := if_pos positive
  rw [all]
  exact levelShares_cascade t (t.branch guid) positive

/-! ### What the teams receive -/

theorem received_eq (positive : ∀ e ∈ payments, 0 ≤ e.2) (logs : List (Guid × ℚ)) (team : Guid) :
    (Books.empty.pay payments logs).received team = floored (due payments team) := by
  obtain ⟨distinct, keys, amounts⟩ := tallies_pay payments logs
  have least := floored_nonneg (due_nonneg positive team)
  have outside : team ∉ payees payments → floored (due payments team) = 0 := by
    intro none
    rw [due_eq_zero none, floored, zero_add, Int.floor_eq_zero_iff]
    norm_num
  rw [Books.received, Books.credits]
  rw [← keys, payees, List.mem_toFinset] at outside
  clear keys
  generalize (Books.empty.pay payments logs).commissions = table at *
  have none : ∀ table : List (Guid × ℚ), team ∉ table.map Prod.fst →
      ((((table.map fun e => (e.1, floored e.2)).filter fun e => 0 < e.2).filter
        fun e => e.1 = team).map Prod.snd).sum = 0 := by
    intro table absent
    rw [List.filter_eq_nil_iff.2]
    · rfl
    · intro e member same
      obtain ⟨e, among, rfl⟩ := List.mem_map.1 (List.mem_of_mem_filter member)
      rw [decide_eq_true_eq] at same
      exact absent (same ▸ List.mem_map_of_mem among)
  induction table with
  | nil => exact (outside List.not_mem_nil).symm
  | cons e rest ih =>
      obtain ⟨here, later⟩ := List.forall_mem_cons.1 amounts
      rw [List.map_cons, List.nodup_cons] at distinct
      by_cases same : e.1 = team
      · have value : e.2 = due payments team := by rw [here, same]
        rw [List.map_cons, List.filter_cons, value]
        split
        · rw [List.filter_cons, if_pos (decide_eq_true same), List.map_cons, List.sum_cons,
            none rest (same ▸ distinct.1), add_zero]
        · rename_i nothing
          have zero : ¬ 0 < floored (due payments team) := by simpa using nothing
          rw [none rest (same ▸ distinct.1)]
          omega
      · have others := ih distinct.2 later fun absent => outside (by
          rw [List.map_cons]
          exact List.not_mem_cons_of_ne_of_not_mem (Ne.symm same) absent)
        rw [List.map_cons, List.filter_cons]
        split
        · rw [List.filter_cons, if_neg (by simpa using same)]
          exact others
        · exact others

theorem taxDues_nonneg (t : RatedTable) (tax : ℚ) : ∀ e ∈ t.taxDues tax, 0 ≤ e.2 := by
  rw [RatedTable.taxDues]
  split
  · exact t.shares_nonneg _
  · exact fun _ member => absurd member List.not_mem_nil

theorem winnerDues_nonneg (t : RatedTable) (taxes : List (Guid × ℚ)) :
    ∀ e ∈ t.winnerDues taxes, 0 ≤ e.2 := by
  rw [RatedTable.winnerDues]
  split
  · exact List.forall_mem_append.2 ⟨t.insurance_nonneg taxes, t.shares_nonneg _⟩
  · exact fun _ member => absurd member List.not_mem_nil

theorem doTaxCommission_received (t : RatedTable) (tax : ℚ) (team : Guid) :
    (t.doTaxCommission tax).received team = floored (due (t.taxDues tax) team) := by
  rw [← received_eq (taxDues_nonneg t tax) (TaxTable.logged (t.taxDues tax))]
  rw [RatedTable.taxDues]
  cases template : t.template with
  | false =>
      rw [TaxTable.doTaxCommission, if_pos template]
      rfl
  | true =>
      rw [TaxTable.doTaxCommission_pays (by simp [template])]
      rfl

theorem doWinnerCommission_received (t : RatedTable) (taxes : List (Guid × ℚ)) (team : Guid) :
    (t.doWinnerCommission taxes).received team = floored (due (t.winnerDues taxes) team) := by
  rw [← received_eq (winnerDues_nonneg t taxes) (if t.template then
    t.insurance taxes ++ TaxTable.logged (t.shares fun _ => t.eachWin taxes) else [])]
  rw [RatedTable.winnerDues]
  cases template : t.template with
  | false =>
      rw [TaxTable.doWinnerCommission, if_pos template]
      rfl
  | true =>
      rw [TaxTable.doWinnerCommission_pays (by simp [template])]
      rfl

/-! ### Whole amounts -/

theorem RatedTable.WholeConf.passes (whole : t.WholeConf) : t.PassesWhole := by
  intro team commission h
  rw [t.team_eq, teamCommission]
  split
  · exact isWhole_intCast _
  · rw [fixedCommission]
    split
    · exact h
    · have from_range : ∀ conf : List (ℚ × ℚ), (∀ e ∈ conf, IsWhole e.2) →
          ∀ s0, IsWhole (rouletteFrom commission s0 conf) := by
        intro conf
        induction conf with
        | nil => exact fun _ _ => isWhole_zero
        | cons e rest ih =>
            intro values s0
            obtain ⟨here, later⟩ := List.forall_mem_cons.1 values
            rw [rouletteFrom]
            split
            · exact here
            · exact ih later _
      exact from_range _ (fun e member => whole.ranges team e ((t.lua.perm _ _).mem_iff.1 member)) 0

/-- With whole amounts a team receives what it is due of the same tax of every player. -/
theorem taxDues_whole (whole : t.WholeConf) (h : IsWhole tax) : ∀ e ∈ t.taxDues tax, IsWhole e.2 := by
  rw [RatedTable.taxDues]
  split
  · exact whole.passes.shares fun _ => h
  · exact fun _ member => absurd member List.not_mem_nil

theorem winnerDues_whole (whole : t.WholeConf) {taxes : List (Guid × ℚ)}
    (h : ∀ e ∈ taxes, IsWhole e.2) : ∀ e ∈ t.winnerDues taxes, IsWhole e.2 := by
  rw [RatedTable.winnerDues]
  split
  · exact List.forall_mem_append.2 ⟨TaxTable.insurance_whole whole.minEnsurance h,
      whole.passes.shares fun _ => isWhole_intCast _⟩
  · exact fun _ member => absurd member List.not_mem_nil

/-- Both commissions split each player's tax by the configuration. A team receives the floor of
all its shares, and with whole amounts all of them. -/
theorem branch_commission_split (t : RatedTable) (tax : ℚ) (taxes : List (Guid × ℚ)) :
    ((∀ guid, t.Split (fun _ => tax) guid) ∧
      ∀ team, (t.doTaxCommission tax).received team = floored (due (t.taxDues tax) team)) ∧
    ((∀ guid, t.Split (fun _ => t.eachWin taxes) guid) ∧
      ∀ team, (t.doWinnerCommission taxes).received team = floored (due (t.winnerDues taxes) team)) ∧
    (t.WholeConf →
      (IsWhole tax → ∀ team, (t.doTaxCommission tax).received team = due (t.taxDues tax) team) ∧
      ((∀ e ∈ taxes, IsWhole e.2) →
        ∀ team, (t.doWinnerCommission taxes).received team = due (t.winnerDues taxes) team)) := by
  refine ⟨⟨fun guid => sharesOf_split t _ guid, doTaxCommission_received t tax⟩,
    ⟨fun guid => sharesOf_split t _ guid, doWinnerCommission_received t taxes⟩,
    fun whole => ⟨fun h team => ?_, fun h team => ?_⟩⟩
  · rw [doTaxCommission_received, floored_eq (due_whole (taxDues_whole whole h) team)]
  · rw [doWinnerCommission_received, floored_eq (due_whole (winnerDues_whole whole h) team)]

/-! ### A branch of two teams -/

/-- The owner 1, the team 2 below and its player 3. -/
def twoTeams : Club :=
  { BaseClub.create 1 .union (fun _ => true) with
    clubRole := ⟨[(1, .boss), (2, .partner)]⟩
    clubMemberPartner := ⟨[(2, 1), (3, 2)]⟩ }

theorem twoTeams_smaller (guid parent : Guid)
    (up : partnerOf twoTeams.memberPartnerView guid = some parent) : parent < guid := by
  have stored := (partnerOf_eq_some.1 up).1
  rw [Hash.hget, List.lookup_eq_some_iff] at stored
  obtain ⟨before, after, split, -⟩ := stored
  have member : (guid, parent) ∈ [(2, 1), (3, 2)] := by
    rw [show [(2, 1), (3, 2)] = before ++ (guid, parent) :: after from split]
    simp
  simp only [List.mem_cons, Prod.mk.injEq, List.not_mem_nil, or_false] at member
  rcases member with ⟨rfl, rfl⟩ | ⟨rfl, rfl⟩ <;> decide

def twoTeamsForest : PartnerForest where
  club := twoTeams
  grounded := .of_smaller twoTeams_smaller
  noPartner := rfl
  noRole := rfl

/-- The team 2 gets half of a tax of 1. -/
def halves : CommissionConfs where
  partnerTemplateCommission := fun team => if team = 2 then some ⟨none, [(1, 1 / 2)]⟩ else none
  partnerCommission := fun _ => none
  templateDefaultCommission := fun _ => none
  partnerConf := fun _ => none

def halfTable : RatedTable where
  players := [3]
  distinct := by decide
  owner := 1
  union := true
  template := true
  conf := some { AA := some 1, AA1 := false, bigWin := none, minEnsurance := none }
  branch := fun guid => (ClubUtils.teamBranch twoTeams guid).getD []
  teamCommission := fun team commission => teamCommission .insertion (fun _ _ => 0)
    (getTemplateCommissionConf halves twoTeams.memberPartnerView team) commission false
  winlose := fun _ => 0
  lua := .insertion
  keys := fun list => list
  keys_perm := fun list => .refl list
  forest := twoTeamsForest
  confs := halves
  floor := fun _ _ => 0
  percentage := false
  branch_eq := by
    intro guid
    obtain ⟨teams, climbs⟩ := twoTeamsForest.grounded guid
    have walk : twoTeams.teamsFrom (twoTeams.memberPartnerView.hget guid) = some teams :=
      Club.teamsFrom_complete climbs
    rw [show twoTeamsForest.club = twoTeams from rfl, ClubUtils.teamBranch, walk]
    rfl
  team_eq := fun _ _ => rfl

theorem half_shares_split : halfTable.Split (fun _ => 1) 3 ∧
    (halfTable.doTaxCommission 1).received 2 = floored (due (halfTable.taxDues 1) 2) := by
  obtain ⟨⟨splits, received⟩, -⟩ := branch_commission_split halfTable 1 [(3, 1)]
  exact ⟨splits 3, received 2⟩

/-- Of a tax of 1 two teams are due a half each, and neither is credited anything. -/
theorem halves_lost : ¬ ∀ (t : RatedTable) (tax : ℚ) (team : Guid),
    (t.doTaxCommission tax).received team = due (t.taxDues tax) team := by
  intro claim
  have half : ((halfTable.doTaxCommission 1).received 2 = 0 ∧ due (halfTable.taxDues 1) 2 = 1 / 2) := by
    decide +kernel
  have same := claim halfTable 1 2
  rw [half.1, half.2] at same
  norm_num at same

end FkServer.Tax
