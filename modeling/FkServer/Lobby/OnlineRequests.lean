import FkServer.Library.Runs
import FkServer.Lobby.OnlineCounters

/-!
The requests of players who sit down, create rooms and log in, and runs of all requests: the
counters stay right as long as no request goes on after an error in the lock of a club.
-/
namespace FkServer.OnlineCounters
open Seats (StandupReason)

variable {C : Cluster} {s s' s'' : System} {p q : Guid} {me g : ServerId} {env : Env}

/-! ### Sitting down -/

/-- From the lobby the player has got a chair on the server `me`, which is not counted yet. -/
structure Boarded (C : Cluster) (s s' : System) (p : Guid) (me : ServerId) : Prop where
  counters : s'.counters = s.counters
  queue : s'.queue = s.queue
  rest : Rest C s' p
  place : Place C s' p (some me)
  game : C.firstGameType me ≠ 1

theorem Boarded.enterFrom (h : Boarded C s s' p me) (kept : Kept C s)
    (here : s.serverOf p = some g) (lobby : C.firstGameType g = 1) :
    Kept C (s'.enterFrom C me p (some g)) := by
  have other : g ≠ me := fun eq => h.game (eq ▸ lobby)
  have serverOf : s'.serverOf = s.serverOf := by
    funext q
    rw [System.serverOf, System.serverOf, h.queue]
  refine Kept.switchFrom ?_ (h.rest.frame (frame_setSession p s' me _)) ?_ other h.game
    ((alike_setSession s' me p rfl rfl).place h.place)
  · show Counted C s'.counters s'.serverOf
    rw [h.counters, serverOf]
    exact kept.counted
  · show s'.serverOf p = some g
    rw [serverOf]
    exact here

theorem Rest.setPrivateTable (h : Rest C s p) {f : TableId → Option PrivateTable}
    (open_ : ∀ tableId info, f tableId = some info → (s.tables info.roomId tableId).isSome) :
    Rest C { s with privateTable := f } p :=
  h.keeps (fun _ _ => ⟨.of_eq rfl (fun _ => ⟨rfl, rfl⟩) fun _ _ _ t there sits => ⟨t, there, sits⟩,
    rfl⟩) ⟨h.tables.lobby, h.tables.listed, h.tables.once, open_⟩

theorem Boarded.setPrivateTable (h : Boarded C s s' p me) {f : TableId → Option PrivateTable}
    (open_ : ∀ tableId info, f tableId = some info → (s'.tables info.roomId tableId).isSome) :
    Boarded C s { s' with privateTable := f } p me := by
  refine ⟨h.counters, h.queue, h.rest.setPrivateTable open_, ?_, h.game⟩
  have alike : Alike p s' { s' with privateTable := f } :=
    .of_eq rfl (fun _ => ⟨rfl, rfl⟩) fun _ _ _ t there sits => ⟨t, there, sits⟩
  exact alike.place h.place

theorem Boarded.setTableClub (h : Boarded C s s' p me) (tableId : TableId) (clubId : ClubId) :
    Boarded C s (s'.setTableClub tableId clubId) p me := by
  refine h.setPrivateTable fun id info at_ => ?_
  by_cases same : id = tableId
  · rw [same, Function.update_self] at at_
    obtain ⟨info', before, eq⟩ := Option.map_eq_some_iff.1 at_
    rw [same, ← eq]
    exact h.rest.tables.info tableId info' before
  · rw [Function.update_of_ne same] at at_
    exact h.rest.tables.info id info at_

theorem playerSitDown_spec {tableId : TableId} {chair : Nat} {reply : Reply Unit}
    (eq : s.playerSitDown me tableId p chair false env = (s', reply)) :
    (reply = .done () ∧ ∃ t, s.tables me tableId = some t ∧ t.players.lookup chair = none ∧
      s' = s.sitDown me tableId t p chair) ∨ (reply ≠ .done () ∧ s' = s) := by
  rw [System.playerSitDown] at eq
  split at eq
  · cases eq
    exact .inr ⟨by simp, rfl⟩
  · rename_i t there
    split at eq
    · rename_i allowed
      cases eq
      refine .inl ⟨rfl, t, there, ?_, rfl⟩
      rw [Table.canSitDown, if_neg (by simp)] at allowed
      split at allowed
      · cases allowed
      · rename_i free
        exact Option.not_isSome_iff_eq_none.1 free
    · rename_i reply' refused
      cases eq
      refine .inr ⟨fun eq => ?_, rfl⟩
      exact refused () eq

theorem frame_enterTable (C : Cluster) (p : Guid) (s : System) (me : ServerId) (tableId : TableId) :
    Frame p s (s.enterTable C me tableId p) := by
  have entered : Frame p s (s.playerEnterRoom C me p) := by
    rw [System.playerEnterRoom, System.arrive]
    exact frame_setOnline p s _
  exact entered.trans (frame_setOnline p _ _)

/-- The chair is free or the player's own. -/
theorem Rest.sitDown (h : Rest C s p) {tableId : TableId} {chair : Nat} {t : Table}
    (there : s.tables me tableId = some t)
    (free : ∀ q ≠ p, t.players.lookup chair ≠ some q) :
    Rest C (s.sitDown me tableId t p chair) p := by
  have sat := h.frame (frame_setSession p s me fun q =>
    { q with tableId := some tableId, chairId := some chair, active := true })
  refine (sat.setTable there fun q other c at_ => ?_).frame (frame_setOnline p _ _)
  have apart : c ≠ chair := fun same => free q other (same ▸ at_)
  rw [AList.lookup_insert_ne apart]
  exact at_

/-- `player_sit_down` and what follows, for a player who is at no table. -/
theorem Boarded.sitDown (h : Kept C s) (un : Unseated s p) {tableId : TableId} {chair : Nat}
    {t : Table} (there : s.tables me tableId = some t) (free : t.players.lookup chair = none) :
    Boarded C s ((s.sitDown me tableId t p chair).enterTable C me tableId p) p me := by
  have game : C.firstGameType me ≠ 1 := by
    intro lobby
    rw [h.tables.lobby me tableId lobby] at there
    cases there
  have nobody : ∀ q ≠ p, t.players.lookup chair ≠ some q := by
    intro q _ sits
    rw [free] at sits
    cases sits
  have rest := ((h.rest p).sitDown there nobody).frame (frame_enterTable C p _ me tableId)
  have online : ((s.sitDown me tableId t p chair).enterTable C me tableId p).online p =
      { s.online p with
        table := some tableId
        chair := some chair
        firstGameType := some (C.firstGameType me)
        secondGameType := some (C.secondGameType me)
        server := some me
        globalTable := some tableId } := by
    simp [System.enterTable, System.playerEnterRoom, System.arrive, System.setOnline,
      System.sitDown, System.setSession, System.setTable]
  have session : ((s.sitDown me tableId t p chair).enterTable C me tableId p).sessions me p =
      { s.sessions me p with tableId := some tableId, chairId := some chair, active := true } :=
    sessions_setSession_self s me p fun q =>
      { q with tableId := some tableId, chairId := some chair, active := true }
  refine ⟨rfl, rfl, rest, .seated ⟨by rw [online], by rw [online]⟩ game ⟨by rw [online],
    by rw [online], by rw [online], by rw [session], by rw [session], fun g' ne => ?_, ?_⟩, game⟩
  · have kept := sessions_setSession_of_ne_server s p p ne fun q =>
      { q with tableId := some tableId, chairId := some chair, active := true }
    exact (congrArg PlayerSession.tableId kept).trans (un g')
  · exact ⟨_, tables_setTable_self .., AList.lookup_insert _⟩

theorem joinPrivateTable_spec (h : Kept C s) (un : Unseated s p) {tableId : TableId}
    {reply : Reply Unit} (eq : s.joinPrivateTable C me p tableId env = (s', reply)) :
    (reply = .done () ∧ Boarded C s s' p me) ∨ (reply ≠ .done () ∧ s' = s) := by
  rw [System.joinPrivateTable] at eq
  split at eq
  · cases eq
    exact .inr ⟨by simp, rfl⟩
  · split at eq
    · cases eq
      exact .inr ⟨by simp, rfl⟩
    · cases eq
      exact .inr ⟨by simp, rfl⟩
    · split at eq
      · rename_i sat
        cases eq
        cases playerSitDown_spec sat with
        | inl down =>
            obtain ⟨_, t, there, free, eq⟩ := down
            rw [eq]
            exact .inl ⟨rfl, .sitDown h un there free⟩
        | inr refused => exact absurd rfl refused.1
      · rename_i not_done
        cases playerSitDown_spec eq with
        | inl down =>
            rw [down.1] at eq
            exact absurd eq (not_done s' ())
        | inr refused => exact .inr refused

/-! ### A new table -/

/-- Among the numbers drawn there is one without a table. -/
def DrawsFree (s : System) (env : Env) : Prop := ∃ id ∈ env.draws.take 10000, id ∉ s.tableAll

/-- So it is when a number is drawn. -/
def Draws (s : System) (me : ServerId) (p : Guid) (env : Env) : Prop :=
  s.hasSeat me p = false → env.lessRoomCard = false → DrawsFree s env

theorem drawTableId_notMem (free : DrawsFree s env) : s.drawTableId env ∉ s.tableAll := by
  obtain ⟨id, drawn, unused⟩ := free
  have found : ((env.draws.take 10000).find? fun id => id ∉ s.tableAll).isSome :=
    List.find?_isSome.2 ⟨id, drawn, by simpa using unused⟩
  obtain ⟨first, eq⟩ := Option.isSome_iff_exists.1 found
  have unused := List.find?_some eq
  show ((env.draws.take 10000).find? fun id => id ∉ s.tableAll).getD _ ∉ s.tableAll
  rw [eq]
  simpa using unused

theorem Tables.eq_none (h : Tables C s) {tableId : TableId} (unused : tableId ∉ s.tableAll)
    (g : ServerId) : s.tables g tableId = none := by
  rw [← Option.isNone_iff_eq_none, ← Option.not_isSome, Bool.not_eq_true', ← Bool.not_eq_true]
  exact fun there => unused (h.listed g tableId there)

theorem tables_newTable (s : System) (me : ServerId) (tableId : TableId) (chairCount : Nat) :
    (s.newTable me tableId chairCount).tables =
      (s.setTable me tableId (some ⟨chairCount, ∅⟩)).tables :=
  rfl

theorem Kept.newTable (h : Kept C s) (game : C.firstGameType me ≠ 1) {tableId : TableId}
    (unused : tableId ∉ s.tableAll) (chairCount : Nat) :
    Kept C (s.newTable me tableId chairCount) := by
  have none_there := h.tables.eq_none unused
  have cases_ : ∀ g id, ((s.newTable me tableId chairCount).tables g id).isSome →
      (g = me ∧ id = tableId) ∨ (s.tables g id).isSome := by
    intro g id at_
    by_cases same : g = me ∧ id = tableId
    · exact .inl same
    · rw [tables_newTable, tables_setTable_of_ne s _ (not_and_or.1 same)] at at_
      exact .inr at_
  have stays : ∀ g id t, s.tables g id = some t →
      (s.newTable me tableId chairCount).tables g id = some t := by
    intro g id t at_
    have other : id ≠ tableId := by
      intro same
      rw [same, none_there g] at at_
      cases at_
    rw [tables_newTable, tables_setTable_of_ne s _ (.inr other)]
    exact at_
  refine ⟨h.counted, fun q => ?_, ⟨fun g id lobby => ?_, fun g id at_ => ?_, fun g g' id at_ at' => ?_,
    fun id info at_ => ?_⟩⟩
  · have alike : Alike q s (s.newTable me tableId chairCount) :=
      .of_eq rfl (fun _ => ⟨rfl, rfl⟩) fun g id _ t there sits => ⟨t, stays g id t there, sits⟩
    exact alike.place (h.place q)
  · have other : g ≠ me := by
      intro same
      rw [same] at lobby
      exact game lobby
    rw [tables_newTable, tables_setTable_of_ne s _ (.inl other)]
    exact h.tables.lobby g id lobby
  · cases cases_ g id at_ with
    | inl same => exact Finset.mem_insert.2 (.inl same.2)
    | inr before => exact Finset.mem_insert_of_mem (h.tables.listed g id before)
  · cases cases_ g id at_ with
    | inl same =>
        cases cases_ g' id at' with
        | inl same' => rw [same.1, same'.1]
        | inr before =>
            rw [same.2, none_there] at before
            cases before
    | inr before =>
        cases cases_ g' id at' with
        | inl same =>
            rw [same.2, none_there] at before
            cases before
        | inr before' => exact h.tables.once g g' id before before'
  · obtain ⟨t, there⟩ := Option.isSome_iff_exists.1 (h.tables.info id info at_)
    rw [stays _ id t there]
    rfl

/-- A table that nobody could sit down at is taken back. -/
theorem newTable_undo (h : Tables C s) {tableId : TableId} (unused : tableId ∉ s.tableAll)
    (chairCount : Nat) :
    { (s.newTable me tableId chairCount).setTable me tableId none with
      tableAll := (s.newTable me tableId chairCount).tableAll.erase tableId } = s := by
  have tables : ((s.newTable me tableId chairCount).setTable me tableId none).tables = s.tables := by
    funext g id
    by_cases same : g = me ∧ id = tableId
    · rw [same.1, same.2, tables_setTable_self, h.eq_none unused]
    · rw [tables_setTable_of_ne _ _ (not_and_or.1 same), tables_newTable,
        tables_setTable_of_ne s _ (not_and_or.1 same)]
  have all : (s.newTable me tableId chairCount).tableAll.erase tableId = s.tableAll :=
    Finset.erase_insert unused
  show { s with
    tables := ((s.newTable me tableId chairCount).setTable me tableId none).tables
    tableAll := (s.newTable me tableId chairCount).tableAll.erase tableId } = s
  rw [all, tables]

theorem createPrivateTable_spec (h : Kept C s) (un : Unseated s p)
    (game : C.firstGameType me ≠ 1) (draws : Draws s me p env) {chairCount : Nat} {rule : Rule}
    {reply : Reply TableId} (eq : s.createPrivateTable C me p chairCount rule env = (s', reply)) :
    (∃ tableId, reply = .done tableId ∧ Boarded C s s' p me) ∨
      ((∀ tableId, reply ≠ .done tableId) ∧ Kept C s' ∧ s'.serverOf = s.serverOf) := by
  rw [System.createPrivateTable] at eq
  split at eq
  · cases eq
    exact .inr ⟨by simp, h, rfl⟩
  · rename_i no_seat
    split at eq
    · cases eq
      exact .inr ⟨by simp, h, rfl⟩
    · rename_i pays
      have unused := drawTableId_notMem
        (draws (Bool.eq_false_iff.2 no_seat) (Bool.eq_false_iff.2 pays))
      have made := h.newTable game unused chairCount
      dsimp only at eq
      split at eq
      · cases eq
        exact .inr ⟨by simp, made, rfl⟩
      · split at eq
        · rename_i sat
          cases eq
          cases playerSitDown_spec sat with
          | inl down =>
              obtain ⟨_, t, there, empty, eq⟩ := down
              rw [eq]
              have boarded := Boarded.sitDown made un there empty
              have all : Boarded C s (((s.newTable me (s.drawTableId env) chairCount).sitDown me
                  (s.drawTableId env) t p 1).enterTable C me (s.drawTableId env) p) p me :=
                ⟨boarded.counters, boarded.queue, boarded.rest, boarded.place, game⟩
              refine .inl ⟨_, rfl, all.setPrivateTable fun id info at_ => ?_⟩
              by_cases same : id = s.drawTableId env
              · rw [same, Function.update_self] at at_
                rw [same, ← Option.some.inj at_]
                exact Option.isSome_iff_exists.2 ⟨_, tables_setTable_self ..⟩
              · rw [Function.update_of_ne same] at at_
                exact all.rest.tables.info id info at_
          | inr refused => exact absurd rfl refused.1
        · rename_i sat
          cases eq
          cases playerSitDown_spec sat with
          | inl down => cases down.1
          | inr refused =>
              rw [refused.2, newTable_undo h.tables unused]
              exact .inr ⟨by simp, h, rfl⟩
        · rename_i sat
          cases eq
          cases playerSitDown_spec sat with
          | inl down => cases down.1
          | inr refused =>
              rw [refused.2]
              exact .inr ⟨by simp, made, rfl⟩

/-! ### Where an error comes from -/

theorem playerSitDown_raised {tableId : TableId} {chair : Nat}
    (eq : s.playerSitDown me tableId p chair false env = (s', .raised)) :
    env.tableCheck tableId = .raised := by
  rw [System.playerSitDown] at eq
  split at eq
  · cases eq
  · split at eq
    · cases eq
    · rename_i reply _
      have raised := (Prod.mk.inj eq).2
      rw [Table.canSitDown, if_neg (by simp)] at raised
      split at raised
      · cases raised
      · exact raised

theorem createPrivateTable_raised {chairCount : Nat} {rule : Rule}
    (eq : s.createPrivateTable C me p chairCount rule env = (s', .raised)) :
    s.hasSeat me p = false ∧ env.lessRoomCard = false ∧
      (env.privateInit = false ∨ env.tableCheck (s.drawTableId env) = .raised) := by
  rw [System.createPrivateTable] at eq
  split at eq
  · cases eq
  · rename_i no_seat
    split at eq
    · cases eq
    · rename_i pays
      refine ⟨by simpa using no_seat, by simpa using pays, ?_⟩
      dsimp only at eq
      split at eq
      · rename_i init
        exact .inl (by simpa using init)
      · split at eq
        · cases eq
        · cases eq
        · rename_i sat
          exact .inr (playerSitDown_raised sat)

theorem joinPrivateTable_raised {tableId : TableId}
    (eq : s.joinPrivateTable C me p tableId env = (s', .raised)) :
    s.hasSeat me p = false ∧
      (∃ t chair, s.tables me tableId = some t ∧ t.getFreeChairId = some chair) ∧
        env.tableCheck tableId = .raised := by
  rw [System.joinPrivateTable] at eq
  split at eq
  · cases eq
  · rename_i no_seat
    split at eq
    · cases eq
    · cases eq
    · rename_i chair found
      split at eq
      · cases eq
      · obtain ⟨t, there, free⟩ := Option.map_eq_some_iff.1 found
        exact ⟨Bool.eq_false_iff.2 no_seat, ⟨t, chair, there, free⟩, playerSitDown_raised eq⟩

/-! ### The requests of the lobby -/

/-- What follows on the chair: it is taken, or all is as it should be without. -/
def Served (C : Cluster) (s s' : System) (p : Guid) (me : ServerId) {α : Type} : Reply α → Prop
  | .done _ => Boarded C s s' p me
  | _ => Kept C s'

theorem Served.enterFrom {α : Type} {reply : Reply α} (h : Served C s s' p me reply)
    (kept : Kept C s) (here : s.serverOf p = some g) (lobby : C.firstGameType g = 1) :
    Kept C (match reply with
      | .done _ => s'.enterFrom C me p (some g)
      | _ => s') := by
  cases reply with
  | done _ => exact Boarded.enterFrom h kept here lobby
  | raised => exact h
  | refused _ => exact h

theorem Kept.lobby_of_noTable (h : Kept C s) (here : s.serverOf p = some me)
    (noTable : (s.online p).table = none) : C.firstGameType me = 1 ∧ Unseated s p := by
  cases h.lobby_or_table here with
  | inl in_lobby => exact ⟨in_lobby.1, in_lobby.2.2.2.unseated⟩
  | inr at_table =>
      obtain ⟨_, _, tableId, chair, table⟩ := at_table
      rw [table.onTable] at noTable
      cases noTable

theorem createPrivateTable_served (h : Kept C s) (un : Unseated s p)
    (game : C.firstGameType me ≠ 1) (draws : Draws s me p env) {chairCount : Nat} {rule : Rule}
    {reply : Reply TableId} (eq : s.createPrivateTable C me p chairCount rule env = (s', reply)) :
    Served C s s' p me reply := by
  cases createPrivateTable_spec h un game draws eq with
  | inl done =>
      obtain ⟨tableId, eq, boarded⟩ := done
      rw [eq]
      exact boarded
  | inr not_done =>
      cases reply with
      | done tableId => exact absurd rfl (not_done.1 tableId)
      | raised => exact not_done.2.1
      | refused _ => exact not_done.2.1

theorem joinPrivateTable_served (h : Kept C s) (un : Unseated s p) {tableId : TableId}
    {reply : Reply Unit} (eq : s.joinPrivateTable C me p tableId env = (s', reply)) :
    Served C s s' p me reply := by
  cases joinPrivateTable_spec h un eq with
  | inl done =>
      rw [done.1]
      exact done.2
  | inr not_done =>
      rw [not_done.2]
      cases reply with
      | done _ => exact absurd rfl not_done.1
      | raised => exact h
      | refused _ => exact h

/-- With a template there is no error once the player sits. -/
theorem clubCreateTable_served (h : Kept C s) (un : Unseated s p)
    (game : C.firstGameType me ≠ 1) (draws : Draws s me p env) {chairCount : Nat} {rule : Rule}
    {clubId : ClubId} {reply : Reply TableId}
    (eq : s.clubCreateTable C me p chairCount rule true clubId env = (s', reply)) :
    Served C s s' p me reply := by
  rw [System.clubCreateTable] at eq
  split at eq
  · rename_i s₁ tableId made
    cases eq
    exact (createPrivateTable_served h un game draws made).setTableClub tableId clubId
  · exact createPrivateTable_served h un game draws eq

/-- In the lock of the club the table is created without an error, or one comes up only after
the player sits. -/
def ClubCreates (s : System) (me : ServerId) (p : Guid) (type : ClubType) (rule : Rule)
    (env : Env) : Prop :=
  clubCanSitDown type rule env.standing ≠ .raised ∧
    (clubCanSitDown type rule env.standing = .done () → Draws s me p env ∧
      (s.hasSeat me p = false → env.lessRoomCard = false →
        env.privateInit = true ∧ env.tableCheck (s.drawTableId env) ≠ .raised))

/-- A table is joined without an error in the lock. -/
def ClubJoins (s : System) (me : ServerId) (p : Guid) (tableId : TableId) (type : ClubType)
    (rule : Rule) (env : Env) : Prop :=
  clubCanSitDown type rule env.standing ≠ .raised ∧
    (clubCanSitDown type rule env.standing = .done () →
      env.isBlockGamingWithOthers tableId = false → s.hasSeat me p = false →
        (∃ t chair, s.tables me tableId = some t ∧ t.getFreeChairId = some chair) →
          env.tableCheck tableId ≠ .raised)

/-- What an order of a room may not meet with, by who pays. -/
def OrderWell (s : System) (me : ServerId) (p : Guid) (order : Order) (env : Env) :
    PayOption → Prop
  | .boss => ∀ clubId type, order.club = some (clubId, type) →
      ClubCreates s me p type order.rule env
  | .aa | .roomOwner => Draws s me p env
  | .other => True

theorem orderTable_served (h : Kept C s) (un : Unseated s p) (game : C.firstGameType me ≠ 1)
    {order : Order} {chairCount : Nat} {pay : PayOption} (well : OrderWell s me p order env pay)
    {reply : Reply TableId} (eq : s.orderTable C me p order chairCount env pay = (s', reply)) :
    Served C s s' p me reply := by
  cases pay with
  | aa => exact createPrivateTable_served h un game well eq
  | roomOwner => exact createPrivateTable_served h un game well eq
  | other =>
      cases eq
      exact h
  | boss =>
      rw [System.orderTable] at eq
      split at eq
      · cases eq
        exact h
      · rename_i clubId type order_club
        have creates := well clubId type order_club
        split at eq
        · rename_i allowed
          obtain ⟨draws, checks⟩ := creates.2 allowed
          rw [System.clubCreateTable] at eq
          split at eq
          · rename_i s₁ tableId made
            have boarded : Boarded C s (s₁.setTableClub tableId clubId) p me :=
              Boarded.setTableClub (createPrivateTable_served h un game draws made) tableId clubId
            cases with_template : order.template with
            | true =>
                rw [with_template] at eq
                cases eq
                exact boarded
            | false =>
                rw [with_template] at eq
                cases eq
                exact boarded
          · rename_i not_done
            cases made : s.createPrivateTable C me p chairCount order.rule env with
            | mk s₁ made_reply =>
                rw [made] at eq
                cases made_reply with
                | raised =>
                    have source := createPrivateTable_raised made
                    have fine := checks source.1 source.2.1
                    cases source.2.2 with
                    | inl init =>
                        rw [fine.1] at init
                        cases init
                    | inr check => exact absurd check fine.2
                | refused code =>
                    cases eq
                    exact createPrivateTable_served h un game draws made
                | done tableId => exact absurd made (not_done s₁ tableId)
        · cases eq
          exact h
        · rename_i raised
          exact absurd raised creates.1

theorem check_done {rule : Rule} {conf : Option PrivateConf} {chairCount : Nat} {pay : PayOption}
    (h : rule.check conf = .done (chairCount, pay)) : conf ≠ none := by
  intro none
  rw [none] at h
  cases h

theorem game_of_privateConf (h : C.privateConf me ≠ none) : C.firstGameType me ≠ 1 :=
  fun lobby => h (C.lobbyConf me lobby)

theorem Kept.createRoomHere (h : Kept C s) (here : s.serverOf p = some g)
    (noTable : (s.online p).table = none) {order : Order}
    (well : env.gameMaintain = false → ∀ chairCount pay,
      order.rule.check (C.privateConf me) = .done (chairCount, pay) →
        OrderWell s me p order env pay)
    {gameId : Option ServerId} (comes : gameId = some g ∨ C.firstGameType me = 1) :
    Kept C (s.createRoomHere C me p order gameId env) := by
  have lobby := h.lobby_of_noTable here noTable
  rw [System.createRoomHere]
  split
  · exact h
  · rename_i open_
    split
    · rename_i chairCount pay checked
      have game := game_of_privateConf (check_done checked)
      have came := comes.resolve_right game
      have served : ∀ s' reply, s.orderTable C me p order chairCount env pay = (s', reply) →
          Served C s s' p me reply :=
        fun _ _ eq => orderTable_served h lobby.2 game
          (well (Bool.eq_false_iff.2 open_) chairCount pay checked) eq
      split
      · rename_i s' tableId made
        rw [came]
        exact (served s' (.done tableId) made).enterFrom h here lobby.1
      · rename_i s' reply not_done made
        have kept := served s' reply made
        cases reply with
        | done tableId => exact absurd rfl (not_done tableId)
        | raised => exact kept
        | refused _ => exact kept
    · exact h

/-- The server that handles a `CS_CreateRoom` in the end. -/
def CreatesAt (C : Cluster) (s : System) (me : ServerId) (p : Guid) (order : Order) (env : Env)
    (room : ServerId) : Prop :=
  if C.firstGameType me = order.gameType then room = me
  else s.findBestRoom C order.gameType = some room ∧ s.createRoomRefused room p env = false

/-- What a `CS_CreateRoom` may not meet with: ten thousand numbers in use, or an error in the lock
of the club before the player sits. -/
def CreatesWell (C : Cluster) (s : System) (me : ServerId) (p : Guid) (msg : CreateRoom)
    (env : Env) : Prop :=
  s.createRoomRefused me p env = false → env.gameMaintain = false →
    ∀ order room chairCount pay, msg.order C = some order → CreatesAt C s me p order env room →
      order.rule.check (C.privateConf room) = .done (chairCount, pay) →
        OrderWell s room p order env pay

theorem Kept.onCsCreatePrivateRoom (h : Kept C s) (here : s.serverOf p = some me)
    {msg : CreateRoom} (well : CreatesWell C s me p msg env) :
    Kept C (s.onCsCreatePrivateRoom C me p msg env) := by
  rw [System.onCsCreatePrivateRoom]
  split
  · exact h
  · rename_i allowed
    have noTable : (s.online p).table = none := by
      cases table : (s.online p).table with
      | none => rfl
      | some tableId => simp [System.createRoomRefused, table] at allowed
    split
    · exact h
    · rename_i order ordered
      have orders := fun room at_ open_ chairCount pay =>
        well (Bool.eq_false_iff.2 allowed) open_ order room chairCount pay ordered at_
      split
      · rename_i own
        exact h.createRoomHere here noTable (orders me (by rw [CreatesAt, if_pos own]))
          (.inr (h.lobby_of_noTable here noTable).1)
      · rename_i away
        split
        · exact h
        · rename_i room found
          split
          · exact h
          · rename_i again
            refine h.createRoomHere here noTable (orders room ?_) (.inl rfl)
            rw [CreatesAt, if_neg away]
            exact ⟨found, Bool.eq_false_iff.2 again⟩

theorem clubJoinTable_served (h : Kept C s) (un : Unseated s p) {tableId : TableId} {rule : Rule}
    {type : ClubType} {reply : Reply Unit}
    (eq : s.clubJoinTable C me p tableId rule type env = (s', reply)) :
    Served C s s' p me reply := by
  rw [System.clubJoinTable] at eq
  cases allowed : clubCanSitDown type rule env.standing with
  | done _ =>
      simp only [allowed] at eq
      split at eq
      · cases eq
        exact h
      · split at eq
        · cases eq
          exact h
        · exact joinPrivateTable_served h un eq
  | raised =>
      simp only [allowed] at eq
      cases eq
      exact h
  | refused code =>
      simp only [allowed] at eq
      cases eq
      exact h

theorem clubJoinTable_raised {tableId : TableId} {rule : Rule} {type : ClubType}
    (joins : ClubJoins s me p tableId type rule env) :
    s.clubJoinTable C me p tableId rule type env ≠ (s', .raised) := by
  intro eq
  rw [System.clubJoinTable] at eq
  split at eq
  · rename_i allowed
    split at eq
    · cases eq
    · split at eq
      · cases eq
      · rename_i apart
        have source := joinPrivateTable_raised eq
        exact joins.2 allowed (Bool.eq_false_iff.2 apart) source.1 source.2.1 source.2.2
  · have raised := (Prod.mk.inj eq).2
    exact joins.1 raised

theorem takeTable_served (h : Kept C s) (un : Unseated s p) {tableId : TableId}
    {info : PrivateTable} {pay : PayOption} (club : ∀ type, info.clubId.bind C.club = some type →
      pay = .boss → ClubJoins s me p tableId type info.rule env) {reply : Reply Unit}
    (eq : s.takeTable C me p tableId info env pay = (s', reply)) : Served C s s' p me reply := by
  cases pay with
  | aa => exact joinPrivateTable_served h un eq
  | roomOwner => exact joinPrivateTable_served h un eq
  | other =>
      cases eq
      exact h
  | boss =>
      rw [System.takeTable] at eq
      split at eq
      · cases eq
        exact h
      · rename_i type info_club
        cases joined : s.clubJoinTable C me p tableId info.rule type env with
        | mk s₁ joined_reply =>
            rw [joined] at eq
            cases joined_reply with
            | raised => exact absurd joined (clubJoinTable_raised (club type info_club rfl))
            | done _ =>
                cases eq
                exact clubJoinTable_served h un joined
            | refused code =>
                cases eq
                exact clubJoinTable_served h un joined

/-- What a table of a club may not meet with when it is joined, once the request is let in. -/
def TableWell (C : Cluster) (s : System) (me : ServerId) (p : Guid) (tableId : TableId)
    (info : PrivateTable) (env : Env) : Prop :=
  ∀ type chairCount, info.clubId.bind C.club = some type →
    (s.online p).table = none → (s.online p).chair = none →
      (env.globalMaintain && !env.vip) = false → env.gameMaintain = false →
        info.rule.check (C.privateConf me) = .done (chairCount, .boss) →
          ClubJoins s me p tableId type info.rule env

theorem Kept.joinRoomHere (h : Kept C s) (here : s.serverOf p = some g) {tableId : TableId}
    {info : PrivateTable} (well : TableWell C s me p tableId info env)
    {gameId : Option ServerId} (comes : gameId = some g ∨ C.firstGameType me = 1) :
    Kept C (s.joinRoomHere C me p tableId info gameId env) := by
  rw [System.joinRoomHere]
  split
  · exact h
  · rename_i allowed
    have noTable : (s.online p).table = none := by
      cases table : (s.online p).table with
      | none => rfl
      | some id => simp [table] at allowed
    have noChair : (s.online p).chair = none := by
      cases chair : (s.online p).chair with
      | none => rfl
      | some id => simp [chair] at allowed
    have lobby := h.lobby_of_noTable here noTable
    split
    · exact h
    · rename_i open_
      simp only [Bool.or_eq_true, not_or] at open_
      split
      · rename_i chairCount pay checked
        have came := comes.resolve_right (game_of_privateConf (check_done checked))
        have served : ∀ s' reply, s.takeTable C me p tableId info env pay = (s', reply) →
            Served C s s' p me reply :=
          fun _ _ eq => takeTable_served h lobby.2 (fun type info_club boss =>
            well type chairCount info_club noTable noChair (Bool.eq_false_iff.2 open_.1)
              (Bool.eq_false_iff.2 open_.2) (boss ▸ checked)) eq
        split
        · rename_i s' _ made
          rw [came]
          exact (served s' (.done ()) made).enterFrom h here lobby.1
        · rename_i s' reply not_done made
          have kept := served s' reply made
          cases reply with
          | done _ => exact absurd rfl (not_done ())
          | raised => exact kept
          | refused _ => exact kept
      · exact h

/-- The table a `CS_JoinRoom` is for. -/
def JoinRoom.target (msg : JoinRoom) (s : System) (p : Guid) : Option TableId :=
  if msg.reconnect then (s.online p).globalTable else some msg.tableId

def JoinsWell (C : Cluster) (s : System) (p : Guid) (msg : JoinRoom) (env : Env) : Prop :=
  ∀ tableId info, msg.target s p = some tableId → s.privateTable tableId = some info →
    TableWell C s info.roomId p tableId info env

theorem Kept.onCsJoinPrivateRoom (h : Kept C s) (here : s.serverOf p = some me) {msg : JoinRoom}
    (well : JoinsWell C s p msg env) : Kept C (s.onCsJoinPrivateRoom C me p msg env) := by
  rw [System.onCsJoinPrivateRoom]
  split
  · exact h
  · rename_i tableId target
    split
    · exact h
    · rename_i info at_
      have fine := well tableId info target at_
      by_cases same : me = info.roomId
      · by_cases lobby : C.firstGameType me = 1
        · exact h.joinRoomHere here fine (.inr (same ▸ lobby))
        · rw [System.joinRoomHere]
          split
          · exact h
          · rename_i allowed
            refine absurd (h.lobby_of_noTable here ?_).1 lobby
            cases table : (s.online p).table with
            | none => rfl
            | some id => simp [table] at allowed
      · rw [if_neg same]
        exact h.joinRoomHere here fine (.inl rfl)

/-- A reconnect puts the player on the chair it has. -/
theorem Kept.sitDownAgain (h : Kept C s) (here : s.serverOf p = some me)
    (reg : Registered C s p me) (game : C.firstGameType me ≠ 1) {tableId : TableId} {chair : Nat}
    {t : Table} (table : AtTable s p me tableId chair) (there : s.tables me tableId = some t)
    (sits : t.players.lookup chair = some p) : Kept C (s.sitDown me tableId t p chair) := by
  have mine : ∀ q ≠ p, t.players.lookup chair ≠ some q := by
    intro q other at_
    rw [sits] at at_
    exact other (Option.some.inj at_).symm
  have online : (s.sitDown me tableId t p chair).online p =
      { s.online p with table := some tableId, chair := some chair } :=
    Function.update_self ..
  have session : (s.sitDown me tableId t p chair).sessions me p =
      { s.sessions me p with tableId := some tableId, chairId := some chair, active := true } :=
    sessions_setSession_self s me p fun q =>
      { q with tableId := some tableId, chairId := some chair, active := true }
  refine ((h.rest p).sitDown there mine).kept h.counted ?_
  rw [show (s.sitDown me tableId t p chair).serverOf p = some me from here]
  refine .seated ⟨by rw [online]; exact reg.server, by rw [online]; exact reg.firstGameType⟩ game
    ⟨by rw [online], by rw [online], by rw [online]; exact table.globalTable, by rw [session],
      by rw [session], fun g' ne => ?_, _, tables_setTable_self .., AList.lookup_insert _⟩
  have kept := sessions_setSession_of_ne_server s p p ne fun q =>
    { q with tableId := some tableId, chairId := some chair, active := true }
  exact (congrArg PlayerSession.tableId kept).trans (table.elsewhere g' ne)

theorem Kept.onCsReconnectJoinRoom (h : Kept C s) (here : s.serverOf p = some me) (env : Env) :
    Kept C (s.onCsReconnectJoinRoom p env) := by
  rw [System.onCsReconnectJoinRoom]
  cases h.lobby_or_table here with
  | inl in_lobby =>
      rw [in_lobby.2.2.2.noTable]
      exact h
  | inr at_table =>
      obtain ⟨game, reg, tableId, chair, table⟩ := at_table
      obtain ⟨t, there, sits⟩ := table.sits
      rw [table.onTable, table.onChair, table.globalTable]
      simp only [Option.bind_some]
      split
      · exact h
      · rename_i info at_
        have room : info.roomId = me := h.tables.once _ _ tableId (h.tables.info tableId info at_)
          (by rw [there]; rfl)
        rw [room, System.reconnectHere]
        -- the player takes the chair it already has
        have again : s.playerSitDown me tableId p chair true env =
            (s.sitDown me tableId t p chair, .done ()) := by
          rw [System.playerSitDown]
          simp [there, Table.canSitDown, sits]
        rw [again]
        exact (h.sitDownAgain here reg game table there sits).setSession me p _ rfl rfl

/-! ### A fast join -/

/-- The player gets a chair at the table, or nothing happens. -/
theorem Kept.fastJoinTable (h : Kept C s) (here : s.serverOf p = some g)
    (lobby : C.firstGameType g = 1) (un : Unseated s p) {type : ClubType} {tableId : TableId}
    {reply : Reply Unit} (eq : s.fastJoinTable C me p type g env tableId = some (s', reply)) :
    Kept C s' ∧ (reply ≠ .done () → s' = s) := by
  have nothing : ∀ {r : Reply Unit}, some (s, r) = some (s', reply) →
      Kept C s' ∧ (reply ≠ .done () → s' = s) := by
    intro r same
    cases same
    exact ⟨h, fun _ => rfl⟩
  unfold System.fastJoinTable at eq
  split at eq
  · split at eq
    · exact nothing eq
    · cases eq
    · split at eq
      · cases eq
      · split at eq
        · cases eq
        · split at eq
          · exact nothing eq
          · cases eq
          · split at eq
            · exact nothing eq
            · split at eq
              · rename_i sat
                cases eq
                cases playerSitDown_spec sat with
                | inl down =>
                    obtain ⟨_, t, there, free, eq⟩ := down
                    rw [eq]
                    exact ⟨(Boarded.sitDown h un there free).enterFrom h here lobby,
                      fun not_done => absurd rfl not_done⟩
                | inr refused => exact absurd rfl refused.1
              · rename_i not_done
                have sat := Option.some.inj eq
                cases playerSitDown_spec sat with
                | inl down =>
                    rw [down.1] at sat
                    exact absurd sat (not_done s' ())
                | inr refused =>
                    rw [refused.2]
                    exact ⟨h, fun _ => rfl⟩
  · cases eq

theorem Kept.onSsFastJoinRoom (h : Kept C s) (here : s.serverOf p = some g)
    (lobby : C.firstGameType g = 1) (un : Unseated s p) {type : ClubType} {reply : Reply Unit}
    (eq : s.onSsFastJoinRoom C me p type g env = (s', reply)) :
    Kept C s' ∧ (reply ≠ .done () → s' = s) := by
  rw [System.onSsFastJoinRoom] at eq
  split at eq
  · cases eq
    exact ⟨h, fun _ => rfl⟩
  · cases found : (env.freeTables me).findSome? (s.fastJoinTable C me p type g env) with
    | none =>
        rw [found] at eq
        cases eq
        exact ⟨h, fun _ => rfl⟩
    | some out =>
        rw [found] at eq
        obtain ⟨tableId, _, joined⟩ := List.exists_of_findSome?_eq_some found
        exact h.fastJoinTable here lobby un (joined.trans (congrArg some eq))

theorem Kept.onSsFastCreateRoom (h : Kept C s) (here : s.serverOf p = some g)
    (lobby : C.firstGameType g = 1) (un : Unseated s p) {clubId : ClubId} {type : ClubType}
    {rule : Rule} (draws : env.gameMaintain = false →
      clubCanSitDown type rule env.standing = .done () → Draws s me p env) :
    Kept C (s.onSsFastCreateRoom C me p clubId type rule g env) := by
  rw [System.onSsFastCreateRoom]
  split
  · exact h
  · rename_i open_
    split
    · rename_i allowed checked
      split
      · exact h
      · have game := game_of_privateConf (check_done checked)
        have drawn := draws (Bool.eq_false_iff.2 open_) allowed
        split
        · rename_i s' tableId made
          exact (clubCreateTable_served h un game drawn made).enterFrom h here lobby
        · rename_i s' reply not_done made
          have served := clubCreateTable_served h un game drawn made
          cases reply with
          | done tableId => exact absurd rfl (not_done tableId)
          | raised => exact served
          | refused _ => exact served
    · exact h

/-- The rooms in which no table is found. -/
def Refuses (C : Cluster) (s : System) (me : ServerId) (p : Guid) (type : ClubType) (env : Env)
    (room : ServerId) : Prop :=
  ∃ code, (s.onSsFastJoinRoom C room p type me env).2 = .refused code

theorem Kept.fastJoinRooms (h : Kept C s) (here : s.serverOf p = some g)
    (lobby : C.firstGameType g = 1) (un : Unseated s p) {clubId : ClubId} {type : ClubType}
    {rule : Rule} (rooms : List ServerId)
    (draws : (∀ room ∈ rooms, Refuses C s g p type env room) → ∀ room,
      env.rooms.getLast? = some room → env.gameMaintain = false →
        clubCanSitDown type rule env.standing = .done () → Draws s room p env) :
    Kept C (System.fastJoinRooms C g p clubId type rule env rooms s) := by
  induction rooms with
  | nil =>
      rw [System.fastJoinRooms]
      split
      · exact h
      · rename_i room last
        exact h.onSsFastCreateRoom here lobby un
          (draws (fun _ none => absurd none List.not_mem_nil) room last)
  | cons room rooms ih =>
      rw [System.fastJoinRooms]
      cases joined : s.onSsFastJoinRoom C room p type g env with
      | mk s' reply =>
          have served := h.onSsFastJoinRoom here lobby un joined
          cases reply with
          | raised => exact served.1
          | done _ => exact served.1
          | refused code =>
              rw [served.2 (by simp)]
              dsimp only
              split
              · exact h
              · refine ih fun rest => draws fun room' listed => ?_
                cases List.mem_cons.1 listed with
                | inl first => exact ⟨code, by rw [first, joined]⟩
                | inr later => exact rest room' later

/-- What a `CS_FastJoinRoom` may not meet with: no table to join, and ten thousand numbers in
use. -/
def FastJoinsWell (C : Cluster) (s : System) (me : ServerId) (p : Guid) (msg : FastJoinRoom)
    (env : Env) : Prop :=
  ∀ type template, C.club msg.clubId = some type → C.template msg.templateId = some template →
    (∀ room ∈ env.rooms, Refuses C s me p type env room) → ∀ room,
      env.rooms.getLast? = some room → env.gameMaintain = false →
        clubCanSitDown type template.rule env.standing = .done () → Draws s room p env

theorem Kept.onCsFastJoinRoom (h : Kept C s) (here : s.serverOf p = some me) {msg : FastJoinRoom}
    (well : FastJoinsWell C s me p msg env) : Kept C (s.onCsFastJoinRoom C me p msg env) := by
  rw [System.onCsFastJoinRoom]
  split
  · exact h
  · split
    · rename_i type template club at_
      split
      · exact h
      · split
        · exact h
        · rename_i allowed
          have noTable : (s.online p).table = none := by
            cases table : (s.online p).table with
            | none => rfl
            | some id => simp [table] at allowed
          have lobby := h.lobby_of_noTable here noTable
          exact h.fastJoinRooms here lobby.1 lobby.2 env.rooms (well type template club at_)
    · exact h

/-! ### Logging in -/

/-- A session of the queue for the same server. -/
theorem Kept.setQueue (h : Kept C s) (p : Guid) (x : Option QueueSession)
    (same : x.bind QueueSession.server = s.serverOf p) :
    Kept C { s with queue := Function.update s.queue p x } := by
  have serverOf : { s with queue := Function.update s.queue p x }.serverOf = s.serverOf := by
    rw [serverOf_update, same, Function.update_eq_self]
  have alike : Alike p s { s with queue := Function.update s.queue p x } :=
    .of_eq rfl (fun _ => ⟨rfl, rfl⟩) fun _ _ _ t there sits => ⟨t, there, sits⟩
  refine ((h.rest p).frame (frame_queue p s x)).kept ?_ ?_
  · rw [serverOf]
    exact h.counted
  · rw [serverOf]
    exact alike.place (h.place p)

/-- The gate of a player who is registered somewhere. -/
theorem Kept.setGate (h : Kept C s) (reg : Registered C s p g) (gate : Nat) :
    Kept C (s.setOnline p fun o => { o with gate := some gate }) := by
  have online : (s.setOnline p fun o => { o with gate := some gate }).online p =
      { s.online p with gate := some gate } :=
    Function.update_self ..
  have alike : Alike p s (s.setOnline p fun o => { o with gate := some gate }) := by
    refine ⟨fun empty => ?_, ?_, ?_, ?_, ?_, ?_, fun _ => rfl, fun _ => rfl,
      fun _ _ _ t there sits => ⟨t, there, sits⟩⟩
    · have server := reg.server
      rw [empty] at server
      cases server
    all_goals rw [online]
  exact ((h.rest p).frame (frame_setOnline p s _)).kept h.counted (alike.place (h.place p))

/-- `sadd` of a player who is counted already. -/
theorem Kept.saddOnlineAll (h : Kept C s) (here : s.serverOf p = some g) :
    Kept C { s with counters := s.counters.saddOnlineAll p } := by
  have same : s.counters.saddOnlineAll p = s.counters := by
    rw [Counters.saddOnlineAll, Finset.insert_eq_of_mem (h.counted.online here)]
  rw [same]
  exact h

theorem Kept.away (h : Kept C s) (here : s.serverOf p = none) :
    s.online p = .empty ∧ Unseated s p := by
  have place := h.place p
  rw [here] at place
  cases place with
  | away empty un => exact ⟨empty, un⟩

/-- `player_login_server` and what the queue and the login server write, for a player who is not
online. -/
theorem Kept.enter (h : Kept C s) (here : s.serverOf p = none) (gate : Nat) :
    Kept C { (s.playerLoginServer C (C.lobbyId p) p).setOnline p fun o =>
        { o with gate := some gate } with
      queue := Function.update s.queue p (some ⟨some gate, some (C.lobbyId p)⟩)
      counters := (s.counters.login C p (C.lobbyId p)).saddOnlineAll p } := by
  have away := h.away here
  have arrived : Frame p s ((s.activate (C.lobbyId p) p).arrive C (C.lobbyId p) p) :=
    (frame_setSession p s _ _).trans (frame_setOnline p _ _)
  have logged : Frame p s ((s.playerLoginServer C (C.lobbyId p) p).setOnline p fun o =>
      { o with gate := some gate }) :=
    (arrived.trans (frame_counters p _ _)).trans (frame_setOnline p _ _)
  have frame := logged.trans
    ((frame_queue p _ (some ⟨some gate, some (C.lobbyId p)⟩)).trans (frame_counters p _
      ((s.counters.login C p (C.lobbyId p)).saddOnlineAll p)))
  have online : ((s.playerLoginServer C (C.lobbyId p) p).setOnline p fun o =>
      { o with gate := some gate }).online p =
        ⟨some gate, some (C.firstGameType (C.lobbyId p)), some (C.secondGameType (C.lobbyId p)),
          some (C.lobbyId p), none, none, none⟩ := by
    simp [System.setOnline, System.playerLoginServer, System.arrive, System.activate,
      System.setSession, away.1, OnlineInfo.empty]
  refine ((h.rest p).frame frame).kept ?_ ?_
  · show Counted C ((s.counters.login C p (C.lobbyId p)).saddOnlineAll p) { s with
      queue := Function.update s.queue p (some ⟨some gate, some (C.lobbyId p)⟩) }.serverOf
    rw [serverOf_update]
    exact h.counted.login here (C.lobbyId p)
  · show Place C _ p ({ s with
      queue := Function.update s.queue p (some ⟨some gate, some (C.lobbyId p)⟩) }.serverOf p)
    rw [serverOf_update, Function.update_self]
    refine .lobby ⟨?_, ?_⟩ (lobbyId_lobby C p) rfl ?_ ?_ fun g' => ?_
    · exact congrArg OnlineInfo.server online
    · exact congrArg OnlineInfo.firstGameType online
    · exact congrArg OnlineInfo.table online
    · exact congrArg OnlineInfo.chair online
    · exact (tableId_activate s _ g' p).1.trans (away.2 g')

/-- A login at the lobby by a player who is not there yet. -/
theorem Kept.loginAway (h : Kept C s) (here : s.serverOf p = none) (gate : Nat) (env : Env) :
    Kept C (s.onClLogin C p gate env) := by
  have queued : (some ((s.queue p).getD ⟨none, none⟩)).bind QueueSession.server =
      s.serverOf p := by
    rw [here]
    cases session : s.queue p with
    | none => rfl
    | some q =>
        rw [System.serverOf, session] at here
        exact here
  rw [System.onClLogin, System.queueLogin, here]
  simp only [System.loginLobby]
  generalize some ((s.queue p).getD ⟨none, none⟩) = x at queued ⊢
  have queue := h.setQueue p x queued
  have out : { s with queue := Function.update s.queue p x }.serverOf p = none := by
    rw [serverOf_update, Function.update_self]
    exact queued.trans here
  generalize { s with queue := Function.update s.queue p x } = s₀ at queue out ⊢
  have empty := (queue.away out).1
  have flagged := queue.setSession (C.lobbyId p) p (fun q => { q with online := true }) rfl rfl
  simp only [System.onLsLoginNotify, empty, OnlineInfo.empty]
  cases closed : env.globalMaintain && !env.vip with
  | true => simpa using flagged
  | false =>
      simp only [Bool.false_or, reduceCtorEq, decide_false, Bool.false_eq_true, if_false]
      exact flagged.enter out gate

theorem queue_getD (here : s.serverOf p = some g) :
    (some ((s.queue p).getD ⟨none, none⟩)).bind QueueSession.server = s.serverOf p := by
  cases session : s.queue p with
  | none =>
      rw [System.serverOf, session] at here
      cases here
  | some q =>
      rw [System.serverOf, session]
      rfl

/-- A login of a player in the lobby: nothing is counted again. -/
theorem Kept.loginAgain (h : Kept C s) (here : s.serverOf p = some g) (home : C.lobbyId p = g)
    (reg : Registered C s p g) (noTable : (s.online p).table = none) (gate : Nat) (env : Env) :
    Kept C (s.onClLogin C p gate env) := by
  have mem : g ∈ C.allGameServer 1 := home ▸ lobbyId_mem C p
  rw [System.onClLogin, System.queueLogin, here]
  simp only [mem, if_true, System.loginLobby, home]
  have queued := queue_getD here
  generalize some ((s.queue p).getD ⟨none, none⟩) = x at queued ⊢
  have queue := (h.setQueue p x queued).setSession g p (fun q => { q with online := true }) rfl rfl
  have reg₀ : Registered C ({ s with queue := Function.update s.queue p x }.setSession g p
      fun q => { q with online := true }) p g := ⟨reg.server, reg.firstGameType⟩
  have out : ({ s with queue := Function.update s.queue p x }.setSession g p
      fun q => { q with online := true }).serverOf p = some g := by
    show { s with queue := Function.update s.queue p x }.serverOf p = some g
    rw [serverOf_update, Function.update_self]
    exact queued.trans here
  have gated := queue.setGate reg₀ gate
  have again := gated.setQueue p (some ⟨some gate, some g⟩) out.symm
  simp only [System.onLsLoginNotify, reg.server, noTable, decide_true, Bool.or_true, if_true]
  refine again.saddOnlineAll (g := g) ?_
  show (Function.update (Function.update s.queue p x) p (some ⟨some gate, some g⟩) p).bind
    QueueSession.server = some g
  rw [Function.update_self]
  rfl

/-- A login of a player at a table, which is there: the session gets the new gate. -/
theorem Kept.loginSeated (h : Kept C s) (here : s.serverOf p = some g)
    (game : C.firstGameType g ≠ 1) (reg : Registered C s p g) {tableId : TableId} {chair : Nat}
    (table : AtTable s p g tableId chair) (gate : Nat) (env : Env) :
    Kept C (s.onClLogin C p gate env) := by
  obtain ⟨t, there, _⟩ := table.sits
  have mem : g ∉ C.allGameServer 1 := fun mem => game (firstGameType_of_mem mem)
  have queued := h.setQueue p (some ⟨some gate, some g⟩) here.symm
  have reg₀ : Registered C { s with
    queue := Function.update s.queue p (some ⟨some gate, some g⟩) } p g :=
    ⟨reg.server, reg.firstGameType⟩
  have gated := (queued.setGate reg₀ gate).setSession g p (fun q => { q with online := true }) rfl rfl
  have online : ((({ s with queue := Function.update s.queue p (some ⟨some gate, some g⟩) } :
      System).setOnline p fun o => { o with gate := some gate }).online p).table = some tableId := by
    rw [← table.onTable]
    simp [System.setOnline]
  rw [System.onClLogin, System.queueLogin, here]
  simp only [mem, if_false, System.onLsLoginNotify, online, Bool.true_or, if_true]
  have found : (({ s with queue := Function.update s.queue p (some ⟨some gate, some g⟩) } :
      System).setOnline p fun o => { o with gate := some gate }).tables g tableId = some t :=
    there
  simp only [found, Option.isSome_some]
  exact gated

theorem Kept.onClLogin (h : Kept C s) (p : Guid) (gate : Nat) (env : Env) :
    Kept C (s.onClLogin C p gate env) := by
  cases here : s.serverOf p with
  | none => exact h.loginAway here gate env
  | some g =>
      cases h.lobby_or_table here with
      | inl in_lobby =>
          obtain ⟨_, home, reg, leaving⟩ := in_lobby
          exact h.loginAgain here home reg leaving.noTable gate env
      | inr at_table =>
          obtain ⟨game, reg, tableId, chair, table⟩ := at_table
          exact h.loginSeated here game reg table gate env

/-! ### Runs -/

/-- What a request may not meet with. -/
def Guarded (C : Cluster) (s : System) : Request × Env → Prop
  | (.createRoom p msg, env) => ∀ me, s.serverOf p = some me → CreatesWell C s me p msg env
  | (.joinRoom p msg, env) => ∀ me, s.serverOf p = some me → JoinsWell C s p msg env
  | (.fastJoinRoom p msg, env) => ∀ me, s.serverOf p = some me → FastJoinsWell C s me p msg env
  | _ => True

abbrev OnlineReaches (C : Cluster) (ok : System → Request × Env → Prop) : System → Prop :=
  Runs.Reaches (fun s => s = System.start) (fun s r s' => step C s r = s') ok

theorem start_kept (C : Cluster) : Kept C System.start where
  counted := ⟨fun _ => iff_of_false (Finset.notMem_empty _) Bool.false_ne_true, rfl,
    fun _ => rfl, fun _ => rfl, fun _ => rfl, fun _ => rfl⟩
  place _ := .away rfl fun _ => rfl
  tables := ⟨fun _ _ _ => rfl, fun _ _ there => absurd there Bool.false_ne_true,
    fun _ _ _ there => absurd there Bool.false_ne_true, fun _ _ there => nomatch there⟩

theorem Kept.send (h : Kept C s) {handler : ServerId → System}
    (served : ∀ me, s.serverOf p = some me → Kept C (handler me)) : Kept C (s.send p handler) := by
  rw [System.send]
  split
  · exact h
  · rename_i server here
    exact served server here

theorem Kept.step (h : Kept C s) {r : Request} (guard : Guarded C s (r, env)) :
    Kept C (step C s (r, env)) := by
  cases r with
  | login p gate => exact h.onClLogin p gate env
  | createRoom p msg => exact h.send fun me here => h.onCsCreatePrivateRoom here (guard me here)
  | joinRoom p msg => exact h.send fun me here => h.onCsJoinPrivateRoom here (guard me here)
  | fastJoinRoom p msg => exact h.send fun me here => h.onCsFastJoinRoom here (guard me here)
  | reconnectJoinRoom p => exact h.send fun _ here => h.onCsReconnectJoinRoom here env
  | standUpAndExitRoom p => exact h.send fun _ here => h.standUpAndExitRoom here env
  | logout p => exact h.send fun _ here => h.kickoutServer here .normal env
  | afk p => exact h.send fun _ here => h.logout here env
  | forceExit server p reason => exact h.forceExit server p reason env

/-- The counters of Redis: everybody in `player:online:all`, each server by the sessions on it,
each club by its set. -/
structure Tallied (C : Cluster) (s : System) : Prop where
  online : ∀ p, p ∈ s.counters.onlineAll ↔ (s.serverOf p).isSome
  count : s.counters.onlineCount = s.counters.onlineAll.card
  type : ∀ g, s.counters.typeCount (C.firstGameType g, g) =
    (s.counters.onlineAll.filter fun p => s.serverOf p = some g).card
  clubs : ∀ c, s.counters.clubOnlineCount c = (s.counters.clubOnlineGuid c).card

theorem Kept.tallied (h : Kept C s) : Tallied C s :=
  ⟨h.counted.all, h.counted.count, h.counted.type, h.counted.clubs⟩

/-- In every run that meets the condition the counters count who is online. -/
theorem counters_tally (C : Cluster) {s : System} (reached : OnlineReaches C (Guarded C) s) :
    Tallied C s := by
  have kept : Kept C s := by
    refine reached.invariant (fun s start => start ▸ start_kept C) fun s r s' h guard moved => ?_
    rw [← moved]
    exact h.step guard
  exact kept.tallied

/-! ### A lobby and a game -/

/-- The lobby 1 and the game server 2, with a union of clubs. -/
def twoServers : Cluster where
  servers := [1, 2]
  firstGameType g := if g = 1 then 1 else 5
  secondGameType _ := 1
  privateConf g := if g = 1 then none else some ⟨[4], [8]⟩
  club _ := some .union
  template _ := none
  playerClub _ _ := ∅
  lobby := ⟨1, List.mem_cons_self, rfl⟩
  lobbyConf g lobby := by
    by_cases first : g = 1
    · rw [if_pos first]
    · rw [if_neg first] at lobby
      cases lobby

/-- Nothing is in the way. -/
def clear : Env where
  globalMaintain := false
  gameMaintain := false
  vip := false
  standing := ⟨true, false, false, false, 0, false, false⟩
  lessRoomCard := false
  draws := [100001]
  privateInit := true
  tableCheck _ := .done ()
  isBlockGamingWithOthers _ := false
  canStandUp _ := true
  isRoundFree := true
  rooms := []
  freeTables _ := []

def firstLogin : System := step twoServers .start (.login 9 1, clear)

/-- A room outside the clubs whose players all pay. -/
def sharedRoom : CreateRoom := ⟨5, 0, 0, some ⟨some 0, some 0, some ⟨.aa, true⟩, .absent⟩⟩

def seated : System := step twoServers firstLogin (.createRoom 9 sharedRoom, clear)

def returned : System := step twoServers seated (.standUpAndExitRoom 9, clear)

/-- The player goes to a table on the server 2, and back to the lobby. -/
theorem room_and_back_tallied : seated.serverOf 9 = some 2 ∧ returned.serverOf 9 = some 1 ∧
    Tallied twoServers returned := by
  refine ⟨by decide, by decide, counters_tally twoServers ?_⟩
  refine .next (.standUpAndExitRoom 9, clear) (.next (.createRoom 9 sharedRoom, clear)
    (.next (.login 9 1, clear) (.start rfl) True.intro rfl) ?_ rfl) True.intro rfl
  intro me here _ _ order room chairCount pay ordered at_ checked
  cases (show some 1 = some me from here)
  cases (show some _ = some order from ordered)
  cases (show some 2 = some room from at_.1)
  cases (show Reply.done (4, PayOption.aa) = .done (chairCount, pay) from checked)
  exact fun _ _ => ⟨100001, by decide, by decide⟩

/-- A room of the club 7 whose rule has a `union` that cannot be indexed. -/
def badUnion : CreateRoom where
  gameType := 5
  clubId := 7
  templateId := 0
  rule := some ⟨some 0, some 0, some ⟨.boss, true⟩, .malformed⟩

def movedWithoutTable : System := step twoServers firstLogin (.createRoom 9 badUnion, clear)

/-- The player is on the server 2 without a table, and logs in again. -/
theorem second_login_miscounts :
    ¬ ∀ s, OnlineReaches twoServers (fun _ _ => True) s → Tallied twoServers s := by
  intro claim
  have tallied := claim (step twoServers movedWithoutTable (.login 9 1, clear))
    (.next _ (.next _ (.next _ (.start rfl) True.intro rfl) True.intro rfl) True.intro rfl)
  exact absurd (tallied.type 2) (by decide)

end FkServer.OnlineCounters
