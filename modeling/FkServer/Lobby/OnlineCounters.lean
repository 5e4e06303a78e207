import FkServer.Lobby.Online

/-!
The counters of the players who are online, over runs of requests. Every player is away, in the
lobby of its number, or at a table of a game server that exists as long as somebody sits there;
the sessions, Redis and the tables agree on that, and the counters count it.
-/
namespace FkServer.OnlineCounters
open Seats (StandupReason)

variable {C : Cluster} {s s' s'' : System} {p q : Guid} {me g : ServerId} {env : Env}

/-! ### The counters and where the players are -/

/-- The counters are those of a register of players and their servers. -/
structure Counted (C : Cluster) (k : Counters) (place : Guid → Option ServerId) : Prop where
  all : ∀ p, p ∈ k.onlineAll ↔ (place p).isSome
  count : k.onlineCount = k.onlineAll.card
  type : Census.Counts (fun g => (C.firstGameType g, g)) k.typeCount place k.onlineAll
  level : Census.Counts (fun g => (C.firstGameType g, C.secondGameType g, g)) k.levelCount place
    k.onlineAll
  guids : ∀ c, k.clubOnlineGuid c = k.onlineAll.filter fun p => c ∈ C.clubs p
  clubs : ∀ c, k.clubOnlineCount c = (k.clubOnlineGuid c).card

theorem typeKey_injective (C : Cluster) :
    Function.Injective fun g : ServerId => (C.firstGameType g, g) :=
  fun _ _ h => (Prod.mk.inj h).2

theorem levelKey_injective (C : Cluster) :
    Function.Injective fun g : ServerId => (C.firstGameType g, C.secondGameType g, g) :=
  fun _ _ h => (Prod.mk.inj (Prod.mk.inj h).2).2

section
variable {k : Counters} {place : Guid → Option ServerId}

theorem Counted.online (h : Counted C k place) (here : place p = some g) : p ∈ k.onlineAll :=
  (h.all p).2 (by rw [here]; rfl)

theorem Counted.offline (h : Counted C k place) (away : place p = none) : p ∉ k.onlineAll := by
  intro there
  have some_place := (h.all p).1 there
  rw [away] at some_place
  cases some_place

/-- `player_login_server`, and `sadd` by the login server. -/
theorem Counted.login (h : Counted C k place) (away : place p = none) (g : ServerId) :
    Counted C ((k.login C p g).saddOnlineAll p) (Function.update place p (some g)) := by
  have absent := h.offline away
  refine ⟨fun q => ?_, ?_, h.type.enter (typeKey_injective C) absent g,
    h.level.enter (levelKey_injective C) absent g, fun c => ?_, fun c => ?_⟩
  · show q ∈ insert p k.onlineAll ↔ _
    by_cases same : q = p
    · simp [same]
    · simpa [same] using h.all q
  · show k.onlineCount + 1 = ((insert p k.onlineAll).card : Int)
    rw [Finset.card_insert_of_notMem absent, h.count]
    rfl
  · show (if c ∈ C.clubs p then insert p (k.clubOnlineGuid c) else k.clubOnlineGuid c) =
      (insert p k.onlineAll).filter fun p => c ∈ C.clubs p
    rw [Finset.filter_insert, h.guids c]
  · show (if c ∈ C.clubs p then k.clubOnlineCount c + 1 else k.clubOnlineCount c) =
      ((if c ∈ C.clubs p then insert p (k.clubOnlineGuid c) else k.clubOnlineGuid c).card : Int)
    have fresh : p ∉ k.clubOnlineGuid c := by
      rw [h.guids c]
      exact fun there => absent (Finset.mem_filter.1 there).1
    split
    · rw [Finset.card_insert_of_notMem fresh, h.clubs c]
      rfl
    · exact h.clubs c

/-- `player_logout_server` -/
theorem Counted.logout (h : Counted C k place) (here : place p = some g) :
    Counted C (k.logout C p g) (Function.update place p none) := by
  have member := h.online here
  refine ⟨fun q => ?_, ?_, h.type.leave (typeKey_injective C) member here,
    h.level.leave (levelKey_injective C) member here, fun c => ?_, fun c => ?_⟩
  · show q ∈ k.onlineAll.erase p ↔ _
    by_cases same : q = p
    · simp [same]
    · simpa [same] using h.all q
  · show k.onlineCount - 1 = ((k.onlineAll.erase p).card : Int)
    have some_there : 0 < k.onlineAll.card := Finset.card_pos.2 ⟨p, member⟩
    rw [Finset.card_erase_of_mem member, h.count]
    omega
  · show (if c ∈ C.clubs p then (k.clubOnlineGuid c).erase p else k.clubOnlineGuid c) =
      (k.onlineAll.erase p).filter fun p => c ∈ C.clubs p
    rw [Finset.filter_erase, h.guids c]
    split
    · rfl
    · rename_i outside
      refine (Finset.erase_eq_of_notMem ?_).symm
      exact fun there => outside (Finset.mem_filter.1 there).2
  · show (if c ∈ C.clubs p then k.clubOnlineCount c - 1 else k.clubOnlineCount c) =
      ((if c ∈ C.clubs p then (k.clubOnlineGuid c).erase p else k.clubOnlineGuid c).card : Int)
    split
    · rename_i inside
      have there : p ∈ k.clubOnlineGuid c := by
        rw [h.guids c]
        exact Finset.mem_filter.2 ⟨member, inside⟩
      have some_there : 0 < (k.clubOnlineGuid c).card := Finset.card_pos.2 ⟨p, there⟩
      rw [Finset.card_erase_of_mem there, h.clubs c]
      omega
    · exact h.clubs c

/-- `SS_ChangeGame`: the new server counts the player, then the old one lets go. -/
theorem Counted.changeGame (h : Counted C k place) (here : place p = some g) (other : g ≠ me) :
    Counted C ((k.zincrby C me 1).zincrby C g (-1)) (Function.update place p (some me)) where
  all q := by
    by_cases same : q = p
    · rw [same, Function.update_self]
      exact iff_of_true (h.online here) rfl
    · rw [Function.update_of_ne same]
      exact h.all q
  count := h.count
  type := h.type.move (typeKey_injective C) (h.online here) here other
  level := h.level.move (levelKey_injective C) (h.online here) here other
  guids := h.guids
  clubs := h.clubs

theorem zincrby_comm (k : Counters) (other : g ≠ me) (d d' : Int) :
    (k.zincrby C g d).zincrby C me d' = (k.zincrby C me d').zincrby C g d := by
  have type := Census.incr_comm k.typeCount (fun eq => other (typeKey_injective C eq)) d d'
  have level := Census.incr_comm k.levelCount (fun eq => other (levelKey_injective C eq)) d d'
  rw [Counters.zincrby, Counters.zincrby, Counters.zincrby, Counters.zincrby]
  exact congrArg₂ (fun t l => { k with typeCount := t, levelCount := l }) type level

/-- `SS_ChangeTo`: the old server lets go first. -/
theorem Counted.changeTo (h : Counted C k place) (here : place p = some g) (other : g ≠ me) :
    Counted C ((k.zincrby C g (-1)).zincrby C me 1) (Function.update place p (some me)) := by
  rw [zincrby_comm k other]
  exact h.changeGame here other

end

/-! ### Players, sessions and tables -/

/-- No game server has the player at a table. -/
def Unseated (s : System) (p : Guid) : Prop := ∀ g, (s.sessions g p).tableId = none

structure Registered (C : Cluster) (s : System) (p : Guid) (g : ServerId) : Prop where
  server : (s.online p).server = some g
  firstGameType : (s.online p).firstGameType = some (C.firstGameType g)

/-- The player has a chair; its server, Redis and the table say the same. -/
structure AtTable (s : System) (p : Guid) (g : ServerId) (tableId : TableId) (chair : Nat) :
    Prop where
  onTable : (s.online p).table = some tableId
  onChair : (s.online p).chair = some chair
  globalTable : (s.online p).globalTable = some tableId
  sessionTable : (s.sessions g p).tableId = some tableId
  sessionChair : (s.sessions g p).chairId = some chair
  elsewhere : ∀ g' ≠ g, (s.sessions g' p).tableId = none
  sits : ∃ t, s.tables g tableId = some t ∧ t.players.lookup chair = some p

/-- Where a player is, by the server of its session. -/
inductive Place (C : Cluster) (s : System) (p : Guid) : Option ServerId → Prop
  | away : s.online p = .empty → Unseated s p → Place C s p none
  | lobby {g : ServerId} : Registered C s p g → C.firstGameType g = 1 → C.lobbyId p = g →
      (s.online p).table = none → (s.online p).chair = none → Unseated s p → Place C s p (some g)
  | seated {g : ServerId} {tableId : TableId} {chair : Nat} : Registered C s p g →
      C.firstGameType g ≠ 1 → AtTable s p g tableId chair → Place C s p (some g)

structure Tables (C : Cluster) (s : System) : Prop where
  lobby : ∀ g tableId, C.firstGameType g = 1 → s.tables g tableId = none
  listed : ∀ g tableId, (s.tables g tableId).isSome → tableId ∈ s.tableAll
  once : ∀ g g' tableId, (s.tables g tableId).isSome → (s.tables g' tableId).isSome → g = g'
  info : ∀ tableId info, s.privateTable tableId = some info → (s.tables info.roomId tableId).isSome

/-- All is well but for one player, who is on the way. -/
structure Rest (C : Cluster) (s : System) (p : Guid) : Prop where
  place : ∀ q ≠ p, Place C s q (s.serverOf q)
  tables : Tables C s

structure Kept (C : Cluster) (s : System) : Prop where
  counted : Counted C s.counters s.serverOf
  place : ∀ p, Place C s p (s.serverOf p)
  tables : Tables C s

theorem Kept.rest (h : Kept C s) (p : Guid) : Rest C s p := ⟨fun q _ => h.place q, h.tables⟩

theorem Rest.kept (rest : Rest C s p) (counted : Counted C s.counters s.serverOf)
    (place : Place C s p (s.serverOf p)) : Kept C s := by
  refine ⟨counted, fun q => ?_, rest.tables⟩
  by_cases same : q = p
  · rw [same]
    exact place
  · exact rest.place q same

/-! ### Everything but one player is unchanged -/

structure Frame (p : Guid) (s s' : System) : Prop where
  online : ∀ q ≠ p, s'.online q = s.online q
  server : ∀ q ≠ p, s'.serverOf q = s.serverOf q
  session : ∀ q ≠ p, ∀ g, s'.sessions g q = s.sessions g q
  tables : s'.tables = s.tables
  tableAll : s'.tableAll = s.tableAll
  privateTable : s'.privateTable = s.privateTable

theorem Frame.refl (p : Guid) (s : System) : Frame p s s :=
  ⟨fun _ _ => rfl, fun _ _ => rfl, fun _ _ _ => rfl, rfl, rfl, rfl⟩

theorem Frame.trans (h : Frame p s s') (h' : Frame p s' s'') : Frame p s s'' where
  online q other := (h'.online q other).trans (h.online q other)
  server q other := (h'.server q other).trans (h.server q other)
  session q other g := (h'.session q other g).trans (h.session q other g)
  tables := h'.tables.trans h.tables
  tableAll := h'.tableAll.trans h.tableAll
  privateTable := h'.privateTable.trans h.privateTable

theorem sessions_setSession_self (s : System) (me : ServerId) (p : Guid)
    (f : PlayerSession → PlayerSession) :
    (s.setSession me p f).sessions me p = f (s.sessions me p) := by
  simp [System.setSession]

theorem sessions_setSession_of_ne_guid (s : System) (me : ServerId) (other : q ≠ p)
    (f : PlayerSession → PlayerSession) (g : ServerId) :
    (s.setSession me p f).sessions g q = s.sessions g q := by
  by_cases same : g = me
  · simp [System.setSession, same, other]
  · simp [System.setSession, same]

theorem sessions_setSession_of_ne_server (s : System) (p q : Guid) (other : g ≠ me)
    (f : PlayerSession → PlayerSession) :
    (s.setSession me p f).sessions g q = s.sessions g q := by
  simp [System.setSession, other]

theorem tables_setTable_self (s : System) (me : ServerId) (tableId : TableId) (t : Option Table) :
    (s.setTable me tableId t).tables me tableId = t := by
  simp [System.setTable]

theorem tables_setTable_of_ne (s : System) {me g : ServerId} {tableId other : TableId}
    (t : Option Table) (h : g ≠ me ∨ other ≠ tableId) :
    (s.setTable me tableId t).tables g other = s.tables g other := by
  by_cases same : g = me
  · have another := h.resolve_left (not_not.2 same)
    simp [System.setTable, same, another]
  · simp [System.setTable, same]

theorem frame_counters (p : Guid) (s : System) (k : Counters) :
    Frame p s { s with counters := k } :=
  ⟨fun _ _ => rfl, fun _ _ => rfl, fun _ _ _ => rfl, rfl, rfl, rfl⟩

theorem frame_zincrby (p : Guid) (s : System) (g : ServerId) (d : Int) :
    Frame p s (s.zincrby C g d) :=
  frame_counters p s _

theorem frame_setOnline (p : Guid) (s : System) (f : OnlineInfo → OnlineInfo) :
    Frame p s (s.setOnline p f) :=
  ⟨fun _ other => Function.update_of_ne other .., fun _ _ => rfl, fun _ _ _ => rfl, rfl, rfl, rfl⟩

theorem frame_setSession (p : Guid) (s : System) (me : ServerId)
    (f : PlayerSession → PlayerSession) : Frame p s (s.setSession me p f) :=
  ⟨fun _ _ => rfl, fun _ _ => rfl, fun _ other g => sessions_setSession_of_ne_guid s me other f g,
    rfl, rfl, rfl⟩

theorem serverOf_update (s : System) (p : Guid) (x : Option QueueSession) :
    { s with queue := Function.update s.queue p x }.serverOf =
      Function.update s.serverOf p (x.bind QueueSession.server) := by
  funext q
  by_cases same : q = p
  · simp [System.serverOf, same]
  · simp [System.serverOf, same]

theorem frame_queue (p : Guid) (s : System) (x : Option QueueSession) :
    Frame p s { s with queue := Function.update s.queue p x } := by
  refine ⟨fun _ _ => rfl, fun q other => ?_, fun _ _ _ => rfl, rfl, rfl, rfl⟩
  rw [serverOf_update, Function.update_of_ne other]

theorem frame_quit (p : Guid) (s : System) : Frame p s (s.quit p) :=
  (frame_queue p s none).trans (frame_setOnline p _ fun _ => .empty)

theorem frame_goServer (p : Guid) (s : System) (dest : ServerId) :
    Frame p s (s.goServer p dest) := by
  rw [System.goServer]
  split
  · exact Frame.refl p s
  · exact (frame_queue p s _).trans (frame_setOnline p _ _)

theorem frame_onSsChangeGame (p : Guid) (s : System) (me : ServerId) :
    Frame p s (s.onSsChangeGame C me p) :=
  ((frame_setSession p s me _).trans (frame_setOnline p _ _)).trans
    ((frame_zincrby p _ me 1).trans (frame_goServer p _ me))

theorem frame_switchToLobby (C : Cluster) (p : Guid) (s : System) (me : ServerId) :
    Frame p s (s.switchToLobby C me p) := by
  rw [System.switchToLobby]
  split
  · exact Frame.refl p s
  · exact (frame_onSsChangeGame p s _).trans
      ((frame_zincrby p _ me (-1)).trans (frame_setSession p _ me _))

theorem frame_switchFrom (C : Cluster) (p : Guid) (s : System) (me roomId : ServerId) :
    Frame p s (s.switchFrom C me p roomId) := by
  rw [System.switchFrom]
  split
  · exact Frame.refl p s
  · exact (frame_setSession p s me _).trans ((frame_zincrby p _ roomId (-1)).trans
      ((frame_setSession p _ roomId _).trans ((frame_zincrby p _ me 1).trans
        (frame_goServer p _ me))))

/-- Nothing that says where a player is has changed; the others at its table may. -/
structure Alike (q : Guid) (s s' : System) : Prop where
  empty : s.online q = .empty → s'.online q = .empty
  server : (s'.online q).server = (s.online q).server
  firstGameType : (s'.online q).firstGameType = (s.online q).firstGameType
  table : (s'.online q).table = (s.online q).table
  chair : (s'.online q).chair = (s.online q).chair
  globalTable : (s'.online q).globalTable = (s.online q).globalTable
  sessionTable : ∀ g, (s'.sessions g q).tableId = (s.sessions g q).tableId
  sessionChair : ∀ g, (s'.sessions g q).chairId = (s.sessions g q).chairId
  sits : ∀ g tableId chair t, s.tables g tableId = some t → t.players.lookup chair = some q →
    ∃ t', s'.tables g tableId = some t' ∧ t'.players.lookup chair = some q

theorem Alike.place (h : Alike q s s') {place : Option ServerId} (at_ : Place C s q place) :
    Place C s' q place := by
  have unseated : Unseated s q → Unseated s' q := fun un g => (h.sessionTable g).trans (un g)
  have registered : ∀ {g}, Registered C s q g → Registered C s' q g := fun reg =>
    ⟨h.server.trans reg.server, h.firstGameType.trans reg.firstGameType⟩
  cases at_ with
  | away empty un => exact .away (h.empty empty) (unseated un)
  | lobby reg lobby home table chair un =>
      exact .lobby (registered reg) lobby home (h.table.trans table) (h.chair.trans chair)
        (unseated un)
  | seated reg game here =>
      obtain ⟨t, there, sits⟩ := here.sits
      exact .seated (registered reg) game ⟨h.table.trans here.onTable, h.chair.trans here.onChair,
        h.globalTable.trans here.globalTable, (h.sessionTable _).trans here.sessionTable,
        (h.sessionChair _).trans here.sessionChair,
        fun g' ne => (h.sessionTable g').trans (here.elsewhere g' ne), h.sits _ _ _ t there sits⟩

/-- All but one player are where they were. -/
def Keeps (p : Guid) (s s' : System) : Prop :=
  ∀ q ≠ p, Alike q s s' ∧ s'.serverOf q = s.serverOf q

theorem Alike.of_eq (online : s'.online q = s.online q)
    (session : ∀ g, (s'.sessions g q).tableId = (s.sessions g q).tableId ∧
      (s'.sessions g q).chairId = (s.sessions g q).chairId)
    (sits : ∀ g tableId chair t, s.tables g tableId = some t → t.players.lookup chair = some q →
      ∃ t', s'.tables g tableId = some t' ∧ t'.players.lookup chair = some q) : Alike q s s' := by
  refine ⟨fun empty => online.trans empty, ?_, ?_, ?_, ?_, ?_, fun g => (session g).1,
    fun g => (session g).2, sits⟩
  all_goals rw [online]

theorem Frame.keeps (h : Frame p s s') : Keeps p s s' := by
  intro q other
  refine ⟨.of_eq (h.online q other) (fun g => ?_) ?_, h.server q other⟩
  · rw [h.session q other g]
    exact ⟨rfl, rfl⟩
  · exact fun _ _ _ t there sits => ⟨t, by rw [h.tables]; exact there, sits⟩

theorem Rest.keeps (h : Rest C s p) (keeps : Keeps p s s') (tables : Tables C s') : Rest C s' p :=
  ⟨fun q other => by rw [(keeps q other).2]; exact (keeps q other).1.place (h.place q other),
    tables⟩

theorem Tables.frame (h : Tables C s) (frame : Frame p s s') : Tables C s' := by
  refine ⟨?_, ?_, ?_, ?_⟩
  · rw [frame.tables]
    exact h.lobby
  · rw [frame.tables, frame.tableAll]
    exact h.listed
  · rw [frame.tables]
    exact h.once
  · rw [frame.tables, frame.privateTable]
    exact h.info

theorem Rest.frame (h : Rest C s p) (frame : Frame p s s') : Rest C s' p :=
  h.keeps frame.keeps (h.tables.frame frame)

/-- A change of the flags of a session. -/
theorem alike_setSession (s : System) (g : ServerId) (p : Guid)
    {f : PlayerSession → PlayerSession} (table : (f (s.sessions g p)).tableId =
      (s.sessions g p).tableId) (chair : (f (s.sessions g p)).chairId = (s.sessions g p).chairId) :
    Alike p s (s.setSession g p f) := by
  refine .of_eq rfl (fun g' => ?_) fun _ _ _ t there sits => ⟨t, there, sits⟩
  by_cases same : g' = g
  · rw [same, sessions_setSession_self]
    exact ⟨table, chair⟩
  · rw [sessions_setSession_of_ne_server s p p same]
    exact ⟨rfl, rfl⟩

theorem Kept.setSession (h : Kept C s) (g : ServerId) (p : Guid)
    (f : PlayerSession → PlayerSession) (table : (f (s.sessions g p)).tableId =
      (s.sessions g p).tableId) (chair : (f (s.sessions g p)).chairId = (s.sessions g p).chairId) :
    Kept C (s.setSession g p f) :=
  ((h.rest p).frame (frame_setSession p s g f)).kept h.counted
    ((alike_setSession s g p table chair).place (h.place p))

/-! ### From one server to another -/

theorem goServer_eq (s : System) (here : s.serverOf p = some g) (dest : ServerId) :
    (s.goServer p dest).counters = s.counters ∧ (s.goServer p dest).sessions = s.sessions ∧
      (s.goServer p dest).serverOf = Function.update s.serverOf p (some dest) ∧
      (s.goServer p dest).online p = { s.online p with server := some dest } := by
  cases queued : s.queue p with
  | none =>
      rw [System.serverOf, queued] at here
      cases here
  | some q =>
      rw [System.goServer, queued]
      exact ⟨rfl, rfl, serverOf_update s p _, Function.update_self ..⟩

theorem tableId_activate (s : System) (me g : ServerId) (p : Guid) :
    ((s.activate me p).sessions g p).tableId = (s.sessions g p).tableId ∧
      ((s.activate me p).sessions g p).chairId = (s.sessions g p).chairId := by
  by_cases same : g = me
  · rw [same, System.activate, sessions_setSession_self]
    exact ⟨rfl, rfl⟩
  · rw [System.activate, sessions_setSession_of_ne_server s p p same]
    exact ⟨rfl, rfl⟩

/-- The player has taken a chair on the server `me` and comes from elsewhere. -/
theorem Kept.switchFrom (counted : Counted C s.counters s.serverOf) (rest : Rest C s p)
    (here : s.serverOf p = some g) (other : g ≠ me) (game : C.firstGameType me ≠ 1)
    (place : Place C s p (some me)) : Kept C (s.switchFrom C me p g) := by
  have frame := frame_switchFrom C p s me g
  have go := goServer_eq (((s.activate me p).onSsChangeTo C g p).zincrby C me 1) here me
  have sessions : ∀ g', ((s.switchFrom C me p g).sessions g' p).tableId =
      (if g' = g then none else (s.sessions g' p).tableId) := by
    intro g'
    rw [System.switchFrom, if_neg other, go.2.1]
    show ((((s.activate me p).zincrby C g (-1)).delSession g p).sessions g' p).tableId = _
    by_cases same : g' = g
    · rw [same, System.delSession, sessions_setSession_self, if_pos rfl]
      rfl
    · rw [System.delSession, sessions_setSession_of_ne_server _ p p same, if_neg same]
      exact (tableId_activate s me g' p).1
  have sessionChair : ((s.switchFrom C me p g).sessions me p).chairId =
      (s.sessions me p).chairId := by
    rw [System.switchFrom, if_neg other, go.2.1]
    show ((((s.activate me p).zincrby C g (-1)).delSession g p).sessions me p).chairId = _
    rw [System.delSession, sessions_setSession_of_ne_server _ p p other.symm]
    exact (tableId_activate s me me p).2
  have online : (s.switchFrom C me p g).online p = { s.online p with server := some me } := by
    rw [System.switchFrom, if_neg other]
    exact go.2.2.2
  have serverOf : (s.switchFrom C me p g).serverOf = Function.update s.serverOf p (some me) := by
    rw [System.switchFrom, if_neg other]
    exact go.2.2.1
  refine (rest.frame frame).kept ?_ ?_
  · rw [serverOf, System.switchFrom, if_neg other, go.1]
    exact counted.changeTo here other
  · rw [serverOf, Function.update_self]
    cases place with
    | lobby _ lobby => exact absurd lobby game
    | seated reg _ table =>
        obtain ⟨t, there, sits⟩ := table.sits
        refine .seated ⟨by rw [online], by rw [online]; exact reg.firstGameType⟩ game
          ⟨by rw [online]; exact table.onTable, by rw [online]; exact table.onChair,
            by rw [online]; exact table.globalTable, ?_, ?_, fun g' ne => ?_, t, ?_, sits⟩
        · rw [sessions, if_neg other.symm]
          exact table.sessionTable
        · rw [sessionChair]
          exact table.sessionChair
        · rw [sessions]
          split
          · rfl
          · exact table.elsewhere g' ne
        · rw [frame.tables]
          exact there

/-- The player is at no table and is counted on the server `me`. -/
structure Leaving (C : Cluster) (s : System) (p : Guid) (me : ServerId) : Prop where
  counted : Counted C s.counters s.serverOf
  rest : Rest C s p
  here : s.serverOf p = some me
  noTable : (s.online p).table = none
  noChair : (s.online p).chair = none
  unseated : Unseated s p

theorem lobbyId_mem (C : Cluster) (p : Guid) : C.lobbyId p ∈ C.allGameServer 1 := by
  obtain ⟨g, up, lobby⟩ := C.lobby
  have mem : g ∈ C.allGameServer 1 := List.mem_filter.2 ⟨up, by simpa using lobby⟩
  have bound : p % (C.allGameServer 1).length < (C.allGameServer 1).length :=
    Nat.mod_lt _ (List.length_pos_of_mem mem)
  show (C.allGameServer 1).getD (p % (C.allGameServer 1).length) 0 ∈ C.allGameServer 1
  rw [List.getD_eq_getElem?_getD, List.getElem?_eq_getElem bound]
  exact List.getElem_mem bound

theorem firstGameType_of_mem {type : GameType} (mem : g ∈ C.allGameServer type) :
    C.firstGameType g = type := by
  simpa using (List.mem_filter.1 mem).2

theorem lobbyId_lobby (C : Cluster) (p : Guid) : C.firstGameType (C.lobbyId p) = 1 :=
  firstGameType_of_mem (lobbyId_mem C p)

theorem unseated_delSession (h : Unseated s p) (me : ServerId) : Unseated (s.delSession me p) p := by
  intro g
  by_cases same : g = me
  · rw [same, System.delSession, sessions_setSession_self]
    rfl
  · rw [System.delSession, sessions_setSession_of_ne_server s p p same]
    exact h g

/-- Back to the lobby from a game server; the session there is deleted, maybe once more. -/
theorem Leaving.switchToLobby (h : Leaving C s p me) (game : C.firstGameType me ≠ 1) :
    Kept C (s.switchToLobby C me p) := by
  have lobby := lobbyId_lobby C p
  have other : C.lobbyId p ≠ me := fun eq => game (eq ▸ lobby)
  have frame := frame_switchToLobby C p s me
  have go := goServer_eq (((s.activate (C.lobbyId p) p).arrive C (C.lobbyId p) p).zincrby C
    (C.lobbyId p) 1) h.here (C.lobbyId p)
  have serverOf : (s.switchToLobby C me p).serverOf =
      Function.update s.serverOf p (some (C.lobbyId p)) := by
    rw [System.switchToLobby, if_neg other]
    exact go.2.2.1
  have online : (s.switchToLobby C me p).online p =
      { s.online p with
        firstGameType := some (C.firstGameType (C.lobbyId p))
        secondGameType := some (C.secondGameType (C.lobbyId p))
        server := some (C.lobbyId p) } := by
    rw [System.switchToLobby, if_neg other]
    refine go.2.2.2.trans ?_
    simp [System.zincrby, System.arrive, System.setOnline, System.activate, System.setSession]
  have unseated : Unseated (s.switchToLobby C me p) p := by
    rw [System.switchToLobby, if_neg other]
    refine unseated_delSession (fun g => ?_) me
    show ((s.onSsChangeGame C (C.lobbyId p) p).sessions g p).tableId = none
    rw [System.onSsChangeGame, go.2.1]
    exact (tableId_activate s (C.lobbyId p) g p).1.trans (h.unseated g)
  refine (h.rest.frame frame).kept ?_ ?_
  · rw [serverOf, System.switchToLobby, if_neg other]
    show Counted C (((s.onSsChangeGame C (C.lobbyId p) p).counters).zincrby C me (-1)) _
    rw [System.onSsChangeGame, go.1]
    exact h.counted.changeGame h.here other.symm
  · rw [serverOf, Function.update_self]
    exact .lobby ⟨by rw [online], by rw [online]⟩ lobby rfl (by rw [online]; exact h.noTable)
      (by rw [online]; exact h.noChair) unseated

theorem delSession_delSession (s : System) (me : ServerId) (p : Guid) :
    (s.delSession me p).delSession me p = s.delSession me p := by
  simp [System.delSession, System.setSession]

theorem Leaving.switchToLobby_delSession (h : Leaving C s p me) (game : C.firstGameType me ≠ 1) :
    Kept C ((s.switchToLobby C me p).delSession me p) := by
  have other : C.lobbyId p ≠ me := fun eq => game (eq ▸ lobbyId_lobby C p)
  have same : (s.switchToLobby C me p).delSession me p = s.switchToLobby C me p := by
    rw [System.switchToLobby, if_neg other, delSession_delSession]
  rw [same]
  exact h.switchToLobby game

theorem Leaving.playerLogoutServer (h : Leaving C s p me) (online : (s.sessions me p).online = true) :
    Kept C (s.playerLogoutServer C me p) := by
  have member := h.counted.online h.here
  have eq : s.playerLogoutServer C me p =
      { (s.delSession me p).quit p with counters := s.counters.logout C p me } := by
    rw [System.playerLogoutServer, online, if_neg (by simp), if_neg (not_not.2 member)]
  have serverOf : (s.playerLogoutServer C me p).serverOf = Function.update s.serverOf p none := by
    rw [eq]
    exact serverOf_update s p none
  have frame : Frame p s (s.playerLogoutServer C me p) := by
    rw [eq]
    exact (frame_setSession p s me _).trans ((frame_quit p _).trans (frame_counters p _ _))
  refine (h.rest.frame frame).kept ?_ ?_
  · rw [serverOf, eq]
    exact h.counted.logout h.here
  · rw [serverOf, Function.update_self, eq]
    exact .away (Function.update_self ..) (unseated_delSession h.unseated me)

/-! ### Standing up and leaving -/

theorem isPlayerInLobby_of_registered (reg : Registered C s p me) (game : C.firstGameType me ≠ 1) :
    s.isPlayerInLobby p = false := by
  rw [System.isPlayerInLobby, reg.firstGameType]
  simp [game]

theorem Leaving.playerExitRoom (h : Leaving C s p me) (reg : Registered C s p me)
    (game : C.firstGameType me ≠ 1) (online : (s.sessions me p).online = true) (offline : Bool) :
    Kept C (s.playerExitRoom C me p offline) := by
  rw [System.playerExitRoom, online, if_neg (by simp), isPlayerInLobby_of_registered reg game]
  split
  · exact h.playerLogoutServer online
  · exact h.switchToLobby_delSession game

theorem Leaving.playerKickoutRoom (h : Leaving C s p me) (reg : Registered C s p me)
    (game : C.firstGameType me ≠ 1) (online : (s.sessions me p).online = true) :
    Kept C (s.playerKickoutRoom C me p) := by
  rw [System.playerKickoutRoom, online, if_neg (by simp), isPlayerInLobby_of_registered reg game]
  split
  · exact h.switchToLobby_delSession game
  · exact h.playerExitRoom reg game online false

theorem Leaving.playerKickoutServer (h : Leaving C s p me)
    (online : (s.sessions me p).online = true) : Kept C (s.playerKickoutServer C me p) := by
  rw [System.playerKickoutServer, online, if_neg (by simp)]
  exact h.playerLogoutServer online

/-- The players of a table change on the chair of one of them. -/
theorem Keeps.setTable {tableId : TableId} {t t' : Table} (there : s.tables me tableId = some t)
    (chairs : ∀ q ≠ p, ∀ chair, t.players.lookup chair = some q →
      t'.players.lookup chair = some q) : Keeps p s (s.setTable me tableId (some t')) := by
  intro q other
  refine ⟨.of_eq rfl (fun _ => ⟨rfl, rfl⟩) ?_, rfl⟩
  intro g id chair t₀ at_ sits
  by_cases same : g = me ∧ id = tableId
  · rw [same.1, same.2, there] at at_
    rw [same.1, same.2, tables_setTable_self]
    exact ⟨t', rfl, chairs q other chair (by rw [Option.some.inj at_]; exact sits)⟩
  · rw [tables_setTable_of_ne s (some t') (not_and_or.1 same)]
    exact ⟨t₀, at_, sits⟩

theorem isSome_setTable {tableId : TableId} {t : Table} (there : s.tables me tableId = some t)
    (t' : Table) (g : ServerId) (id : TableId) :
    ((s.setTable me tableId (some t')).tables g id).isSome = (s.tables g id).isSome := by
  by_cases same : g = me ∧ id = tableId
  · rw [same.1, same.2, tables_setTable_self, there]
    rfl
  · rw [tables_setTable_of_ne s (some t') (not_and_or.1 same)]

theorem Tables.setTable (h : Tables C s) {tableId : TableId} {t : Table}
    (there : s.tables me tableId = some t) (t' : Table) :
    Tables C (s.setTable me tableId (some t')) := by
  have same := isSome_setTable there t'
  refine ⟨fun g id lobby => ?_, fun g id => ?_, fun g g' id => ?_, fun id info at_ => ?_⟩
  · rw [← Option.isNone_iff_eq_none, ← Option.not_isSome, same, h.lobby g id lobby]
    rfl
  · rw [same]
    exact h.listed g id
  · rw [same, same]
    exact h.once g g' id
  · rw [same]
    exact h.info id info at_

theorem Rest.setTable (h : Rest C s p) {tableId : TableId} {t t' : Table}
    (there : s.tables me tableId = some t) (chairs : ∀ q ≠ p, ∀ chair,
      t.players.lookup chair = some q → t'.players.lookup chair = some q) :
    Rest C (s.setTable me tableId (some t')) p :=
  h.keeps (Keeps.setTable there chairs) (h.tables.setTable there t')

/-- A table nobody else sits at is deleted. -/
theorem Rest.doDismiss (h : Rest C s p) {tableId : TableId}
    (alone : ∀ t, s.tables me tableId = some t → ∀ q ≠ p, ∀ chair,
      t.players.lookup chair ≠ some q)
    (there : (s.tables me tableId).isSome) : Rest C (s.doDismiss me tableId) p := by
  have gone : ∀ g id, ((s.doDismiss me tableId).tables g id).isSome →
      (s.tables g id).isSome ∧ id ≠ tableId := by
    intro g id at_
    have apart : ¬(g = me ∧ id = tableId) := by
      intro same
      rw [same.1, same.2] at at_
      rw [show (s.doDismiss me tableId).tables me tableId = none from
        tables_setTable_self s me tableId none] at at_
      cases at_
    have before : (s.tables g id).isSome := by
      rw [← tables_setTable_of_ne s none (not_and_or.1 apart)]
      exact at_
    refine ⟨before, fun same => apart ⟨?_, same⟩⟩
    exact h.tables.once g me tableId (same ▸ before) there
  refine h.keeps (fun q other => ⟨.of_eq rfl (fun _ => ⟨rfl, rfl⟩) ?_, rfl⟩) ⟨?_, ?_, ?_, ?_⟩
  · intro g id chair t at_ sits
    have apart : ¬(g = me ∧ id = tableId) := by
      intro same
      rw [same.1, same.2] at at_
      exact alone t at_ q other chair sits
    exact ⟨t, (tables_setTable_of_ne s none (not_and_or.1 apart)).trans at_, sits⟩
  · intro g id lobby
    cases at_ : (s.doDismiss me tableId).tables g id with
    | none => rfl
    | some t =>
        have before := (gone g id (by rw [at_]; rfl)).1
        rw [h.tables.lobby g id lobby] at before
        cases before
  · intro g id at_
    exact Finset.mem_erase.2 ⟨(gone g id at_).2, h.tables.listed g id (gone g id at_).1⟩
  · exact fun g g' id at_ at' => h.tables.once g g' id (gone g id at_).1 (gone g' id at').1
  · intro id info at_
    have listed : Function.update s.privateTable tableId none id = some info := at_
    by_cases same : id = tableId
    · rw [same, Function.update_self] at listed
      cases listed
    · rw [Function.update_of_ne same] at listed
      have open_ := h.tables.info id info listed
      rw [← tables_setTable_of_ne s none (.inr same)] at open_
      exact open_

/-- The chair is free, and the player can go. -/
theorem Leaving.vacate (h : Kept C s) (here : s.serverOf p = some me) (reg : Registered C s p me)
    {tableId : TableId} {chair : Nat} {t : Table} (elsewhere : ∀ g ≠ me,
      (s.sessions g p).tableId = none) (there : s.tables me tableId = some t)
    (sits : t.players.lookup chair = some p) :
    Leaving C (s.vacate me tableId t p chair) p me ∧
      Registered C (s.vacate me tableId t p chair) p me ∧
      ((s.vacate me tableId t p chair).sessions me p).online = (s.sessions me p).online := by
  have online : (s.vacate me tableId t p chair).online p =
      { s.online p with globalTable := none, table := none, chair := none } :=
    Function.update_self ..
  have session : (s.vacate me tableId t p chair).sessions me p =
      { s.sessions me p with tableId := none, chairId := none } :=
    sessions_setSession_self s me p fun q => { q with tableId := none, chairId := none }
  have rest : Rest C (s.vacate me tableId t p chair) p := by
    have stood := (h.rest p).frame (frame_setSession p s me fun q =>
      { q with tableId := none, chairId := none })
    refine (stood.setTable there fun q other c at_ => ?_).frame (frame_setOnline p _ _)
    have apart : c ≠ chair := by
      intro same
      rw [same, sits] at at_
      exact other (Option.some.inj at_).symm
    rw [AList.lookup_erase_ne apart]
    exact at_
  refine ⟨⟨h.counted, rest, here, by rw [online], by rw [online], fun g => ?_⟩,
    ⟨by rw [online]; exact reg.server, by rw [online]; exact reg.firstGameType⟩, by rw [session]⟩
  by_cases same : g = me
  · rw [same, session]
  · have kept := sessions_setSession_of_ne_server s p p same fun q =>
      { q with tableId := none, chairId := none }
    exact (congrArg PlayerSession.tableId kept).trans (elsewhere g same)

theorem alone_of_length {t : Table} {chair : Nat} (sits : t.players.lookup chair = some p)
    (single : t.players.keys.length = 1) (q : Guid) (chair' : Nat) :
    (t.players.erase chair).lookup chair' ≠ some q := by
  intro at_
  have mem : chair ∈ t.players.keys := AList.mem_keys.1
    (AList.lookup_isSome.1 (by rw [sits]; rfl))
  have mem' : chair' ∈ (t.players.erase chair).keys := AList.mem_keys.1
    (AList.lookup_isSome.1 (by rw [at_]; rfl))
  rw [AList.keys_erase] at mem'
  have empty : (t.players.keys.erase chair).length = 0 := by
    rw [List.length_erase_of_mem mem, single]
  rw [List.length_eq_zero_iff.1 empty] at mem'
  cases mem'

/-- Either the player is off the table and its server lets it go, or it stays. -/
theorem playerStandUp_spec (h : Kept C s) (here : s.serverOf p = some me)
    (reg : Registered C s p me) {tableId : TableId} {chair : Nat}
    (table : AtTable s p me tableId chair) (reason : StandupReason) (env : Env) {stood : Bool}
    (eq : s.playerStandUp me p reason env = (s', stood)) :
    if stood then Leaving C s' p me ∧ Registered C s' p me ∧
      (s'.sessions me p).online = (s.sessions me p).online
    else Kept C s' := by
  obtain ⟨t, there, sits⟩ := table.sits
  rw [System.playerStandUp, table.sessionTable, table.sessionChair] at eq
  simp only [there] at eq
  have left := Leaving.vacate h here reg table.elsewhere there sits
  split at eq
  · split at eq
    · rename_i single
      cases eq
      have at_ : ((s.vacate me tableId t p chair).tables me tableId) =
          some { t with players := t.players.erase chair } :=
        tables_setTable_self ..
      have rest : Rest C ((s.vacate me tableId t p chair).doDismiss me tableId) p := by
        refine left.1.rest.doDismiss (fun t' eq q _ chair' => ?_) (by rw [at_]; rfl)
        rw [at_] at eq
        rw [← Option.some.inj eq]
        exact alone_of_length sits single q chair'
      exact ⟨⟨left.1.counted, rest, left.1.here, left.1.noTable, left.1.noChair, left.1.unseated⟩,
        ⟨left.2.1.server, left.2.1.firstGameType⟩, left.2.2⟩
    · cases eq
      exact left
  · split at eq
    · cases eq
      exact h.setSession me p _ rfl rfl
    · cases eq
      exact h

/-- A player with a session is in the lobby of its number or at a table. -/
theorem Kept.lobby_or_table (h : Kept C s) (here : s.serverOf p = some me) :
    (C.firstGameType me = 1 ∧ C.lobbyId p = me ∧ Registered C s p me ∧ Leaving C s p me) ∨
      (C.firstGameType me ≠ 1 ∧ Registered C s p me ∧
        ∃ tableId chair, AtTable s p me tableId chair) := by
  have place := h.place p
  rw [here] at place
  cases place with
  | lobby reg lobby home table chair un =>
      exact .inl ⟨lobby, home, reg, h.counted, h.rest p, here, table, chair, un⟩
  | seated reg game table => exact .inr ⟨game, reg, _, _, table⟩

theorem isInLobby_iff : C.isInLobby me = true ↔ C.firstGameType me = 1 := decide_eq_true_iff

theorem Kept.leaveRoom (h : Kept C s) (here : s.serverOf p = some me) (reason : StandupReason)
    (env : Env) {inLobby noTable stood : System → System}
    (lobby : Leaving C s p me → (s.sessions me p).online = true → Kept C (inLobby s))
    (leaves : ∀ s', Leaving C s' p me → Registered C s' p me → C.firstGameType me ≠ 1 →
      (s'.sessions me p).online = true → Kept C (stood s')) :
    Kept C (s.leaveRoom C me p reason env inLobby noTable stood) := by
  rw [System.leaveRoom]
  cases online : (s.sessions me p).online with
  | false => exact h
  | true =>
      rw [if_neg (by simp)]
      cases h.lobby_or_table here with
      | inl in_lobby =>
          rw [if_pos (isInLobby_iff.2 in_lobby.1)]
          exact lobby in_lobby.2.2.2 online
      | inr at_table =>
          obtain ⟨game, reg, tableId, chair, table⟩ := at_table
          obtain ⟨t, there, sits⟩ := table.sits
          rw [if_neg (mt isInLobby_iff.1 game)]
          simp only [table.sessionTable, table.sessionChair, there, Option.isNone_some,
            Bool.false_eq_true, if_false]
          split
          · rename_i eq
            have left := playerStandUp_spec h here reg table reason env eq
            exact leaves _ left.1 left.2.1 game (left.2.2.trans online)
          · rename_i eq
            exact playerStandUp_spec h here reg table reason env eq

theorem Kept.kickoutRoom (h : Kept C s) (here : s.serverOf p = some me) (reason : StandupReason)
    (env : Env) : Kept C (s.kickoutRoom C me p reason env) :=
  h.leaveRoom here reason env (fun left online => left.playerLogoutServer online)
    fun _ left reg game online => left.playerKickoutRoom reg game online

theorem Kept.kickoutServer (h : Kept C s) (here : s.serverOf p = some me) (reason : StandupReason)
    (env : Env) : Kept C (s.kickoutServer C me p reason env) :=
  h.leaveRoom here reason env (fun left online => left.playerKickoutServer online)
    fun _ left _ _ online => left.playerKickoutServer online

theorem Kept.exitServer (h : Kept C s) (here : s.serverOf p = some me) (env : Env) :
    Kept C (s.exitServer C me p env) :=
  h.leaveRoom here .offline env (fun left online => left.playerLogoutServer online)
    fun _ left _ _ online => left.playerLogoutServer online

/-- Whoever a server has at a table is on that server. -/
theorem Kept.forceExit (h : Kept C s) (me : ServerId) (p : Guid) (reason : StandupReason)
    (env : Env) : Kept C (s.forceExit C me p reason env) := by
  rw [System.forceExit]
  split
  · exact h
  · rename_i sits
    have some_table : (s.sessions me p).tableId ≠ none := by
      intro none
      rw [none] at sits
      exact sits rfl
    refine h.kickoutRoom ?_ reason env
    have place := h.place p
    cases at_ : s.serverOf p with
    | none =>
        rw [at_] at place
        cases place with
        | away _ un => exact absurd (un me) some_table
    | some g =>
        cases h.lobby_or_table at_ with
        | inl in_lobby => exact absurd (in_lobby.2.2.2.unseated me) some_table
        | inr at_table =>
            obtain ⟨_, _, tableId, chair, table⟩ := at_table
            by_cases same : me = g
            · rw [same]
            · exact absurd (table.elsewhere me same) some_table

theorem Kept.standUpAndExitRoom (h : Kept C s) (here : s.serverOf p = some me) (env : Env) :
    Kept C (s.standUpAndExitRoom C me p env) := by
  rw [System.standUpAndExitRoom]
  split
  · exact h
  · rename_i online
    have parts := not_or.1 (mt Bool.or_eq_true_iff.2 online)
    cases h.lobby_or_table here with
    | inl in_lobby => exact absurd (isInLobby_iff.2 in_lobby.1) parts.1
    | inr at_table =>
        obtain ⟨game, reg, tableId, chair, table⟩ := at_table
        obtain ⟨t, there, sits⟩ := table.sits
        simp only [table.sessionTable, table.sessionChair, there, Option.bind_some, sits,
          ne_eq, not_true_eq_false, if_false]
        split
        · rename_i eq
          have left := playerStandUp_spec h here reg table .normal env eq
          exact left.1.playerExitRoom left.2.1 game (left.2.2.trans (by simpa using parts.2)) false
        · rename_i eq
          exact playerStandUp_spec h here reg table .normal env eq

theorem Kept.logout (h : Kept C s) (here : s.serverOf p = some me) (env : Env) :
    Kept C (s.logout C p env) := by
  have server : (s.online p).server = some me := by
    cases h.lobby_or_table here with
    | inl in_lobby => exact in_lobby.2.2.1.server
    | inr at_table => exact at_table.2.1.server
  rw [System.logout]
  simp only [server]
  exact (h.exitServer here env).setSession me p _ rfl rfl

end FkServer.OnlineCounters
