import FkServer.MaajanXuezhan.Charges

/-!
Who deals next: the player whose tile several players won as the first winners of the round, else
the first winner. What decides it is fixed by the request with the first wins. Two things of the
source stand against it, and the runs looked at here are without them: a robbed gang counts all who
were asked as winners, and it takes the mark back from a player who is robbed later.
-/
namespace FkServer.MaajanXuezhan

variable {c : Conf} {ok : Guard} {win : Bool} {g g' : Game} {s s₁ s₂ : State}

namespace Game

/-- A gang is robbed for the first time by all who are asked or by one alone, and later not of a
player whose tile had several winners. -/
def Robbed (c : Conf) : Guard where
  give _ _ _ := True
  rob g winners offered := (g.winCount c = 0 → (1 < offered ↔ 1 < winners.length)) ∧
    (g.winCount c ≠ 0 → g.multi g.turn = false)

/-- Nobody has won, and nothing is marked. -/
structure Open (c : Conf) (g : Game) : Prop where
  nobody : g.winCount c = 0
  unmarked : ∀ i, g.multi i = false

/-- The next dealer is the one player marked. -/
structure Marked (c : Conf) (g : Game) (who : Nat) : Prop where
  seated : who ∈ c.seats
  mark : g.multi who = true
  others : ∀ i, i ≠ who → g.multi i = false

/-- The next dealer is the winner before all others. -/
structure First (c : Conf) (g : Game) (who : Nat) : Prop where
  seated : who ∈ c.seats
  unmarked : ∀ i, g.multi i = false
  first : ∃ w, g.won who = some w ∧
    ∀ i ∈ c.seats, i ≠ who → ∀ own, g.won i = some own → w.time < own.time

def Decided (c : Conf) (g : Game) (who : Nat) : Prop := g.Marked c who ∨ g.First c who

theorem winCount_congr (won : g'.won = g.won) : g'.winCount c = g.winCount c := by
  rw [winCount, winCount, won]

theorem winCount_eq_zero : g.winCount c = 0 ↔ ∀ i ∈ c.seats, g.won i = none := by
  simp [winCount, List.countP_eq_zero]

theorem claimWins_multi (c : Conf) (g : Game) (gang : Option Nat) (winners : List Nat)
    (tile : Nat) : (g.claimWins c gang winners tile).multi =
      if 1 < winners.length ∧ g.winCount c = 0 then alter g.multi g.turn fun _ => true
      else g.multi := by
  unfold claimWins popDesk
  dsimp only
  rw [(writes_mark gang (some g.turn)).foldl]

/-- The first winners are all winners. -/
theorem Won.winCount {winners : List Nat} {tile : Nat} (won : Won g winners tile g')
    (nobody : g.winCount c = 0) (nodup : winners.Nodup) (free : ∀ chair ∈ winners, g.Free c chair) :
    g'.winCount c = winners.length := by
  have same : (c.seats.filter fun chair => (g'.won chair).isSome).Perm winners := by
    rw [List.perm_ext_iff_of_nodup (c.seats_nodup.filter _) nodup]
    intro i
    rw [List.mem_filter]
    constructor
    · rintro ⟨seated, some⟩
      by_contra other
      rw [won.others i other, winCount_eq_zero.1 nobody i seated] at some
      cases some
    · intro winner
      obtain ⟨k, -, here⟩ := won.winners nodup i winner
      exact ⟨(free i winner).1, by rw [here]; rfl⟩
  rw [Game.winCount, List.countP_eq_length_filter, same.length_eq]

theorem winCount_winOne (nobody : g.winCount c = 0) {chair : Nat} (seated : chair ∈ c.seats)
    (ziMo : Option Bool) (whoee : Option Nat) : (g.winOne ziMo whoee chair).winCount c = 1 := by
  have only : ∀ i ∈ c.seats, ((g.winOne ziMo whoee chair).won i).isSome = (i == chair) := by
    intro i there
    by_cases here : i = chair
    · subst here
      simp [winOne]
    · simp [winOne, alter_of_ne here, winCount_eq_zero.1 nobody i there, here]
  rw [winCount, List.countP_congr fun i there => by rw [only i there]]
  exact (List.count_eq_one_of_mem c.seats_nodup seated)

/-- A single winner is the first. -/
theorem first_of_one (one : g.winCount c = 1) {who : Nat} {w : Win} (seated : who ∈ c.seats)
    (unmarked : ∀ i, g.multi i = false) (won : g.won who = some w) : g.First c who := by
  refine ⟨seated, unmarked, w, won, fun i there other own lost => ?_⟩
  exfalso
  have two : [who, i].Subperm (c.seats.filter fun chair => (g.won chair).isSome) := by
    refine List.subperm_of_subset (by simp [Ne.symm other]) ?_
    simp [seated, there, won, lost]
  have le := two.length_le
  rw [← List.countP_eq_length_filter, ← winCount, one] at le
  simp at le

end Game

/-! ### The request with the first wins -/

theorem Move.multi_of_quiet (move : Move c ok false g g') : g'.multi = g.multi := by
  cases move <;> rfl

theorem Quiet.same (moves : Quiet c ok g g') : g'.won = g.won ∧ g'.multi = g.multi := by
  induction moves with
  | refl => exact ⟨rfl, rfl⟩
  | tail _ last ih => exact ⟨last.won_of_quiet.trans ih.1, last.multi_of_quiet.trans ih.2⟩

/-- Before the first win nothing is marked. -/
theorem Game.Open.quiet (now : g.Open c) (move : Move c (Game.Robbed c) false g g') :
    g'.Open c where
  nobody := (Game.winCount_congr move.won_of_quiet).trans now.nobody
  unmarked i := by
    rw [move.multi_of_quiet]
    exact now.unmarked i

/-- Who deals next is decided with the first wins: by several winners for the player on turn. -/
theorem Game.Open.decided (now : g.Open c) (turn : TurnOk c g)
    (move : Move c (Game.Robbed c) true g g') :
    g'.winCount c ≠ 0 ∧ ∃ who, g'.Decided c who ∧
      if 1 < g'.winCount c then
        who = g.turn ∧ ∀ i ∈ c.seats, ∀ w, g'.won i = some w → w.whoee = some g.turn
      else (g'.won who).isSome := by
  have several : ∀ {winners : List Nat} {tile : Nat} {g₁ g₂ : Game} {from_ : Nat},
      Game.Won g winners tile g₁ → winners ≠ [] → winners.Nodup →
      (∀ chair ∈ winners, g.Free c chair) → g.turn ∈ c.seats →
      g₁.multi = alter g.multi g.turn (fun _ => decide (1 < winners.length)) →
      Game.AfterWin c g₁ from_ g₂ →
      g₂.winCount c ≠ 0 ∧ ∃ who, g₂.Decided c who ∧
        if 1 < g₂.winCount c then
          who = g.turn ∧ ∀ i ∈ c.seats, ∀ w, g₂.won i = some w → w.whoee = some g.turn
        else (g₂.won who).isSome := by
    intro winners tile g₁ g₂ from_ won somebody nodup free seated marked after
    have count : g₂.winCount c = winners.length := by
      rw [after.same]
      exact won.winCount now.nobody nodup free
    have pos : 0 < winners.length := List.length_pos_iff.2 somebody
    have multi : g₂.multi = g₁.multi := by rw [after.same]
    rw [count]
    refine ⟨by omega, ?_⟩
    by_cases many : 1 < winners.length
    · refine ⟨g.turn, .inl ⟨seated, ?_, fun i other => ?_⟩, ?_⟩
      · rw [multi, marked, alter_self]
        exact decide_eq_true many
      · rw [multi, marked, alter_of_ne other]
        exact now.unmarked i
      · rw [if_pos many]
        refine ⟨rfl, fun i there w here => ?_⟩
        rw [after.same] at here
        by_cases winner : i ∈ winners
        · obtain ⟨k, -, same⟩ := won.winners nodup i winner
          rw [show g₁.won i = some w from here] at same
          cases same
          rfl
        · have before := won.others i winner
          rw [show g₁.won i = some w from here, Game.winCount_eq_zero.1 now.nobody i there] at before
          cases before
    · obtain ⟨who, rest, rfl⟩ := List.exists_cons_of_length_pos pos
      obtain ⟨k, -, here⟩ := won.winners nodup who (.head _)
      have here : g₂.won who = some ⟨g.clock + k, some false, some g.turn⟩ := by
        rw [after.same]
        exact here
      have one : g₂.winCount c = 1 := by omega
      refine ⟨who, .inr (Game.first_of_one one (free who (.head _)).1 (fun i => ?_) here), ?_⟩
      · rw [multi, marked]
        by_cases own : i = g.turn
        · subst own
          rw [alter_self]
          exact decide_eq_false many
        · rw [alter_of_ne own]
          exact now.unmarked i
      · rw [if_neg many, here]
        rfl
  have turn : ∀ {phase : Phase}, g.phase = phase → phase ≠ .over → InTurn c g :=
    fun here not_over => turn (by rw [here]; exact not_over)
  cases move with
  | claimWins phase some nodup free top after =>
      rename_i winners tile gang
      refine several (Game.claimWins_won c g gang winners tile) some nodup free
        (turn phase nofun).seated ?_ after
      rw [Game.claimWins_multi]
      by_cases many : 1 < winners.length
      · rw [if_pos ⟨many, now.nobody⟩, decide_eq_true many]
      · rw [if_neg fun both => many both.1, decide_eq_false many]
        funext i
        by_cases own : i = g.turn
        · subst own
          rw [alter_self, now.unmarked]
        · rw [alter_of_ne own]
  | robWins phase some nodup free asked after =>
      rename_i winners offered from_ tile
      refine several (Game.robWins_won c g winners offered tile) some nodup free
        (turn phase nofun).seated ?_ after
      rw [(g.robWins_rest c winners offered tile).2.2.2]
      congr 1
      funext _
      have same := asked.1 now.nobody
      simp [now.nobody, same]
  | selfDraw phase drawn after =>
      rename_i drawn' whoee ziMo
      have seated := (turn phase nofun).seated
      have one : g'.winCount c = 1 := by
        rw [after.same]
        exact Game.winCount_winOne now.nobody seated ziMo whoee
      have here : g'.won g.turn = some ⟨g.clock, ziMo, whoee⟩ := by
        rw [after.same]
        dsimp only [Game.winOne]
        exact alter_self _ _ _
      refine ⟨by omega, g.turn, .inr (Game.first_of_one one seated (fun i => ?_) here), ?_⟩
      · rw [after.same]
        exact now.unmarked i
      · rw [one, if_neg (by omega), here]
        rfl

/-! ### What comes later -/

/-- No later win marks anybody or takes a mark away. -/
theorem Move.multi_of_winner (some_won : g.winCount c ≠ 0) (move : Move c (Game.Robbed c) win g g') :
    g'.multi = g.multi := by
  cases move with
  | claimWins phase some nodup free top after =>
      rename_i winners tile gang
      rw [after.same]
      dsimp only
      rw [Game.claimWins_multi, if_neg fun both => some_won both.2]
  | robWins phase some nodup free asked after =>
      rename_i winners offered from_ tile
      rw [after.same]
      dsimp only
      rw [(g.robWins_rest c winners offered tile).2.2.2]
      funext i
      by_cases own : i = g.turn
      · subst own
        rw [alter_self, asked.2 some_won]
        simp [some_won]
      · rw [alter_of_ne own]
  | selfDraw _ _ after =>
      rw [after.same]
      rfl
  | _ => rfl

theorem Game.winCount_mono (later : Later g g') : g.winCount c ≤ g'.winCount c := by
  refine List.countP_mono_left fun i _ won => ?_
  obtain same | ⟨none_won, -⟩ := later.2 i
  · rw [same]
    exact won
  · rw [none_won] at won
    cases won

/-- What the first wins have decided stays. -/
theorem Game.Decided.keep {who : Nat} (decided : g.Decided c who) (some_won : g.winCount c ≠ 0)
    (books : g.Books c) (turn : TurnOk c g) (move : Move c (Game.Robbed c) win g g') :
    g'.Decided c who := by
  have multi := move.multi_of_winner some_won
  have later := move.later turn
  cases decided with
  | inl marked =>
      refine .inl ⟨marked.seated, ?_, fun i other => ?_⟩
      · rw [multi, marked.mark]
      · rw [multi, marked.others i other]
  | inr first =>
      obtain ⟨w, won, before⟩ := first.first
      have stays : g'.won who = some w := move.won_keep turn won
      refine .inr ⟨first.seated, fun i => by rw [multi, first.unmarked], w, stays, ?_⟩
      intro i there other own lost
      obtain same | ⟨-, new⟩ := later.2 i
      · exact before i there other own (same ▸ lost)
      · exact (books.time who w won).trans_le (new own lost).1

/-- The settlement reads the decision. -/
theorem dingZhuang_decided {who : Nat} (decided : (abs s).Decided c who)
    (some_won : (abs s).winCount c ≠ 0) : dingZhuang c s = some who := by
  have count : huCount c s ≠ 0 := by
    rw [huCount_eq c s (phaseOf s)]
    exact some_won
  unfold dingZhuang
  rw [if_neg count]
  cases decided with
  | inl marked =>
      have found : c.seats.find? (fun chair => (s.player chair).firstMultiPao) = some who := by
        cases search : c.seats.find? (fun chair => (s.player chair).firstMultiPao) with
        | none =>
            exact absurd marked.mark (List.find?_eq_none.1 search who marked.seated)
        | some other =>
            by_contra differs
            have unmarked : (s.player other).firstMultiPao = false :=
              marked.others other fun same => differs (congrArg some same)
            have found := List.find?_some search
            rw [unmarked] at found
            cases found
      rw [found]
      rfl
  | inr first =>
      have none_marked : c.seats.find? (fun chair => (s.player chair).firstMultiPao) = none := by
        rw [List.find?_eq_none]
        intro i _ marked
        have unmarked : (s.player i).firstMultiPao = false := first.unmarked i
        rw [unmarked] at marked
        cases marked
      rw [none_marked, Option.none_or]
      obtain ⟨w, won, before⟩ := first.first
      obtain ⟨hu, here, time⟩ := Option.map_eq_some_iff.1 won
      have winner : who ∈ c.seats.filter fun chair => (s.player chair).hu.isSome :=
        List.mem_filter.2 ⟨first.seated, by rw [here]; rfl⟩
      cases least : (c.seats.filter fun chair => (s.player chair).hu.isSome).argmin
          fun chair => (s.player chair).hu.elim 0 Hu.time with
      | none =>
          rw [List.argmin_eq_none.1 least] at winner
          cases winner
      | some other =>
          by_contra differs
          obtain ⟨there, some_hu⟩ := List.mem_filter.1 (List.argmin_mem least)
          obtain ⟨own, lost⟩ := Option.isSome_iff_exists.1 some_hu
          have le := List.le_of_mem_argmin winner least
          simp only [here, lost, Option.elim_some] at le
          have lt := before other there (fun same => differs (congrArg some same)) own.toWin
            (congrArg (Option.map Hu.toWin) lost)
          rw [← time] at lt
          exact absurd le (not_le.2 lt)

/-! ### Runs -/

theorem Game.Decided.congr {who : Nat} (decided : g.Decided c who) (won : g'.won = g.won)
    (multi : g'.multi = g.multi) : g'.Decided c who := by
  obtain marked | first := decided
  · refine .inl ⟨marked.seated, ?_, ?_⟩ <;> rw [multi]
    · exact marked.mark
    · exact marked.others
  · refine .inr ⟨first.seated, ?_, ?_⟩
    · rw [multi]
      exact first.unmarked
    · rw [won]
      exact first.first

/-- Who deals next is decided by the request with the first wins. -/
theorem Game.Open.burst (now : g.Open c) (turn : TurnOk c g)
    (burst : Burst c (Game.Robbed c) g g') :
    g'.Open c ∨ g'.winCount c ≠ 0 ∧ ∃ who, g'.Decided c who ∧
      if 1 < g'.winCount c then
        who = g.turn ∧ ∀ i ∈ c.seats, ∀ w, g'.won i = some w → w.whoee = some g.turn
      else (g'.won who).isSome := by
  obtain rfl | ⟨win, g₁, first, rest⟩ := burst
  · exact .inl now
  have same := Quiet.same rest
  cases win with
  | false =>
      have still := now.quiet first
      exact .inl ⟨(Game.winCount_congr same.1).trans still.nobody,
        fun i => by rw [same.2, still.unmarked]⟩
  | true =>
      obtain ⟨some_won, who, decided, named⟩ := now.decided turn first
      rw [← Game.winCount_congr same.1] at some_won named
      refine .inr ⟨some_won, who, decided.congr same.1 same.2, ?_⟩
      rw [same.1]
      exact named

/-- And it stays decided. -/
theorem Burst.decided {who : Nat} (burst : Burst c (Game.Robbed c) g g') (turn : TurnOk c g)
    (books : g.Books c) (some_won : g.winCount c ≠ 0) (decided : g.Decided c who) :
    g'.winCount c ≠ 0 ∧ g'.Decided c who := by
  have kept := @Burst.keep c (Game.Robbed c)
    (fun g => TurnOk c g ∧ g.Books c ∧ g.winCount c ≠ 0 ∧ g.Decided c who) ?_ g g'
    ⟨turn, books, some_won, decided⟩ burst
  · exact kept.2.2
  · rintro _ g g' ⟨turn, books, some_won, decided⟩ move
    have more : g.winCount c ≤ g'.winCount c := Game.winCount_mono (move.later turn)
    exact ⟨move.turnOk turn, move.books books turn, by omega,
      decided.keep some_won books turn move⟩

/-- What the table knows in a round, whoever has won. -/
structure Played (c : Conf) (s : State) : Prop where
  turn : TurnOk c (abs s)
  books : (abs s).Books c
  offers : Offers c s
  scores : Scored c s

theorem Played.step {r : Request} (played : Played c s) (fair : StepOk ok s r)
    (h : step c s r = some s₁) : Played c s₁ := by
  obtain ⟨burst, offers⟩ := step_burst played.offers fair h
  have kept : TurnOk c (abs s₁) ∧ (abs s₁).Books c :=
    @Burst.keep c ok (fun g => TurnOk c g ∧ g.Books c)
      (fun _ _ _ inv move => ⟨move.turnOk inv.1, move.books inv.2 inv.1⟩) (abs s) (abs s₁)
      ⟨played.turn, played.books⟩ burst
  exact ⟨kept.1, kept.2, offers, (step_follows played.turn played.offers played.scores h).scores⟩

theorem Played.start (started : Started c s) : Played c s := by
  obtain ⟨g, dealt, quiet, offers⟩ := started_dealt Guard.any started
  have kept : TurnOk c (abs s) ∧ (abs s).Books c :=
    @Burst.keep c Guard.any (fun g => TurnOk c g ∧ g.Books c)
      (fun _ _ _ inv move => ⟨move.turnOk inv.1, move.books inv.2 inv.1⟩) g (abs s)
      ⟨dealt.turnOk, dealt.books⟩ (.of_quiet quiet)
  exact ⟨kept.1, kept.2, offers, started.quiet.2⟩

/-- As long as nobody has won nothing is marked. -/
theorem Round.unmarked (reached : Round c (Game.Robbed c) s) :
    Played c s ∧ ((abs s).winCount c = 0 → (abs s).Open c) := by
  refine @Runs.Reaches.invariant _ _ _ _ _
    (fun s => Played c s ∧ ((abs s).winCount c = 0 → (abs s).Open c)) _ reached (fun s started => ⟨.start started, fun nobody => ⟨nobody, fun i => ?_⟩⟩) ?_
  · obtain ⟨g, dealt, quiet, -⟩ := started_dealt (Game.Robbed c) started
    rw [(Quiet.same quiet).2]
    exact dealt.multi i
  · intro s r s₁ inv fair next
    obtain ⟨burst, -⟩ := step_burst inv.1.offers fair next
    refine ⟨inv.1.step fair next, fun nobody => ?_⟩
    have before : (abs s).winCount c = 0 :=
      Nat.le_zero.1 ((Game.winCount_mono (burst.later inv.1.turn)).trans nobody.le)
    exact ((inv.2 before).burst inv.1.turn burst).resolve_right fun some_won => some_won.1 nobody

/-- Let one request bring the first wins of a round. If it brings several, then all of them are wins
of a tile of the player who was on turn, and this player deals next, however the round goes on; and
if it brings one, then its winner deals next. -/
theorem next_dealer (reached : Round c (Game.Robbed c) s) (nobody : huCount c s = 0) {r : Request}
    (fair : StepOk (Game.Robbed c) s r) (next : step c s r = some s₁) (won : huCount c s₁ ≠ 0)
    (later : Runs.Reaches (· = s₁) (Steps c) (StepOk (Game.Robbed c)) s₂) {scores : Nat → Int}
    {zhuang : Nat} (ended : s₂.fsm = .over scores zhuang) :
    if 1 < huCount c s₁ then
      zhuang = s.chuPaiPlayerIndex ∧ ∀ i ∈ c.seats, ∀ hu, (s₁.player i).hu = some hu →
        hu.whoee = some s.chuPaiPlayerIndex
    else (s₁.player zhuang).hu.isSome := by
  obtain ⟨played, is_open⟩ := reached.unmarked
  have count : ∀ s, huCount c s = (abs s).winCount c := fun s => huCount_eq c s (phaseOf s)
  rw [count] at nobody won ⊢
  obtain ⟨burst, -⟩ := step_burst played.offers fair next
  obtain ⟨some_won, who, decided, named⟩ :=
    ((is_open nobody).burst played.turn burst).resolve_left fun still => won still.nobody
  have last : Played c s₂ ∧ (abs s₂).winCount c ≠ 0 ∧ (abs s₂).Decided c who := by
    refine @Runs.Reaches.invariant _ _ _ _ _
      (fun s => Played c s ∧ (abs s).winCount c ≠ 0 ∧ (abs s).Decided c who) _ later ?_ ?_
    · rintro _ rfl
      exact ⟨played.step fair next, some_won, decided⟩
    · intro s₃ r s₄ inv fair next
      obtain ⟨burst, -⟩ := step_burst inv.1.offers fair next
      exact ⟨inv.1.step fair next, burst.decided inv.1.turn inv.1.books inv.2.1 inv.2.2⟩
  have same : zhuang = who := by
    rw [(last.1.scores scores zhuang ended).2, dingZhuang_decided last.2.2 last.2.1]
    rfl
  subst same
  split at named
  · rename_i many
    rw [if_pos many]
    refine ⟨named.1, fun i there hu here => ?_⟩
    exact named.2 i there hu.toWin (congrArg (Option.map Hu.toWin) here)
  · rename_i one
    rw [if_neg one]
    simpa [abs, view] using named

/-- The dealer has a complete hand, and so it stays the dealer. -/
theorem complete_hand_deals : ∃ (s : State) (scores : Nat → Int) (zhuang : Nat),
    s.fsm = .over scores zhuang ∧ (s.player zhuang).hu.isSome := by
  obtain ⟨s, s', started, nobody, unrobbed, next, one, scores, zhuang, ended, -⟩ := complete_hand
  have fair : StepOk (Game.Robbed noExchange) s ⟨1, .doAction .ziMo 11 1, 0⟩ := by
    refine ⟨fun _ _ => trivial, fun winners offered robs => ?_⟩
    rw [unrobbed] at robs
    cases robs
  have dealer := next_dealer (.start started) nobody fair next (by omega) (.start rfl) ended
  rw [if_neg (by omega)] at dealer
  exact ⟨s', scores, zhuang, ended, dealer⟩

end FkServer.MaajanXuezhan
