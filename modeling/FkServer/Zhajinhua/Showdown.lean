import Mathlib.Data.List.Pairwise
import FkServer.Library.LuaSort
import FkServer.Zhajinhua.CardsUtil

/-!
The showdowns of `zhajinhua_table`: `compare_with_all`, which every caller asks for a player
it has just marked all in, and `compare_each_other`. Both tell `compare_player` whether more
than two hands are compared, and both count the hands of the players who are not all in; the
first one thereby leaves its own player out.
-/
namespace FkServer.Zhajinhua

structure Gamer where
  chair : Nat
  hand : Hand
  allIn : Bool
  death : Bool

/-- `not p.all_in and not p.death` -/
def Gamer.live (p : Gamer) : Bool := !p.allIn && !p.death

/-- The gamers of a table, dealt from one deck. -/
structure Table where
  gamers : List Gamer
  play : Option Play
  chairs : (gamers.map Gamer.chair).Nodup
  disjoint : gamers.Pairwise fun p q => ∀ card ∈ p.hand.cards, card ∉ q.hand.cards

namespace Table
variable (t : Table)

/-- `compare_player` as the showdowns call it when they count `count` hands. -/
def beats (count : Nat) (l r : Gamer) : Bool :=
  comparePlayer t.play l.hand.type r.hand.type true (2 < count)

/-- `zhajinhua_table:compare_with_all` -/
def compareWithAll (player : Gamer) : Bool :=
  let allCount := t.gamers.countP Gamer.live
  t.gamers.all fun p =>
    p.allIn || p.death || p.chair = player.chair || t.beats allCount player p

/-- The first of some gamers after they are sorted; the order is asked for these only. -/
def bestOf (lua : LuaSort) (gamers : List Gamer) : Option Gamer :=
  (lua.sort (fun l r : {p // p ∈ gamers} => t.beats gamers.length l.1 r.1)
    gamers.attach).head?.map (·.1)

/-- `zhajinhua_table:compare_each_other` -/
def compareEachOther (lua : LuaSort) : Option Gamer := t.bestOf lua (t.gamers.filter Gamer.live)

/-- The gamers whose hands a player is compared with. -/
def others (player : Gamer) : List Gamer :=
  t.gamers.filter fun p => p.live && p.chair ≠ player.chair

/-- The hands that remain while a player is compared: its own and the others. -/
def remaining (player : Gamer) : List Gamer :=
  t.gamers.filter fun p => p.live || p.chair = player.chair

/-- The option that lets the 235 beat three of a kind. -/
def exception : Bool := t.play.any (·.baoziLessThan235)

end Table

section Beats
variable {t : Table} {p q r : Gamer} {count : Nat}

theorem Table.same_of_chair (hp : p ∈ t.gamers) (hq : q ∈ t.gamers) (same : p.chair = q.chair) :
    p = q :=
  List.inj_on_of_nodup_map t.chairs hp hq same

theorem Table.apart (hp : p ∈ t.gamers) (hq : q ∈ t.gamers) (chairs : p.chair ≠ q.chair) :
    ∀ card ∈ p.hand.cards, card ∉ q.hand.cards := by
  have symm : Std.Symm fun p q : Gamer => ∀ card ∈ p.hand.cards, card ∉ q.hand.cards :=
    ⟨fun _ _ apart card mem mem' => apart card mem' mem⟩
  exact t.disjoint.forall hp hq fun same => chairs (congrArg Gamer.chair same)

/-- The order of the hands where the exception is out of play. -/
theorem Table.beats_usual (usual : 2 < count ∨ t.exception = false ∨
      ¬(p.hand.type.type = .baoZi ∧ q.hand.type.type = .ct235) ∧
        ¬(p.hand.type.type = .ct235 ∧ q.hand.type.type = .baoZi)) :
    t.beats count p q = decide (q.hand.type.key t.play < p.hand.type.key t.play) := by
  apply comparePlayer_of_usual p.hand.bounded q.hand.bounded
  rcases usual with many | off | kinds
  · simp [many]
  · have off : t.play.any (·.baoziLessThan235) = false := off
    simp [off]
  · exact .inr kinds

theorem Table.beats_irrefl (t : Table) (count : Nat) (p : Gamer) : t.beats count p p = false := by
  rw [t.beats_usual (.inr (.inr ⟨?_, ?_⟩)), decide_eq_false_iff_not]
  · exact Nat.lt_irrefl _
  · exact fun ⟨one, two⟩ => CardsKind.noConfusion (one.symm.trans two)
  · exact fun ⟨one, two⟩ => CardsKind.noConfusion (one.symm.trans two)

/-- With the option on, the 235 and three of a kind are turned round between two hands. -/
theorem Table.beats_exception (few : ¬2 < count) (on : t.exception = true) :
    (p.hand.type.type = .baoZi → q.hand.type.type = .ct235 → t.beats count p q = false) ∧
      (p.hand.type.type = .ct235 → q.hand.type.type = .baoZi → t.beats count p q = true) := by
  rw [Table.beats, decide_eq_false few]
  exact comparePlayer_of_exception on

/-- Of two hands exactly one beats the other. -/
theorem Table.beats_one_way (count : Nat) (hp : p ∈ t.gamers) (hq : q ∈ t.gamers)
    (chairs : p.chair ≠ q.chair) : t.beats count q p = !t.beats count p q := by
  by_cases usual : 2 < count ∨ t.exception = false ∨
      ¬(p.hand.type.type = .baoZi ∧ q.hand.type.type = .ct235) ∧
        ¬(p.hand.type.type = .ct235 ∧ q.hand.type.type = .baoZi)
  · have keys : p.hand.type.key t.play ≠ q.hand.type.key t.play := by
      intro same
      obtain ⟨card, mem, mem'⟩ := Hand.share_of_key same
      exact t.apart hp hq chairs card mem mem'
    have usual' : 2 < count ∨ t.exception = false ∨
        ¬(q.hand.type.type = .baoZi ∧ p.hand.type.type = .ct235) ∧
          ¬(q.hand.type.type = .ct235 ∧ p.hand.type.type = .baoZi) :=
      usual.imp_right (Or.imp_right fun ⟨one, two⟩ => ⟨fun h => two h.symm, fun h => one h.symm⟩)
    rw [t.beats_usual usual, t.beats_usual usual', ← decide_not]
    exact decide_eq_decide.2 (by omega)
  · rw [not_or, not_or] at usual
    obtain ⟨few, on, kinds⟩ := usual
    have on : t.exception = true := by simpa using on
    have turned := t.beats_exception (p := p) (q := q) few on
    have turned' := t.beats_exception (p := q) (q := p) few on
    by_cases left : p.hand.type.type = .baoZi ∧ q.hand.type.type = .ct235
    · rw [turned.1 left.1 left.2, turned'.2 left.2 left.1]
      rfl
    · have right : p.hand.type.type = .ct235 ∧ q.hand.type.type = .baoZi := by
        by_contra right
        exact kinds ⟨left, right⟩
      rw [turned.2 right.1 right.2, turned'.1 right.2 right.1]
      rfl

theorem Table.beats_trans (usual : 2 < count ∨ t.exception = false)
    (first : t.beats count p q = true) (second : t.beats count q r = true) :
    t.beats count p r = true := by
  have usual' : ∀ kinds : Prop, 2 < count ∨ t.exception = false ∨ kinds :=
    fun _ => usual.imp_right .inl
  rw [t.beats_usual (usual' _), decide_eq_true_eq] at first second ⊢
  exact second.trans first

end Beats

section BestOf
variable {t : Table} {gamers : List Gamer} {lua : LuaSort} {w : Gamer}

/-- Among some gamers of the table the comparison is a strict order, as `table.sort` needs:
by the keys when there are more than two, and without any third one otherwise. -/
theorem Table.beats_strictOrder (part : gamers.Sublist t.gamers) :
    StrictOrder fun l r : {p // p ∈ gamers} => t.beats gamers.length l.1 r.1 := by
  have inside : ∀ p : {p // p ∈ gamers}, p.1 ∈ t.gamers := fun p => part.subset p.2
  have swap : ∀ a b : {p // p ∈ gamers}, a ≠ b →
      t.beats gamers.length b.1 a.1 = !t.beats gamers.length a.1 b.1 := by
    intro a b differ
    refine t.beats_one_way _ (inside a) (inside b) fun chairs => differ ?_
    exact Subtype.ext (t.same_of_chair (inside a) (inside b) chairs)
  refine ⟨fun a b h => ?_, fun a b c h h' => ?_⟩
  · by_cases same : a = b
    · rw [same, t.beats_irrefl]
    · rw [swap a b same, h]
      rfl
  · by_cases ab : a = b
    · exact ab ▸ h'
    · by_cases bc : b = c
      · exact bc ▸ h
      · by_cases ac : a = c
        · rw [ac, t.beats_irrefl]
        · have many : 2 < gamers.length := by
            have nodup : [a.1, b.1, c.1].Nodup := by
              simp [Subtype.ext_iff.not.1 ab, Subtype.ext_iff.not.1 bc, Subtype.ext_iff.not.1 ac]
            have subset : [a.1, b.1, c.1] ⊆ gamers := by
              intro p mem
              simp only [List.mem_cons, List.not_mem_nil, or_false] at mem
              rcases mem with rfl | rfl | rfl
              · exact a.2
              · exact b.2
              · exact c.2
            exact (List.subperm_of_subset nodup subset).length_le
          have second : t.beats gamers.length c.1 b.1 = true := by
            rw [swap b c bc, h']
            rfl
          have first : t.beats gamers.length b.1 a.1 = true := by
            rw [swap a b ab, h]
            rfl
          have third := t.beats_trans (.inl many) second first
          rw [swap c a (Ne.symm ac), third]
          rfl

/-- What the sort puts first is the one gamer that beats the others. -/
theorem Table.bestOf_iff (part : gamers.Sublist t.gamers) :
    t.bestOf lua gamers = some w ↔
      w ∈ gamers ∧ ∀ p ∈ gamers, p.chair ≠ w.chair → t.beats gamers.length w p = true := by
  have best : ∀ {w : Gamer}, t.bestOf lua gamers = some w →
      w ∈ gamers ∧ ∀ p ∈ gamers, p.chair ≠ w.chair → t.beats gamers.length w p = true := by
    intro w h
    obtain ⟨first, head, rfl⟩ := Option.map_eq_some_iff.1 h
    refine ⟨first.2, fun p mem chairs => ?_⟩
    have sorted := lua.sorted _ (t.beats_strictOrder part) gamers.attach
    have there : (⟨p, mem⟩ : {p // p ∈ gamers}) ∈ lua.sort
        (fun l r : {p // p ∈ gamers} => t.beats gamers.length l.1 r.1) gamers.attach :=
      (lua.perm _ _).mem_iff.2 (List.mem_attach _ _)
    obtain ⟨rest, list⟩ := List.head?_eq_some_iff.1 head
    rw [list] at sorted there
    have behind : (⟨p, mem⟩ : {p // p ∈ gamers}) ∈ rest := by
      refine (List.mem_cons.1 there).resolve_left fun same => chairs ?_
      exact congrArg (fun q : {p // p ∈ gamers} => q.1.chair) same
    have loses := (List.pairwise_cons.1 sorted).1 _ behind
    have other := t.beats_one_way gamers.length (part.subset first.2) (part.subset mem)
      (Ne.symm chairs)
    rw [loses] at other
    simpa using other.symm
  refine ⟨best, fun ⟨mem, beats⟩ => ?_⟩
  cases h : t.bestOf lua gamers with
  | none =>
      have empty : gamers.attach = [] := lua.head_eq_none_iff.1 (Option.map_eq_none_iff.1 h)
      rw [List.attach_eq_nil_iff] at empty
      exact absurd mem (empty ▸ List.not_mem_nil)
  | some first =>
      obtain ⟨there, first_beats⟩ := best h
      by_cases chairs : first.chair = w.chair
      · rw [t.same_of_chair (part.subset there) (part.subset mem) chairs]
      · have one := beats first there chairs
        have other := first_beats w mem (Ne.symm chairs)
        rw [t.beats_one_way _ (part.subset there) (part.subset mem) chairs, other] at one
        cases one

theorem Table.bestOf_isSome (some : gamers ≠ []) : ∃ w, t.bestOf lua gamers = .some w := by
  cases h : t.bestOf lua gamers with
  | none =>
      have empty : gamers.attach = [] := lua.head_eq_none_iff.1 (Option.map_eq_none_iff.1 h)
      exact absurd (List.attach_eq_nil_iff.1 empty) some
  | some w => exact ⟨w, rfl⟩

end BestOf

section Agreement
variable {t : Table} {lua : LuaSort} {player p : Gamer}

theorem Table.nodup (t : Table) : t.gamers.Nodup := t.chairs.of_map

theorem Table.compareWithAll_iff :
    t.compareWithAll player = true ↔
      ∀ p ∈ t.others player, t.beats (t.gamers.countP Gamer.live) player p = true := by
  simp only [Table.compareWithAll, Table.others, List.all_eq_true, List.mem_filter, Gamer.live,
    Bool.or_eq_true, Bool.and_eq_true, Bool.not_eq_true', decide_eq_true_eq]
  refine forall_congr' fun p => ⟨?_, ?_⟩
  · rintro h ⟨mem, live, chairs⟩
    rcases h mem with ((allIn | death) | same) | beats
    · exact absurd allIn (by simp [live.1])
    · exact absurd death (by simp [live.2])
    · exact absurd same chairs
    · exact beats
  · intro h mem
    by_cases allIn : p.allIn = true
    · exact .inl (.inl (.inl allIn))
    · by_cases death : p.death = true
      · exact .inl (.inl (.inr death))
      · by_cases same : p.chair = player.chair
        · exact .inl (.inr same)
        · exact .inr (h ⟨mem, ⟨by simpa using allIn, by simpa using death⟩, same⟩)

theorem Table.remaining_perm (mem : player ∈ t.gamers) :
    (t.remaining player).Perm (player :: t.others player) := by
  have fresh : player ∉ t.others player := by simp [Table.others]
  refine (List.perm_ext_iff_of_nodup (t.nodup.filter _)
    (List.nodup_cons.2 ⟨fresh, t.nodup.filter _⟩)).2 fun p => ?_
  simp only [Table.others, List.mem_filter, List.mem_cons, Bool.or_eq_true, Bool.and_eq_true,
    decide_eq_true_eq]
  constructor
  · rintro ⟨there, live⟩
    by_cases same : p.chair = player.chair
    · exact .inl (t.same_of_chair there mem same)
    · exact .inr ⟨there, live.resolve_right same, same⟩
  · rintro (rfl | ⟨there, live, _⟩)
    · exact ⟨mem, .inr rfl⟩
    · exact ⟨there, .inl live⟩

/-- A player is the best of the hands that remain when it beats all the others. -/
theorem Table.bestOf_remaining_iff (mem : player ∈ t.gamers) :
    t.bestOf lua (t.remaining player) = some player ↔
      ∀ p ∈ t.others player, t.beats ((t.others player).length + 1) player p = true := by
  have perm := t.remaining_perm mem
  have part : (t.remaining player).Sublist t.gamers := List.filter_sublist
  rw [t.bestOf_iff part, perm.length_eq, List.length_cons]
  constructor
  · intro ⟨_, best⟩ p there
    refine best p (perm.mem_iff.2 (List.mem_cons_of_mem _ there)) ?_
    exact of_decide_eq_true (Bool.and_eq_true_iff.1 (List.mem_filter.1 there).2).2
  · intro best
    refine ⟨perm.mem_iff.2 List.mem_cons_self, fun p there chairs => ?_⟩
    rcases List.mem_cons.1 (perm.mem_iff.1 there) with rfl | other
    · exact absurd rfl chairs
    · exact best p other

/-- How many hands `compare_with_all` counts. -/
theorem Table.countP_live (mem : player ∈ t.gamers) (alive : player.death = false) :
    t.gamers.countP Gamer.live =
      (t.others player).length + if player.allIn then 0 else 1 := by
  rw [List.countP_eq_length_filter]
  cases allIn : player.allIn with
  | true =>
      have same : t.gamers.filter Gamer.live = t.others player := by
        refine List.filter_congr fun p there => ?_
        by_cases chairs : p.chair = player.chair
        · rw [t.same_of_chair there mem chairs]
          simp [Gamer.live, allIn]
        · simp [chairs]
      rw [same]
      rfl
  | false =>
      have same : t.gamers.filter Gamer.live = t.remaining player := by
        refine List.filter_congr fun p there => ?_
        by_cases chairs : p.chair = player.chair
        · rw [t.same_of_chair there mem chairs]
          simp [Gamer.live, allIn, alive]
        · simp [chairs]
      rw [same, (t.remaining_perm mem).length_eq]
      rfl

/-- Where the exception turns the outcome round: three of a kind that beats all the others
meets a 235, or a 235 meets triples and lower 235s only. -/
inductive Turns (player : Gamer) (others : List Gamer) : Prop
  | baoZi {p : Gamer} : player.hand.type.type = .baoZi → p ∈ others →
      p.hand.type.type = .ct235 →
      (∀ q ∈ others, q.hand.type.type = .baoZi →
        q.hand.type.val 3 1 < player.hand.type.val 3 1) → Turns player others
  | ct235 {p : Gamer} : player.hand.type.type = .ct235 → p ∈ others →
      p.hand.type.type = .baoZi →
      (∀ q ∈ others, q.hand.type.type = .baoZi ∨ (q.hand.type.type = .ct235 ∧
        player.hand.type.tieColor < q.hand.type.tieColor)) → Turns player others

/-- A player all in against two others, where the exception decides. -/
structure Slip (t : Table) (player : Gamer) : Prop where
  option : t.exception = true
  allIn : player.allIn = true
  two : (t.others player).length = 2
  turns : Turns player (t.others player)

theorem beats_of_baoZi (kind : player.hand.type.type = .baoZi) :
    t.beats 3 player p = true ↔
      (p.hand.type.type = .baoZi → p.hand.type.val 3 1 < player.hand.type.val 3 1) := by
  cases other : p.hand.type.type <;>
    simp [Table.beats, comparePlayer, compare, kind, other, CardsKind.rank, isA23]

theorem beats_of_ct235 (kind : player.hand.type.type = .ct235) :
    t.beats 3 player p = true ↔
      (p.hand.type.type = .ct235 ∧ player.hand.type.tieColor < p.hand.type.tieColor) := by
  cases other : p.hand.type.type <;>
    simp [Table.beats, comparePlayer, compare, kind, other, CardsKind.rank, isA23,
      CardsType.tieColor]

/-- Between two hands the option changes the outcome in the two turned cases only. -/
theorem turns_iff (on : t.exception = true) {others : List Gamer} :
    ((∀ p ∈ others, t.beats 2 player p = true) ↔ ∀ p ∈ others, t.beats 3 player p = true) ↔
      ¬Turns player others := by
  have few : ¬2 < 2 := Nat.lt_irrefl 2
  have usual : ∀ p : Gamer, ¬(player.hand.type.type = .baoZi ∧ p.hand.type.type = .ct235) →
      ¬(player.hand.type.type = .ct235 ∧ p.hand.type.type = .baoZi) →
      t.beats 2 player p = t.beats 3 player p := by
    intro p one two
    rw [t.beats_usual (.inr (.inr ⟨one, two⟩)), t.beats_usual (.inl (Nat.lt_succ_self 2))]
  by_cases triple : player.hand.type.type = .baoZi
  · have not_235 : player.hand.type.type ≠ .ct235 := by simp [triple]
    have same : ∀ p : Gamer, t.beats 2 player p = true ↔
        t.beats 3 player p = true ∧ p.hand.type.type ≠ .ct235 := by
      intro p
      by_cases low : p.hand.type.type = .ct235
      · simp [(t.beats_exception few on).1 triple low, low]
      · simp [usual p (fun h => low h.2) (fun h => not_235 h.1), low]
    simp only [same, forall_and]
    constructor
    · intro agree turns
      cases turns with
      | baoZi _ mem low beaten =>
          refine (agree.2 fun q there => ?_).2 _ mem low
          exact (beats_of_baoZi triple).2 (beaten q there)
      | ct235 other => exact not_235 other
    · intro straight
      refine ⟨And.left, fun all => ⟨all, fun p mem low => straight ?_⟩⟩
      exact .baoZi triple mem low fun q there => (beats_of_baoZi triple).1 (all q there)
  · by_cases low : player.hand.type.type = .ct235
    · have same : ∀ p : Gamer, t.beats 2 player p = true ↔
          (p.hand.type.type = .baoZi ∨ t.beats 3 player p = true) := by
        intro p
        by_cases other : p.hand.type.type = .baoZi
        · simp [(t.beats_exception few on).2 low other, other]
        · simp [usual p (fun h => triple h.1) (fun h => other h.2), other]
      simp only [same]
      constructor
      · intro agree turns
        cases turns with
        | baoZi other => exact triple other
        | ct235 _ mem other beaten =>
            have wins := agree.1 fun q there => (beaten q there).imp_right (beats_of_ct235 low).2
            have kind := ((beats_of_ct235 low).1 (wins _ mem)).1
            simp [other] at kind
      · intro straight
        refine ⟨fun all q there => ?_, fun all q there => .inr (all q there)⟩
        refine (all q there).resolve_left fun other => straight ?_
        exact .ct235 low there other fun q there =>
          (all q there).imp_right (beats_of_ct235 low).1
    · have same : ∀ p : Gamer, t.beats 2 player p = t.beats 3 player p := fun p =>
        usual p (fun h => triple h.1) fun h => low h.1
      simp only [same, true_iff]
      rintro (⟨other⟩ | ⟨other⟩)
      · exact triple other
      · exact low other

/-- Comparing with all agrees with sorting the hands that remain, but for the slip. -/
theorem Table.agrees_iff (mem : player ∈ t.gamers) (alive : player.death = false) :
    (t.compareWithAll player = true ↔ t.bestOf lua (t.remaining player) = some player) ↔
      ¬Slip t player := by
  rw [t.compareWithAll_iff, t.bestOf_remaining_iff mem, t.countP_live mem alive]
  by_cases slips : t.exception = true ∧ player.allIn = true ∧ (t.others player).length = 2
  · obtain ⟨on, allIn, two⟩ := slips
    rw [if_pos allIn, two, turns_iff on]
    exact ⟨fun straight slip => straight slip.turns, fun no turns => no ⟨on, allIn, two, turns⟩⟩
  · have same : ∀ p : Gamer,
        t.beats ((t.others player).length + if player.allIn then 0 else 1) player p =
          t.beats ((t.others player).length + 1) player p := by
      intro p
      by_cases on : t.exception = true
      · by_cases allIn : player.allIn = true
        · have three : (t.others player).length ≠ 2 := fun two => slips ⟨on, allIn, two⟩
          have flag : decide (2 < (t.others player).length) =
              decide (2 < (t.others player).length + 1) := decide_eq_decide.2 (by omega)
          rw [if_pos allIn, Table.beats, Table.beats, Nat.add_zero, flag]
        · rw [if_neg allIn]
      · have off : t.exception = false := by simpa using on
        rw [t.beats_usual (.inr (.inl off)), t.beats_usual (.inr (.inl off))]
    simp only [same, true_iff]
    exact fun slip => slips ⟨slip.option, slip.allIn, slip.two⟩

/-- The showdowns of a table order its hands: each way of comparing is irreflexive and one
way, it is transitive but for the exception, which two hands at most know, and the two
showdowns find the hand that beats all others. -/
structure Orderly (lua : LuaSort) (t : Table) (player : Gamer) : Prop where
  irrefl : ∀ count p, t.beats count p p = false
  one_way : ∀ count, ∀ p ∈ t.gamers, ∀ q ∈ t.gamers, p.chair ≠ q.chair →
    t.beats count q p = !t.beats count p q
  trans : ∀ count, 2 < count ∨ t.exception = false → ∀ p q r, t.beats count p q = true →
    t.beats count q r = true → t.beats count p r = true
  exception : ∀ count p q, t.beats count p q ≠ t.beats 3 p q → count ≤ 2 ∧ t.exception = true ∧
    (p.hand.type.type = .baoZi ∧ q.hand.type.type = .ct235 ∨
      p.hand.type.type = .ct235 ∧ q.hand.type.type = .baoZi)
  best : ∀ w, t.compareEachOther lua = some w ↔ w ∈ t.gamers.filter Gamer.live ∧
    ∀ p ∈ t.gamers.filter Gamer.live, p.chair ≠ w.chair →
      t.beats (t.gamers.filter Gamer.live).length w p = true
  found : t.gamers.filter Gamer.live ≠ [] → ∃ w, t.compareEachOther lua = some w
  agrees : t.compareWithAll player = true ↔ t.bestOf lua (t.remaining player) = some player

/-- The showdowns are orderly exactly where a player all in against two others has neither
three of a kind that the exception turns down nor a 235 that it lifts. -/
theorem orderly_iff (lua : LuaSort) (t : Table) (player : Gamer) (mem : player ∈ t.gamers)
    (alive : player.death = false) : Orderly lua t player ↔ ¬Slip t player := by
  refine ⟨fun orderly => (t.agrees_iff mem alive).1 orderly.agrees, fun no => ?_⟩
  exact {
    irrefl := t.beats_irrefl
    one_way := fun count p hp q hq chairs => t.beats_one_way count hp hq chairs
    trans := fun count usual p q r => t.beats_trans usual
    exception := by
      intro count p q differ
      by_contra usual
      refine differ ?_
      rw [t.beats_usual ?_, t.beats_usual (.inl (Nat.lt_succ_self 2))]
      by_cases many : 2 < count
      · exact .inl many
      · by_cases on : t.exception = true
        · refine .inr (.inr ⟨fun kinds => usual ?_, fun kinds => usual ?_⟩)
          · exact ⟨Nat.not_lt.1 many, on, .inl kinds⟩
          · exact ⟨Nat.not_lt.1 many, on, .inr kinds⟩
        · exact .inr (.inl (by simpa using on))
    best := fun w => t.bestOf_iff List.filter_sublist
    found := t.bestOf_isSome
    agrees := (t.agrees_iff mem alive).2 no }

/-- Three twos, a 235 and a plain hand, dealt from one deck. -/
def twos : Hand := ⟨[2, 22, 42], rfl, by decide, by decide⟩

def mixed235 : Hand := ⟨[62, 3, 25], rfl, by decide, by decide⟩

def plainHand : Hand := ⟨[7, 29, 51], rfl, by decide, by decide⟩

/-- The twos are all in against the other two, with the option on. -/
def threeLeft : Table where
  gamers := [⟨1, twos, true, false⟩, ⟨2, mixed235, false, false⟩, ⟨3, plainHand, false, false⟩]
  play := some ⟨false, true, false⟩
  chairs := by decide
  disjoint := by decide

/-- The triple is the best of the three hands, and still `compare_with_all` turns it down. -/
theorem triple_turned_down :
    threeLeft.compareWithAll ⟨1, twos, true, false⟩ = false ∧
      threeLeft.bestOf LuaSort.insertion (threeLeft.remaining ⟨1, twos, true, false⟩) =
        some ⟨1, twos, true, false⟩ ∧
      ¬Orderly LuaSort.insertion threeLeft ⟨1, twos, true, false⟩ := by
  have member : (⟨1, twos, true, false⟩ : Gamer) ∈ threeLeft.gamers := List.mem_cons_self
  have down : threeLeft.compareWithAll ⟨1, twos, true, false⟩ = false := by decide
  have best : threeLeft.bestOf LuaSort.insertion (threeLeft.remaining ⟨1, twos, true, false⟩) =
      some ⟨1, twos, true, false⟩ := (threeLeft.bestOf_remaining_iff member).2 (by decide)
  refine ⟨down, best, fun orderly => ?_⟩
  have up := orderly.agrees.2 best
  rw [down] at up
  cases up

/-- The twos are all in against two plain hands. -/
def plainLeft : Table where
  gamers := [⟨1, twos, true, false⟩, ⟨2, ⟨[66, 10, 31], rfl, by decide, by decide⟩, false, false⟩,
    ⟨3, plainHand, false, false⟩]
  play := some ⟨false, true, false⟩
  chairs := by decide
  disjoint := by decide

theorem all_in_orderly : Orderly LuaSort.insertion plainLeft ⟨1, twos, true, false⟩ ∧
    plainLeft.compareWithAll ⟨1, twos, true, false⟩ = true := by
  refine ⟨(orderly_iff _ _ _ List.mem_cons_self rfl).2 fun slip => ?_, by decide⟩
  cases slip.turns with
  | baoZi _ member mixed =>
      exact absurd mixed ((show ∀ p ∈ plainLeft.others ⟨1, twos, true, false⟩,
        p.hand.type.type ≠ .ct235 by decide) _ member)
  | ct235 kind => exact absurd kind (by decide)

end Agreement
end FkServer.Zhajinhua
