import Mathlib.Algebra.BigOperators.Group.Multiset.Basic
import Mathlib.Data.Multiset.Bind
import FkServer.Library.UndoSearch
import FkServer.MaajanXuezhan.ReadyTiles
import FkServer.MaajanXuezhan.HuTypes

/-!
`is_hu` and `hu` of `base/rule` on the record they share between their calls: the counts,
the pair once it is taken, and the sections of the branch. `is_hu` leaves the counts of a
branch that wins where they are; `hu` comes back to the counts it was given and lists all
ways in which the tiles fall into triplets, runs and at most one pair.
-/
namespace FkServer.MaajanXuezhan.Rule
open BlockCover
open UndoSearch (Move Answers Gathers firstOf allOf firstOf_answers allOf_gathers)

variable {counts : Counts} {fuel : Nat}

/-- `state` of the searches. -/
structure SearchState where
  counts : Counts
  jiang : Option Nat
  sections : List HuSection

/-- The tiles of a run taken one after the other. -/
def takeRun (counts : Counts) (tile : Nat) : Counts :=
  decr (decr (decr counts tile 1) (tile + 1) 1) (tile + 2) 1

def putRun (counts : Counts) (tile : Nat) : Counts :=
  incr (incr (incr counts tile 1) (tile + 1) 1) (tile + 2) 1

/-- The three branches of `is_hu`. -/
def isHuMoves (index : Nat) : List (Move SearchState) :=
  [{ allowed := fun s => decide (3 ≤ s.counts index)
     take := fun s => { s with counts := decr s.counts index 3 }
     undo := fun s => { s with counts := incr s.counts index 3 } },
   { allowed := fun s => s.jiang.isNone && decide (2 ≤ s.counts index)
     take := fun s => { s with counts := decr s.counts index 2, jiang := some index }
     undo := fun s => { s with counts := incr s.counts index 2, jiang := none } },
   { allowed := fun s => decide (tileValue index ≤ 7 ∧ tileMen index < 3 ∧
        0 < s.counts (index + 1) ∧ 0 < s.counts (index + 2))
     take := fun s => { s with counts := takeRun s.counts index }
     undo := fun s => { s with counts := putRun s.counts index } }]

/-- `local function is_hu`: the answer and the record it leaves, `none` without fuel. -/
def isHuShared : Nat → SearchState → Option (Bool × SearchState)
  | 0, _ => none
  | fuel + 1, s =>
      match counts2Tiles s.counts with
      | [] => some (true, s)
      | index :: _ => firstOf (isHuShared fuel) (isHuMoves index) s

/-- `rule.is_hu`, which asks for pairs on the counts the search has left. -/
def isHuOnce (pai : Pai) (inPai : Option Nat) (withSiDui : Bool) : Option Bool :=
  let counts := cache pai inPai
  match isHuShared ((counts2Tiles counts).length + 1) ⟨counts, none, []⟩ with
  | none => none
  | some (canHu, left) =>
      some (canHu || isQiDui pai left.counts || (withSiDui && isSiDui pai left.counts))

/-- The triplet branch of `hu`; `n` is the number of sections when it was called. -/
def tripletMove (n first : Nat) : Move SearchState where
  allowed s := decide (3 ≤ s.counts first)
  take s := ⟨decr s.counts first 3, s.jiang, s.sections.take n ++ [⟨.three, first⟩]⟩
  undo s := ⟨incr s.counts first 3, s.jiang, s.sections.take n⟩

/-- The pair branch of `hu`. -/
def pairMove (n first : Nat) : Move SearchState where
  allowed s := s.jiang.isNone && decide (2 ≤ s.counts first)
  take s := ⟨decr s.counts first 2, some first, s.sections.take n ++ [⟨.duiZi, first⟩]⟩
  undo s := ⟨incr s.counts first 2, none, s.sections.take n⟩

/-- The run branch of `hu` at `tile`. -/
def runMove (n tile : Nat) : Move SearchState where
  allowed s := decide (0 < s.counts tile ∧ 0 < tileValue tile ∧ tileValue tile ≤ 7 ∧
    tileMen tile < 3 ∧ 0 < s.counts (tile + 1) ∧ 0 < s.counts (tile + 2))
  take s := ⟨takeRun s.counts tile, s.jiang, s.sections.take n ++ [⟨.chi, tile⟩]⟩
  undo s := ⟨putRun s.counts tile, s.jiang, s.sections.take n⟩

def huMoves (n first : Nat) : List (Move SearchState) :=
  tripletMove n first :: pairMove n first :: (List.range' 1 50).map (runMove n)

/-- `local function hu`: what it inserts in `state.hu` and the record it leaves, `none`
without fuel. -/
def huShared : Nat → SearchState → Option (List (List HuSection) × SearchState)
  | 0, _ => none
  | fuel + 1, s =>
      match counts2Tiles s.counts with
      | [] => some ([s.sections], s)
      | first :: _ => allOf (huShared fuel) (huMoves s.sections.length first) s

/-- The tiles of a section of a decomposition. -/
def sectionTiles (s : HuSection) : Multiset Nat :=
  match s.type with
  | .three => Multiset.replicate 3 s.tile
  | .duiZi => Multiset.replicate 2 s.tile
  | _ => {s.tile, s.tile + 1, s.tile + 2}

/-- A triplet, a pair, or a run within one suit. -/
def GoodSection (s : HuSection) : Prop :=
  s.type = .three ∨ s.type = .duiZi ∨
    (s.type = .chi ∧ 0 < tileValue s.tile ∧ tileValue s.tile ≤ 7 ∧ tileMen s.tile < 3)

/-- How many of the sections are pairs. -/
def pairCount (sections : Multiset HuSection) : Nat :=
  sections.countP fun s => s.type = .duiZi

/-- The sections are triplets, runs and at most `k` pairs, and their tiles are the hand. -/
structure Decomposes (k : Nat) (sections : Multiset HuSection) (hand : Multiset Nat) :
    Prop where
  good : ∀ s ∈ sections, GoodSection s
  pairs : pairCount sections ≤ k
  tiles : (sections.map sectionTiles).sum = hand

theorem putRun_takeRun (counts : Counts) (tile : Nat) : putRun (takeRun counts tile) tile = counts := by
  funext t
  simp only [putRun, takeRun, incr_apply, decr_apply]
  omega

theorem incr_decr (counts : Counts) (tile : Nat) (n : Int) :
    incr (decr counts tile n) tile n = counts := by
  funext t
  simp only [incr_apply, decr_apply]
  omega

section IsHu
variable {s : SearchState} {index : Nat} {m : Move SearchState}

theorem isHuMoves_reversible (mem : m ∈ isHuMoves index) (allowed : m.allowed s = true) :
    m.Reversible s := by
  simp only [isHuMoves, List.mem_cons, List.not_mem_nil, or_false] at mem
  rcases mem with rfl | rfl | rfl
  · simp [Move.Reversible, incr_decr]
  · have open_ : s.jiang = none := by
      simp only [Bool.and_eq_true, Option.isNone_iff_eq_none] at allowed
      exact allowed.1
    simp [Move.Reversible, incr_decr, ← open_]
  · simp [Move.Reversible, putRun_takeRun]

/-- Every branch has fewer tiles left. -/
theorem isHuMoves_less (held : 0 < s.counts index) (inside : 1 ≤ index ∧ index ≤ 50)
    (mem : m ∈ isHuMoves index) (allowed : m.allowed s = true) :
    (tilesOf (m.take s).counts).card < (tilesOf s.counts).card := by
  simp only [isHuMoves, List.mem_cons, List.not_mem_nil, or_false] at mem
  rcases mem with rfl | rfl | rfl
  · exact card_tilesOf_decr 3 (by omega) inside (of_decide_eq_true allowed)
  · simp only [Bool.and_eq_true, decide_eq_true_eq] at allowed
    exact card_tilesOf_decr 2 (by omega) inside allowed.2
  · have run := of_decide_eq_true allowed
    have high : index + 2 ≤ 50 := by
      have := run.2.1
      simp only [tileMen] at this
      omega
    exact card_tilesOf_run ⟨inside.1, high⟩ ⟨held, run.2.2⟩

/-- The search on the shared record returns, answers what the search on its own table
answers, and gives the record back when the answer is no. -/
theorem isHuShared_answers (enough : (tilesOf s.counts).card < fuel) :
    Answers s (isHuState fuel s.counts s.jiang.isSome = true) (fun _ => True)
      (isHuShared fuel s) := by
  induction fuel generalizing s with
  | zero => omega
  | succ fuel ih =>
      rw [isHuShared, isHuState]
      cases hl : counts2Tiles s.counts with
      | nil => exact .found rfl trivial
      | cons index rest =>
          obtain ⟨inside, held⟩ :=
            mem_tilesOf.1 (show index ∈ tilesOf s.counts by simp [tilesOf, hl])
          have branches : Answers s
              (∃ m ∈ isHuMoves index, m.allowed s = true ∧
                isHuState fuel (m.take s).counts (m.take s).jiang.isSome = true) (fun _ => True)
              (firstOf (isHuShared fuel) (isHuMoves index) s) := by
            apply firstOf_answers
            intro m mem allowed
            have less := isHuMoves_less held inside mem allowed
            exact ⟨isHuMoves_reversible mem allowed, ih (by omega)⟩
          refine branches.congr ?_
          simp [isHuMoves, takeRun, and_assoc, or_assoc, Option.isNone_iff_eq_none]

/-- `rule.is_hu` returns, and the counts a win consumes do not matter to it. -/
theorem isHuOnce_eq (pai : Pai) (inPai : Option Nat) (withSiDui : Bool) :
    isHuOnce pai inPai withSiDui = some (isHu pai inPai withSiDui) := by
  have answers := isHuShared_answers (s := ⟨cache pai inPai, none, []⟩)
    (Nat.lt_succ_self (counts2Tiles (cache pai inPai)).length)
  simp only [isHuOnce, isHu]
  generalize isHuShared _ _ = result at answers
  cases answers with
  | found wins _ =>
      simp only [Option.isSome_none] at wins
      simp [wins]
  | failed fails =>
      simp only [Option.isSome_none, Bool.not_eq_true] at fails
      simp [fails]

end IsHu

section Decomposes
variable {k : Nat} {sec : HuSection} {sections : Multiset HuSection} {hand : Multiset Nat}

/-- How many pairs a section is. -/
def pairOne (sec : HuSection) : Nat := if sec.type = .duiZi then 1 else 0

theorem pairCount_cons (sec : HuSection) (sections : Multiset HuSection) :
    pairCount (sec ::ₘ sections) = pairCount sections + pairOne sec := by
  rw [pairCount, Multiset.countP_cons]
  rfl

theorem Decomposes.cons (good : GoodSection sec) (h : Decomposes k sections hand) :
    Decomposes (k + pairOne sec) (sec ::ₘ sections) (sectionTiles sec + hand) where
  good s mem := (Multiset.mem_cons.1 mem).elim (fun same => same ▸ good) (h.good s)
  pairs := by
    rw [pairCount_cons]
    exact Nat.add_le_add_right h.pairs _
  tiles := by rw [Multiset.map_cons, Multiset.sum_cons, h.tiles]

/-- A section can be taken out of a decomposition. -/
theorem Decomposes.uncons (h : Decomposes k (sec ::ₘ sections) hand) :
    ∃ rest j, hand = sectionTiles sec + rest ∧ k = j + pairOne sec ∧
      Decomposes j sections rest := by
  have pairs := h.pairs
  have tiles := h.tiles
  rw [pairCount_cons] at pairs
  rw [Multiset.map_cons, Multiset.sum_cons] at tiles
  exact ⟨_, k - pairOne sec, tiles.symm, by omega,
    ⟨fun s mem => h.good s (Multiset.mem_cons_of_mem mem), by omega, rfl⟩⟩

theorem sectionTiles_ne_zero (sec : HuSection) : ∃ t, t ∈ sectionTiles sec := by
  refine ⟨sec.tile, ?_⟩
  rw [sectionTiles]
  split <;> simp

theorem decomposes_zero : Decomposes k sections 0 ↔ sections = 0 := by
  constructor
  · intro h
    refine Multiset.eq_zero_of_forall_notMem fun sec mem => ?_
    obtain ⟨rest, rfl⟩ := Multiset.exists_cons_of_mem mem
    obtain ⟨hand, j, split, _⟩ := h.uncons
    obtain ⟨t, there⟩ := sectionTiles_ne_zero sec
    have : t ∈ (0 : Multiset Nat) := split ▸ Multiset.mem_add.2 (.inl there)
    simp at this
  · rintro rfl
    exact ⟨by simp, by simp [pairCount], rfl⟩

/-- Every section is three tiles, or two and a pair. -/
theorem Decomposes.card (h : Decomposes k sections hand) :
    hand.card + pairCount sections = 3 * sections.card := by
  induction sections using Multiset.induction generalizing hand k with
  | empty =>
      rw [← h.tiles]
      rfl
  | cons sec sections ih =>
      obtain ⟨rest, j, rfl, _, tail⟩ := h.uncons
      have size : (sectionTiles sec).card + pairOne sec = 3 := by
        rcases h.good sec (Multiset.mem_cons_self sec sections) with kind | kind | ⟨kind, _⟩ <;>
          simp [sectionTiles, pairOne, kind]
      have := ih tail
      rw [pairCount_cons, Multiset.card_add, Multiset.card_cons]
      omega

/-- With two tiles over, there is exactly one pair. -/
theorem Decomposes.one_pair (h : Decomposes 1 sections hand) (two : hand.card % 3 = 2) :
    pairCount sections = 1 := by
  have := h.card
  have := h.pairs
  omega

end Decomposes

section Hu
variable {s : SearchState} {first : Nat} {m : Move SearchState} {sections : Multiset HuSection}

/-- What a branch of `hu` does: it takes a section off the counts and lists it. -/
structure Takes (s s' : SearchState) (sec : HuSection) : Prop where
  good : GoodSection sec
  tiles : tilesOf s.counts = sectionTiles sec + tilesOf s'.counts
  sections : s'.sections = s.sections ++ [sec]
  pairs : pairsLeft s.jiang.isSome = pairsLeft s'.jiang.isSome + pairOne sec

theorem huMoves_reversible (mem : m ∈ huMoves s.sections.length first)
    (allowed : m.allowed s = true) : m.Reversible s := by
  simp only [huMoves, List.mem_cons, List.mem_map] at mem
  rcases mem with rfl | rfl | ⟨tile, _, rfl⟩
  · simp [Move.Reversible, tripletMove, incr_decr]
  · have free : s.jiang = none := by
      simp only [pairMove, Bool.and_eq_true, Option.isNone_iff_eq_none] at allowed
      exact allowed.1
    simp [Move.Reversible, pairMove, incr_decr, ← free]
  · simp [Move.Reversible, runMove, putRun_takeRun]

theorem tripletMove_takes (inside : 1 ≤ first ∧ first ≤ 50)
    (allowed : (tripletMove s.sections.length first).allowed s = true) :
    Takes s ((tripletMove s.sections.length first).take s) ⟨.three, first⟩ where
  good := .inl rfl
  tiles := tilesOf_decr 3 inside (of_decide_eq_true allowed)
  sections := by simp [tripletMove]
  pairs := rfl

theorem pairMove_takes (inside : 1 ≤ first ∧ first ≤ 50)
    (allowed : (pairMove s.sections.length first).allowed s = true) :
    Takes s ((pairMove s.sections.length first).take s) ⟨.duiZi, first⟩ := by
  simp only [pairMove, Bool.and_eq_true, decide_eq_true_eq, Option.isNone_iff_eq_none] at allowed
  exact {
    good := .inr (.inl rfl)
    tiles := tilesOf_decr 2 inside allowed.2
    sections := by simp [pairMove]
    pairs := by simp [pairsLeft, allowed.1, pairMove, pairOne] }

theorem runMove_takes {tile : Nat} (low : 1 ≤ tile)
    (allowed : (runMove s.sections.length tile).allowed s = true) :
    Takes s ((runMove s.sections.length tile).take s) ⟨.chi, tile⟩ := by
  obtain ⟨held, value, high, men, next⟩ := of_decide_eq_true allowed
  have room : tile + 2 ≤ 50 := by
    simp only [tileMen] at men
    omega
  exact {
    good := .inr (.inr ⟨rfl, value, high, men⟩)
    tiles := tilesOf_run ⟨low, room⟩ ⟨held, next⟩
    sections := by simp [runMove]
    pairs := rfl }

theorem huMoves_takes (inside : 1 ≤ first ∧ first ≤ 50)
    (mem : m ∈ huMoves s.sections.length first) (allowed : m.allowed s = true) :
    ∃ sec, Takes s (m.take s) sec := by
  simp only [huMoves, List.mem_cons, List.mem_map] at mem
  rcases mem with rfl | rfl | ⟨tile, range, rfl⟩
  · exact ⟨_, tripletMove_takes inside allowed⟩
  · exact ⟨_, pairMove_takes inside allowed⟩
  · exact ⟨_, runMove_takes (List.mem_range'_1.1 range).1 allowed⟩

/-- Whatever decomposition the hand has, a branch takes one of its sections: any run, or
else the section of the first tile. -/
theorem huMoves_cover (mem : first ∈ tilesOf s.counts)
    (h : Decomposes (pairsLeft s.jiang.isSome) sections (tilesOf s.counts)) :
    ∃ m ∈ huMoves s.sections.length first, m.allowed s = true ∧
      ∃ sec ∈ sections, Takes s (m.take s) sec := by
  by_cases run : ∃ sec ∈ sections, sec.type = .chi
  · obtain ⟨⟨_, tile⟩, there, rfl⟩ := run
    obtain ⟨rest, rfl⟩ := Multiset.exists_cons_of_mem there
    obtain ⟨hand, _, split, _⟩ := h.uncons
    obtain ⟨room, held, _⟩ := take_run split
    have kind : 0 < tileValue tile ∧ tileValue tile ≤ 7 ∧ tileMen tile < 3 := by
      simpa [GoodSection] using h.good _ there
    have allowed : (runMove s.sections.length tile).allowed s = true :=
      decide_eq_true ⟨held.1, kind.1, kind.2.1, kind.2.2, held.2⟩
    have low : 1 ≤ tile := room.1
    have high : tile + 2 ≤ 50 := room.2
    have range : tile ∈ List.range' 1 50 := List.mem_range'_1.2 (by omega)
    refine ⟨_, ?_, allowed, _, there, runMove_takes room.1 allowed⟩
    exact List.mem_cons_of_mem _ (List.mem_cons_of_mem _ (List.mem_map_of_mem range))
  · rw [← h.tiles] at mem
    obtain ⟨⟨kind, tile⟩, there, holds⟩ := Multiset.mem_bind.1 mem
    obtain ⟨rest, rfl⟩ := Multiset.exists_cons_of_mem there
    obtain ⟨hand, j, split, pairs, _⟩ := h.uncons
    rcases h.good _ there with rfl | rfl | ⟨rfl, _⟩
    · obtain rfl := Multiset.eq_of_mem_replicate holds
      obtain ⟨inside, held, _⟩ := take_same (by omega) split
      have allowed : (tripletMove s.sections.length first).allowed s = true := decide_eq_true held
      exact ⟨_, List.mem_cons_self, allowed, _, there, tripletMove_takes inside allowed⟩
    · obtain rfl := Multiset.eq_of_mem_replicate holds
      obtain ⟨inside, held, _⟩ := take_same (by omega) split
      have free : s.jiang = none := by
        cases hj : s.jiang with
        | none => rfl
        | some pair => simp [pairsLeft, hj, pairOne] at pairs
      have allowed : (pairMove s.sections.length first).allowed s = true := by
        simp [pairMove, free]
        exact held
      exact ⟨_, List.mem_cons_of_mem _ List.mem_cons_self, allowed, _, there,
        pairMove_takes inside allowed⟩
    · exact (run ⟨_, there, rfl⟩).elim

/-- A branch takes a section off every decomposition that has it. -/
theorem Takes.decomposes {s' : SearchState} {sec : HuSection} (takes : Takes s s' sec) :
    Decomposes (pairsLeft s.jiang.isSome) (sec ::ₘ sections) (tilesOf s.counts) ↔
      Decomposes (pairsLeft s'.jiang.isSome) sections (tilesOf s'.counts) := by
  rw [takes.tiles, takes.pairs]
  constructor
  · intro h
    obtain ⟨rest, j, split, pairs, tail⟩ := h.uncons
    obtain rfl := Multiset.add_right_inj.1 split
    obtain rfl := Nat.add_right_cancel pairs
    exact tail
  · exact Decomposes.cons takes.good

theorem Takes.less {s' : SearchState} {sec : HuSection} (takes : Takes s s' sec) :
    (tilesOf s'.counts).card < (tilesOf s.counts).card := by
  obtain ⟨t, there⟩ := sectionTiles_ne_zero sec
  have some : 0 < (sectionTiles sec).card := Multiset.card_pos_iff_exists_mem.2 ⟨t, there⟩
  rw [takes.tiles, Multiset.card_add]
  omega

/-- `hu` returns with the record it was given, and what it inserts are, up to the order of
the sections, the sections so far with every decomposition of the counts. -/
theorem huShared_gathers (enough : (tilesOf s.counts).card < fuel) :
    Gathers (fun found : List HuSection => (found : Multiset HuSection)) s
      (fun whole => ∃ sections, whole = ↑s.sections + sections ∧
        Decomposes (pairsLeft s.jiang.isSome) sections (tilesOf s.counts))
      (huShared fuel s) := by
  induction fuel generalizing s with
  | zero => omega
  | succ fuel ih =>
      rw [huShared]
      cases hl : counts2Tiles s.counts with
      | nil =>
          have empty : tilesOf s.counts = 0 := by
            rw [tilesOf, hl]
            rfl
          refine ⟨[s.sections], rfl, fun whole => ?_⟩
          simp [empty, decomposes_zero]
      | cons first rest =>
          have mem : first ∈ tilesOf s.counts := by simp [tilesOf, hl]
          obtain ⟨inside, _⟩ := mem_tilesOf.1 mem
          have branches : Gathers (fun found : List HuSection => (found : Multiset HuSection)) s
              (fun whole => ∃ m ∈ huMoves s.sections.length first, m.allowed s = true ∧
                ∃ sections, whole = ↑(m.take s).sections + sections ∧
                  Decomposes (pairsLeft (m.take s).jiang.isSome) sections (tilesOf (m.take s).counts))
              (allOf (huShared fuel) (huMoves s.sections.length first) s) := by
            apply allOf_gathers
            intro m hm allowed
            obtain ⟨sec, takes⟩ := huMoves_takes inside hm allowed
            have less := takes.less
            exact ⟨huMoves_reversible hm allowed, ih (by omega)⟩
          have extend : ∀ {m : Move SearchState} {sec : HuSection} (_ : Takes s (m.take s) sec)
              (tail : Multiset HuSection),
              (↑(m.take s).sections : Multiset HuSection) + tail = ↑s.sections + sec ::ₘ tail := by
            intro m sec takes tail
            rw [takes.sections, ← Multiset.coe_add, Multiset.coe_singleton, add_assoc,
              Multiset.singleton_add]
          refine branches.congr fun whole => ⟨?_, ?_⟩
          · rintro ⟨m, hm, allowed, sections, rfl, h⟩
            obtain ⟨sec, takes⟩ := huMoves_takes inside hm allowed
            exact ⟨sec ::ₘ sections, extend takes sections, takes.decomposes.2 h⟩
          · rintro ⟨sections, rfl, h⟩
            obtain ⟨m, hm, allowed, sec, there, takes⟩ := huMoves_cover mem h
            obtain ⟨tail, rfl⟩ := Multiset.exists_cons_of_mem there
            exact ⟨m, hm, allowed, tail, (extend takes tail).symm, takes.decomposes.1 h⟩

/-- `hu` returns from every table of counts, which it leaves as it was; what it inserts
are the decompositions of the hand into triplets, runs and at most one pair, and exactly
one where the number of tiles leaves two over. -/
theorem hu_exact (counts : Counts) :
    ∃ found, huShared ((counts2Tiles counts).length + 1) ⟨counts, none, []⟩ =
        some (found, ⟨counts, none, []⟩) ∧
      (∀ sections : Multiset HuSection,
        (∃ listed ∈ found, (listed : Multiset HuSection) = sections) ↔
          Decomposes 1 sections (tilesOf counts)) ∧
      ((tilesOf counts).card % 3 = 2 → ∀ listed ∈ found, pairCount listed = 1) := by
  obtain ⟨found, returned, all⟩ := huShared_gathers (s := ⟨counts, none, []⟩)
    (Nat.lt_succ_self (counts2Tiles counts).length)
  have listed : ∀ sections : Multiset HuSection,
      (∃ listed ∈ found, (listed : Multiset HuSection) = sections) ↔
        Decomposes 1 sections (tilesOf counts) := by
    intro sections
    have here := all sections
    simp only [List.mem_map, Multiset.coe_nil, zero_add] at here
    rw [here]
    constructor
    · rintro ⟨_, rfl, h⟩
      exact h
    · exact fun h => ⟨sections, rfl, h⟩
  refine ⟨found, returned, listed, fun two l mem => ?_⟩
  exact ((listed l).1 ⟨l, mem, rfl⟩).one_pair two

/-- Of three equal tiles `hu` lists the triplet, although it is no pair. -/
theorem hu_lists_without_pair :
    ∃ found left, huShared 4 ⟨incr (fun _ => 0) 1 3, none, []⟩ = some (found, left) ∧
      ∃ listed ∈ found, pairCount (listed : Multiset HuSection) ≠ 1 := by
  have tiles : counts2Tiles (incr (fun _ => 0) 1 3) = [1, 1, 1] := by decide
  have hand : tilesOf (incr (fun _ => 0) 1 3) = {1, 1, 1} := by
    rw [tilesOf, tiles]
    rfl
  have few : (tilesOf (incr (fun _ => 0) 1 3)).card < 4 := by simp [hand]
  obtain ⟨found, returned, all⟩ := huShared_gathers
    (s := ⟨incr (fun _ => 0) 1 3, none, []⟩) few
  have none : pairCount {⟨.three, 1⟩} = 0 := by
    rw [← Multiset.cons_zero, pairCount_cons]
    rfl
  have triplet : Decomposes 1 {⟨.three, 1⟩} (tilesOf (incr (fun _ => 0) 1 3)) := by
    rw [hand]
    exact ⟨by simp [GoodSection], none ▸ Nat.zero_le 1, by simp [sectionTiles]⟩
  obtain ⟨listed, mem, same⟩ := List.mem_map.1 ((all {⟨.three, 1⟩}).2 ⟨_, by simp, triplet⟩)
  refine ⟨found, _, returned, listed, mem, ?_⟩
  rw [same, none]
  exact Nat.zero_ne_one

end Hu

section Winning
variable {k : Nat} {hand : Multiset Nat}

/-- Triplets, runs within a suit, and exactly one pair. -/
def MeldsAndPair (hand : Multiset Nat) : Prop :=
  ∃ sections : Multiset HuSection, Decomposes 1 sections hand ∧ pairCount sections = 1

/-- Seven pairs, of which two may be the same. -/
def SevenPairs (hand : Multiset Nat) : Prop :=
  ∃ pairs : Multiset Nat, pairs.card = 7 ∧ hand = pairs + pairs

theorem complete_of_decomposes {sections : Multiset HuSection} (h : Decomposes k sections hand) :
    Complete k hand := by
  induction sections using Multiset.induction generalizing hand k with
  | empty =>
      rw [← h.tiles]
      exact .nil
  | cons sec sections ih =>
      obtain ⟨rest, j, rfl, rfl, tail⟩ := h.uncons
      rcases sec with ⟨kind, tile⟩
      rcases h.good _ (Multiset.mem_cons_self _ _) with rfl | rfl | ⟨rfl, _, high, men⟩
      · exact .block (.inl ⟨tile, rfl⟩) (ih tail)
      · exact .special ⟨tile, rfl⟩ (ih tail)
      · exact .block (.inr ⟨tile, ⟨high, men⟩, rfl⟩) (ih tail)

theorem decomposes_of_complete (suited : ∀ t ∈ hand, SuitTile t) (h : Complete k hand) :
    ∃ sections, Decomposes k sections hand := by
  induction h with
  | nil => exact ⟨0, decomposes_zero.2 rfl⟩
  | @block k b s meld _ ih =>
      obtain ⟨sections, tail⟩ := ih fun t mem => suited t (Multiset.mem_add.2 (.inr mem))
      rcases meld with ⟨t, rfl⟩ | ⟨t, ⟨high, men⟩, rfl⟩
      · have good : GoodSection ⟨.three, t⟩ := .inl rfl
        exact ⟨_, tail.cons good⟩
      · have suit : SuitTile t := suited t (Multiset.mem_add.2 (.inl (by simp)))
        have good : GoodSection ⟨.chi, t⟩ := .inr (.inr ⟨rfl, suit.1, high, men⟩)
        exact ⟨_, tail.cons good⟩
  | @special k b s pair _ ih =>
      obtain ⟨sections, tail⟩ := ih fun t mem => suited t (Multiset.mem_add.2 (.inr mem))
      obtain ⟨t, rfl⟩ := pair
      have good : GoodSection ⟨.duiZi, t⟩ := .inr (.inl rfl)
      exact ⟨_, tail.cons good⟩

/-- What the pairs test counts on a hand: `n` pairs are `2 * n` tiles, each of them held
an even number of times. -/
theorem dui_iff (held : Hand counts) (n : Nat) :
    (duiZiCount counts = n ∧ totalCount counts = 2 * n) ↔
      ∃ pairs : Multiset Nat, pairs.card = n ∧ tilesOf counts = pairs + pairs := by
  have total := held.total
  have size := card_tilesOf held
  rw [duiZiCount_eq]
  constructor
  · rintro ⟨pairs, even⟩
    have no_odd : ∀ t, t ∈ List.range' 1 50 → counts t ≠ 1 ∧ counts t ≠ 3 := by
      intro t range
      have one : (countTiles counts 1).length = 0 := by omega
      have three : (countTiles counts 3).length = 0 := by omega
      rw [List.length_eq_zero_iff, countTiles, List.filter_eq_nil_iff] at one three
      exact ⟨by simpa using one t range, by simpa using three t range⟩
    have double : tilesOf counts =
        tilesOf (fun t => counts t / 2) + tilesOf (fun t => counts t / 2) := by
      ext t
      rw [Multiset.count_add, count_tilesOf, count_tilesOf]
      split
      · rename_i inside
        have odd := no_odd t (List.mem_range'_1.2 (by omega))
        have copies := held.copies t
        omega
      · rfl
    refine ⟨_, ?_, double⟩
    rw [double, Multiset.card_add] at size
    omega
  · rintro ⟨pairs, many, double⟩
    have even : ∀ t ∈ List.range' 1 50, counts t ≠ 1 ∧ counts t ≠ 3 := by
      intro t range
      have same := congrArg (Multiset.count t) double
      rw [List.mem_range'_1] at range
      rw [count_tilesOf, if_pos (by omega), Multiset.count_add] at same
      have copies := held.copies t
      omega
    have one : countTiles counts 1 = [] :=
      List.filter_eq_nil_iff.2 fun t range => by simpa using (even t range).1
    have three : countTiles counts 3 = [] :=
      List.filter_eq_nil_iff.2 fun t range => by simpa using (even t range).2
    rw [double, Multiset.card_add] at size
    simp only [one, three, List.length_nil] at total
    omega

theorem sevenPairs_iff (held : Hand counts) :
    (duiZiCount counts = 7 ∧ totalCount counts = 14) ↔ SevenPairs (tilesOf counts) :=
  dui_iff held 7

/-- `rule.is_hu` without four pairs, on a hand of the three suits that leaves two tiles
over: it returns, and says yes exactly to triplets, runs and one pair, or to a hand with
nothing shown that consists of seven pairs. -/
theorem is_hu_exact (pai : Pai) (inPai : Option Nat) (held : Hand (cache pai inPai))
    (two : totalCount (cache pai inPai) % 3 = 2) :
    ∃ answer, isHuOnce pai inPai false = some answer ∧
      (answer = true ↔ MeldsAndPair (tilesOf (cache pai inPai)) ∨
        (pai.mingPai = [] ∧ SevenPairs (tilesOf (cache pai inPai)))) := by
  refine ⟨_, isHuOnce_eq pai inPai false, ?_⟩
  have size := card_tilesOf held
  have enough : (tilesOf (cache pai inPai)).card < (counts2Tiles (cache pai inPai)).length + 1 :=
    Nat.lt_succ_self _
  have melds : isHuState ((counts2Tiles (cache pai inPai)).length + 1) (cache pai inPai) false =
      true ↔ MeldsAndPair (tilesOf (cache pai inPai)) := by
    rw [isHuState_iff enough]
    constructor
    · intro complete
      obtain ⟨sections, h⟩ := decomposes_of_complete held.suitTiles complete
      exact ⟨sections, h, h.one_pair (by omega)⟩
    · rintro ⟨sections, h, _⟩
      exact complete_of_decomposes h
  rw [isHu, Bool.false_and, Bool.or_false, Bool.or_eq_true, melds, ← sevenPairs_iff held]
  simp only [isQiDui, isDui, decide_eq_true_eq, List.length_eq_zero_iff]
  refine or_congr_right ⟨?_, ?_⟩
  · rintro ⟨pairs, total, shown⟩
    exact ⟨shown, pairs, total⟩
  · rintro ⟨shown, pairs, total⟩
    exact ⟨pairs, total, shown⟩

/-- Two triplets, two runs and a pair, with nothing shown. -/
def fullHand : Pai := ⟨fun t => [1, 1, 1, 2, 3, 4, 15, 15, 15, 22, 23, 24, 27, 27].count t, [], [], none⟩

theorem full_hand_is_hu :
    MeldsAndPair (tilesOf (cache fullHand none)) ∧ isHuOnce fullHand none false = some true := by
  have tiles : tilesOf (cache fullHand none) =
      {1, 1, 1, 2, 3, 4, 15, 15, 15, 22, 23, 24, 27, 27} :=
    congrArg Multiset.ofList (by decide +kernel : counts2Tiles (cache fullHand none) = _)
  have wins : MeldsAndPair (tilesOf (cache fullHand none)) := by
    rw [tiles]
    refine ⟨{⟨.three, 1⟩, ⟨.chi, 2⟩, ⟨.three, 15⟩, ⟨.chi, 22⟩, ⟨.duiZi, 27⟩}, ?_, rfl⟩
    exact ⟨by simp [GoodSection, tileValue, tileMen], by decide, by decide⟩
  obtain ⟨answer, returned, right⟩ := is_hu_exact fullHand none (.ofList (by decide)) (by decide)
  exact ⟨wins, returned.trans (congrArg some (right.2 (.inl wins)))⟩

end Winning

end FkServer.MaajanXuezhan.Rule
