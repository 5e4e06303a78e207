import FkServer.MaajanZigong.FourOfATile

/-!
How `base/rule` counts the tiles held four times in a hand with wildcards:
`gou_count_tiyong` works on a copy of the hand, puts tiles in for wildcards, most quads
first, and keeps the first substitution that leaves the hand a win.
-/
namespace FkServer.MaajanZigong

/-- `SECTION_TYPE` -/
inductive SectionType
  | four
  | anGang
  | mingGang
  | baGang
  | duiZi
  | three
  | peng
  | chi
  | leftChi
  | midChi
  | rightChi
  | ruanAnGang
  | ruanMingGang
  | ruanBaGang
  | ruanPeng
deriving DecidableEq

/-- A section of `ming_pai`. -/
structure Section where
  type : SectionType
  tile : Nat

namespace Rule

section Count
variable (data : MaajanData String) (mingPai : List Section)

/-- The test for a pung. `SECTION_TYPE.RUANPENG`, the other name it tries, is not a field of
the table (that is `RUAN_PENG`), and no section has the type nil. -/
def isPeng (s : Section) : Bool := s.type = .peng

def gouCountWutiyong (cache : Counts) : Nat :=
  ((List.range' 1 37).countP fun tile => 4 ≤ cache tile) +
    mingPai.countP fun s => isPeng s ∧ cache s.tile = 1

/-- `get_ty_can_gou_list`: the tiles that `tyNum` wildcards make four. -/
def getTyCanGouList (cache : Counts) (tyNum : Nat) : List Nat :=
  ((List.range' 1 37).filter fun tile => cache tile = 4 - tyNum) ++
    if tyNum = 1 then (mingPai.filter fun s => isPeng s ∧ cache s.tile = 0).map (·.tile) else []

/-- Tiles to be put in for wildcards, with how many of each. -/
abbrev Trial := List (Nat × Nat)

def putIn (trial : Trial) (counts : Counts) : Counts :=
  trial.foldl (fun counts entry => incr counts entry.1 entry.2) counts

def takeOut (trial : Trial) (counts : Counts) : Counts :=
  trial.foldl (fun counts entry => decr counts entry.1 entry.2) counts

/-- One turn of a loop: the tiles are put in, and taken out again unless the hand wins. -/
def tryTrial (trial : Trial) (counts : Counts) : Option Nat × Counts :=
  let filled := putIn trial counts
  if MaajanZigong.isHu data filled then (some (gouCountWutiyong mingPai filled), filled)
  else (none, takeOut trial filled)

/-- A loop of trials, up to the first that wins. -/
def tryEach : List Trial → Counts → Option Nat × Counts
  | [], counts => (none, counts)
  | trial :: rest, counts =>
      match tryTrial data mingPai trial counts with
      | (some gou, counts) => (some gou, counts)
      | (none, counts) => tryEach rest counts

/-- A loop of trials beside `wild` wildcards that stay what they are, and what follows it. -/
def phase (wild : Nat) (trials : List Trial) (next : Counts → Option Nat × Counts)
    (counts : Counts) : Option Nat × Counts :=
  match tryEach data mingPai trials (incr counts tyValue wild) with
  | (some gou, counts) => (some gou, counts)
  | (none, counts) => next (decr counts tyValue wild)

/-- `n` of one tile of `list` -/
def oneOf (list : List Nat) (n : Nat) : List Trial := list.map fun tile => [(tile, n)]

/-- `for i = 1, #list-1` and `for j = i+1, #list` -/
def twoOf (list : List Nat) : List Trial :=
  (List.range (list.length - 1)).flatMap fun i =>
    (List.range' (i + 1) (list.length - (i + 1))).map fun j =>
      [(list.getD i 0, 1), (list.getD j 0, 1)]

/-- `for i = 1, #list-2`, `for j = i+1, #list` and `for k = i+2, #list` -/
def threeOf (list : List Nat) : List Trial :=
  (List.range (list.length - 2)).flatMap fun i =>
    (List.range' (i + 1) (list.length - (i + 1))).flatMap fun j =>
      (List.range' (i + 2) (list.length - (i + 2))).map fun k =>
        [(list.getD i 0, 1), (list.getD j 0, 1), (list.getD k 0, 1)]

/-- One tile of `list` and two of one of `pairs`. -/
def oneAndTwo (list pairs : List Nat) : List Trial :=
  list.flatMap fun tile => pairs.map fun pair => [(tile, 1), (pair, 2)]

/-- The end of `gou_count_tiyong_help`: nothing is found. -/
def notFound (counts : Counts) : Option Nat × Counts := (none, counts)

/-- `gou_count_tiyong_help` for three wildcards, once two quads at once are tried. -/
def helpThree (tyCanGouList dui : List Nat) : Counts → Option Nat × Counts :=
  phase data mingPai 0 (oneAndTwo tyCanGouList dui) <|
  phase data mingPai 2 (oneOf tyCanGouList 1) <|
  phase data mingPai 1 (oneOf dui 2) fun counts =>
    phase data mingPai 0 (oneOf (getTyCanGouList mingPai counts 3) 3) notFound counts

/-- `gou_count_tiyong_help`; a loop that a length leaves out has nothing to try. -/
def gouCountTiyongHelp (tyCanGouList : List Nat) (tyNum : Nat) : Counts → Option Nat × Counts :=
  if tyNum = 2 then
    phase data mingPai 1 (oneOf tyCanGouList 1) fun counts =>
      phase data mingPai 0 (oneOf (getTyCanGouList mingPai counts 2) 2) notFound counts
  else if tyNum = 3 then
    phase data mingPai 1 (twoOf tyCanGouList) fun counts =>
      helpThree data mingPai tyCanGouList (getTyCanGouList mingPai counts 2) counts
  else
    notFound

/-- `curcounts`: a copy of the hand without its wildcards. -/
def curcounts (cache : Counts) : Counts := fun tile => if tile = tyValue then 0 else cache tile

/-- The loops of `gou_count_tiyong` itself, which return at once. -/
def gouCountLoops (tyCanGouList : List Nat) (tyNum : Nat) : Counts → Option Nat × Counts :=
  if tyNum = 1 then tryEach data mingPai (oneOf tyCanGouList 1)
  else if tyNum ≤ tyCanGouList.length then
    if tyNum = 2 then tryEach data mingPai (twoOf tyCanGouList)
    else if tyNum = 3 then tryEach data mingPai (threeOf tyCanGouList)
    else notFound
  else
    notFound

/-- `gou_count_tiyong` -/
def gouCountTiyong (cache : Counts) : Nat :=
  let tyNum := wildcards cache
  let tyCanGouList := getTyCanGouList mingPai (curcounts cache) 1
  match gouCountLoops data mingPai tyCanGouList tyNum (curcounts cache) with
  | (some gou, _) => gou
  | (none, counts) =>
      let (helped, counts) := gouCountTiyongHelp data mingPai tyCanGouList tyNum counts
      if helped.getD 0 = 0 then
        let counts := incr counts tyValue tyNum
        if MaajanZigong.isHu data counts then gouCountWutiyong mingPai counts else 0
      else
        helped.getD 0

end Count

/-! ### Trials -/

variable {data : MaajanData String} {mingPai : List Section} {counts cache : Counts} {wild : Nat}

/-- The tiles a trial puts in. -/
def bag (trial : Trial) : Multiset Nat := (trial.map fun entry => Multiset.replicate entry.2 entry.1).sum

/-- The table with the tiles of `b` more. -/
def filled (counts : Counts) (b : Multiset Nat) : Counts := fun tile => counts tile + b.count tile

theorem putIn_eq (trial : Trial) (counts : Counts) : putIn trial counts = filled counts (bag trial) := by
  induction trial generalizing counts with
  | nil =>
      funext tile
      simp [putIn, filled, bag]
  | cons entry rest ih =>
      have step : putIn (entry :: rest) counts = putIn rest (incr counts entry.1 entry.2) := rfl
      rw [step, ih]
      funext tile
      simp only [filled, bag, List.map_cons, List.sum_cons, Multiset.count_add,
        Multiset.count_replicate, incr_apply]
      by_cases same : tile = entry.1
      · subst same
        simp
        omega
      · simp [same, Ne.symm same]

theorem takeOut_apply (trial : Trial) (counts : Counts) (tile : Nat) :
    takeOut trial counts tile = counts tile - (bag trial).count tile := by
  induction trial generalizing counts with
  | nil => simp [takeOut, bag]
  | cons entry rest ih =>
      have step : takeOut (entry :: rest) counts = takeOut rest (decr counts entry.1 entry.2) := rfl
      rw [step, ih]
      simp only [bag, List.map_cons, List.sum_cons, Multiset.count_add, Multiset.count_replicate,
        decr_apply]
      by_cases same : tile = entry.1
      · subst same
        simp
        omega
      · simp [same, Ne.symm same]

/-- What a trial puts in it takes out. -/
theorem takeOut_putIn (trial : Trial) (counts : Counts) : takeOut trial (putIn trial counts) = counts := by
  funext tile
  rw [takeOut_apply, putIn_eq, filled]
  omega

/-- The hand with the tiles of `trial` for wildcards is a win, `wild` wildcards aside. -/
def wins (data : MaajanData String) (counts : Counts) (wild : Nat) (trial : Trial) : Bool :=
  MaajanZigong.isHu data (filled (incr counts tyValue wild) (bag trial))

/-- What the trial counts. -/
def counted (mingPai : List Section) (counts : Counts) (wild : Nat) (trial : Trial) : Nat :=
  gouCountWutiyong mingPai (filled (incr counts tyValue wild) (bag trial))

theorem tryEach_eq (trials : List Trial) (counts : Counts) :
    tryEach data mingPai trials counts =
      match trials.find? fun trial => MaajanZigong.isHu data (filled counts (bag trial)) with
      | some trial =>
          (some (gouCountWutiyong mingPai (filled counts (bag trial))), filled counts (bag trial))
      | none => (none, counts) := by
  induction trials with
  | nil => rfl
  | cons trial rest ih =>
      rw [tryEach, tryTrial, putIn_eq]
      cases hu : MaajanZigong.isHu data (filled counts (bag trial)) with
      | true => simp [hu]
      | false =>
          have back : takeOut trial (filled counts (bag trial)) = counts := by
            rw [← putIn_eq, takeOut_putIn]
          simp only [Bool.false_eq_true, if_false, back, ih, List.find?_cons, hu]

/-- Trials that do not win leave the hand as it is. -/
theorem tryEach_restores {trials : List Trial} (none : (tryEach data mingPai trials counts).1 = none) :
    (tryEach data mingPai trials counts).2 = counts := by
  rw [tryEach_eq] at none ⊢
  cases found : trials.find? fun trial => MaajanZigong.isHu data (filled counts (bag trial)) with
  | none => rfl
  | some trial =>
      rw [found] at none
      cases none

/-- A phase finds its first trial that wins, or goes on with the hand as it was. -/
theorem phase_eq (trials : List Trial) (next : Counts → Option Nat × Counts) (counts : Counts) :
    phase data mingPai wild trials next counts =
      match trials.find? (wins data counts wild) with
      | some trial =>
          (some (counted mingPai counts wild trial), filled (incr counts tyValue wild) (bag trial))
      | none => next counts := by
  have back : decr (incr counts tyValue (wild : Int)) tyValue wild = counts := by
    funext tile
    rw [decr_apply, incr_apply]
    split <;> omega
  rw [phase, tryEach_eq]
  change _ = match trials.find? fun trial => wins data counts wild trial with
    | some trial => _
    | none => _
  unfold wins counted
  cases trials.find? fun trial =>
      MaajanZigong.isHu data (filled (incr counts tyValue (wild : Int)) (bag trial)) with
  | some trial => rfl
  | none => exact congrArg next back

/-! ### What is counted -/

/-- The tiles of the pungs that are shown, soft ones among them or not. -/
def pungTiles (soft : Bool) (mingPai : List Section) : List Nat :=
  (mingPai.filter fun s => s.type = .peng ∨ (soft = true ∧ s.type = .ruanPeng)).map (·.tile)

/-- The tiles held four times: concealed, or shown as a pung and concealed besides. -/
def heldFour (pungs : List Nat) (counts : Counts) : Finset Nat :=
  (Finset.Icc 1 37).filter fun tile => 4 ≤ counts tile ∨ (tile ∈ pungs ∧ 1 ≤ counts tile)

/-- The tiles `a` stand for the wildcards of the hand and make it a win that the tables know:
without a fifth tile of a kind, but for a suit of five of one tile and nothing else. -/
structure Assigned (cache : Counts) (a : Multiset Nat) : Prop where
  card : a.card = wildcards cache
  ordinary : ∀ tile ∈ a, Ordinary tile
  wins : hands.Paired (ordinaryTiles cache + a)
  known : ∀ i, Known (hands.part i (ordinaryTiles cache + a))

/-- How many tiles are held four times once the wildcards stand for the tiles `a`. -/
def quads (soft : Bool) (mingPai : List Section) (cache : Counts) (a : Multiset Nat) : Nat :=
  (heldFour (pungTiles soft mingPai) (filled (curcounts cache) a)).card

/-- A winning hand that `gou_count` counts this way: it has up to 14 tiles with wildcards among
them, but not all four, and with its pungs no tile is there five times. -/
structure WildHand where
  cache : Counts
  mingPai : List Section
  hand : Hand cache
  size : (counts2Tiles cache).length ≤ 14
  wild : 0 < wildcards cache
  few : wildcards cache ≤ 3
  pungs : ∀ tile, 3 * (pungTiles false mingPai).count tile + cache tile ≤ 4
  shown : ∀ tile ∈ pungTiles true mingPai, Ordinary tile
  winning : ∃ a, Assigned cache a

namespace WildHand
variable (h : WildHand)

theorem peng_le (tile : Nat) (pung : tile ∈ pungTiles false h.mingPai) :
    h.cache tile ≤ 1 := by
  have copies := h.pungs tile
  have one := List.count_pos_iff.2 pung
  omega

theorem pungs_nodup : (pungTiles false h.mingPai).Nodup := by
  rw [List.nodup_iff_count_le_one]
  intro tile
  have copies := h.pungs tile
  have low := (h.hand.few tile).1
  omega

end WildHand

theorem pungTiles_hard : pungTiles false mingPai = (mingPai.filter isPeng).map (·.tile) := by
  rw [pungTiles]
  congr 1
  apply List.filter_congr
  intro s _
  simp [isPeng]

theorem mem_heldFour {pungs : List Nat} {tile : Nat} :
    tile ∈ heldFour pungs counts ↔ (1 ≤ tile ∧ tile ≤ 37) ∧
      (4 ≤ counts tile ∨ (tile ∈ pungs ∧ 1 ≤ counts tile)) := by
  simp [heldFour]

theorem heldFour_mono {pungs : List Nat} {counts' : Counts} (more : ∀ tile, counts tile ≤ counts' tile) :
    heldFour pungs counts ⊆ heldFour pungs counts' := by
  intro tile
  rw [mem_heldFour, mem_heldFour]
  have le := more tile
  rintro ⟨inside, many | ⟨pung, held⟩⟩
  · exact ⟨inside, .inl (le_trans many le)⟩
  · exact ⟨inside, .inr ⟨pung, le_trans held le⟩⟩

/-- The two kinds of tiles `gou_count_wutiyong` counts. -/
theorem gouCountWutiyong_split (nodup : (pungTiles false mingPai).Nodup)
    (inside : ∀ tile ∈ pungTiles false mingPai, 1 ≤ tile ∧ tile ≤ 37) :
    gouCountWutiyong mingPai counts =
      (((Finset.Icc 1 37).filter fun tile => 4 ≤ counts tile) ∪
        (Finset.Icc 1 37).filter fun tile => tile ∈ pungTiles false mingPai ∧ counts tile = 1).card := by
  have four : ((List.range' 1 37).countP fun tile => 4 ≤ counts tile) =
      ((Finset.Icc 1 37).filter fun tile => 4 ≤ counts tile).card := by
    rw [List.countP_eq_length_filter]
    rfl
  have pung : (mingPai.countP fun s => isPeng s ∧ counts s.tile = 1) =
      ((Finset.Icc 1 37).filter fun tile => tile ∈ pungTiles false mingPai ∧ counts tile = 1).card := by
    have listed : (mingPai.countP fun s => isPeng s ∧ counts s.tile = 1) =
        ((pungTiles false mingPai).filter fun tile => counts tile = 1).length := by
      rw [pungTiles_hard, ← List.countP_eq_length_filter, List.countP_map, List.countP_filter]
      apply List.countP_congr
      intro s _
      simp [and_comm]
    rw [listed, ← List.toFinset_card_of_nodup (nodup.filter _)]
    congr 1
    ext tile
    simp only [List.mem_toFinset, List.mem_filter, decide_eq_true_eq, Finset.mem_filter, Finset.mem_Icc]
    constructor
    · rintro ⟨mem, one⟩
      exact ⟨inside tile mem, mem, one⟩
    · rintro ⟨_, mem, one⟩
      exact ⟨mem, one⟩
  rw [gouCountWutiyong, four, pung, ← Finset.card_union_of_disjoint]
  rw [Finset.disjoint_filter]
  rintro tile _ many ⟨_, one⟩
  omega

/-- Without wildcards that matter the count is that of the tiles held four times, as long as
no pung has two or three of its tiles in the hand. -/
theorem gouCountWutiyong_eq (nodup : (pungTiles false mingPai).Nodup)
    (inside : ∀ tile ∈ pungTiles false mingPai, 1 ≤ tile ∧ tile ≤ 37)
    (apart : ∀ tile ∈ pungTiles false mingPai, counts tile ≤ 1 ∨ 4 ≤ counts tile) :
    gouCountWutiyong mingPai counts = (heldFour (pungTiles false mingPai) counts).card := by
  rw [gouCountWutiyong_split nodup inside, heldFour]
  congr 1
  ext tile
  simp only [Finset.mem_union, Finset.mem_filter, ← and_or_left]
  refine and_congr_right fun _ => ?_
  constructor
  · rintro (many | ⟨mem, one⟩)
    · exact .inl many
    · exact .inr ⟨mem, by omega⟩
  · rintro (many | ⟨mem, held⟩)
    · exact .inl many
    · rcases apart tile mem with few | many
      · exact .inr ⟨mem, by omega⟩
      · exact .inl many

/-- A pung with two of its tiles in the hand is not counted. -/
theorem gouCountWutiyong_lt (nodup : (pungTiles false mingPai).Nodup)
    (inside : ∀ tile ∈ pungTiles false mingPai, 1 ≤ tile ∧ tile ≤ 37) {pung : Nat}
    (mem : pung ∈ pungTiles false mingPai) (two : counts pung = 2) :
    gouCountWutiyong mingPai counts < (heldFour (pungTiles false mingPai) counts).card := by
  rw [gouCountWutiyong_split nodup inside]
  apply Finset.card_lt_card
  rw [Finset.ssubset_iff_of_subset]
  · refine ⟨pung, mem_heldFour.2 ⟨inside pung mem, .inr ⟨mem, by omega⟩⟩, ?_⟩
    simp only [Finset.mem_union, Finset.mem_filter, two]
    omega
  · intro tile
    simp only [Finset.mem_union, Finset.mem_filter, Finset.mem_Icc, mem_heldFour]
    rintro (⟨range, many⟩ | ⟨range, shown, one⟩)
    · exact ⟨range, .inl many⟩
    · exact ⟨range, .inr ⟨shown, by omega⟩⟩

end Rule
end FkServer.MaajanZigong
