import FkServer.ChangpaiZigong.Invariant

/-!
The start of a round: the deck is spread over the hands, the cut and the wall.
-/
namespace FkServer.ChangpaiZigong

variable {c : Conf} {aim : Aim} {t : Table}

/-- The hands dealt one after another are the first cards of the wall. -/
theorem sum_dealt (wall : List Nat) (n x : Nat) :
    ((List.range' 1 n).map fun i =>
      (((wall.drop (15 * (i - 1))).take 15).count x : Int)).sum = (wall.take (15 * n)).count x := by
  induction n with
  | zero => simp
  | succ n ih =>
      have last : wall.take (15 * (n + 1)) = wall.take (15 * n) ++ (wall.drop (15 * n)).take 15 := by
        rw [Nat.mul_succ, List.take_add]
      rw [List.range'_1_concat, List.map_append, List.sum_append, ih, last, List.count_append]
      simp [Nat.add_comm 1 n]

/-- The cards a chair starts with. -/
theorem started_pai (shuffled : List Nat) (zhuang i x : Nat) (zhuangPai : Option Nat)
    (seat : i ∈ chairs c) :
    let wall := shuffled.drop (if c.startCount = 2 then 15 else 0)
    ((started c shuffled zhuang zhuangPai).player i).pai.cards x =
      (((wall.drop (15 * (i - 1))).take 15).count x : Int) +
        if i = zhuang then ((wall.drop (15 * c.startCount)).head?.toList.count x : Int) else 0 := by
  simp only [started, Pai.cards, dealt, if_pos seat, List.flatMap_nil, List.count_nil,
    List.count_append]
  by_cases dealer : i = zhuang
  · simp only [dealer, if_true]
    omega
  · simp only [dealer, if_false, List.count_nil]
    omega

theorem sum_dealer {l : List Nat} (distinct : l.Nodup) {zhuang : Nat} (seat : zhuang ∈ l)
    (n : Int) : (l.map fun i => if i = zhuang then n else 0).sum = n := by
  have only := List.sum_map_ite_eq l (fun _ => n) (fun _ => 0) zhuang
  rw [List.count_eq_one_of_mem distinct seat] at only
  simpa using only

/-- Every card of the deck lies in a hand, in the cut or in the wall. -/
theorem started_total {shuffled : List Nat} {zhuang : Nat} {zhuangPai : Option Nat}
    (seat : zhuang ∈ chairs c) (x : Nat) :
    total c (started c shuffled zhuang zhuangPai) x = shuffled.count x := by
  have hands : ((chairs c).map fun i =>
      ((started c shuffled zhuang zhuangPai).player i).pai.cards x) = _ :=
    List.map_congr_left fun i mem => started_pai shuffled zhuang i x zhuangPai mem
  rw [total, hands, List.sum_map_add, sum_dealer (chairs_nodup c) seat, chairs, sum_dealt]
  simp only [started, List.append_nil]
  generalize (if c.startCount = 2 then 15 else 0) = cut
  have whole : shuffled.count x = (shuffled.take cut).count x + (shuffled.drop cut).count x := by
    rw [← List.count_append, List.take_append_drop]
  have dealt : (shuffled.drop cut).count x =
      ((shuffled.drop cut).take (15 * c.startCount)).count x +
        ((shuffled.drop cut).drop (15 * c.startCount)).count x := by
    rw [← List.count_append, List.take_append_drop]
  have first : ∀ l : List Nat, l.count x = l.head?.toList.count x + l.tail.count x := by
    intro l
    cases l with
    | nil => rfl
    | cons a l =>
        rw [List.head?_cons, Option.toList_some, List.tail_cons, ← List.count_append]
        rfl
  have extra := first ((shuffled.drop cut).drop (15 * c.startCount))
  rw [List.count_append]
  omega

theorem deck_count {x : Nat} (card : Card x) : deck.count x = 4 := by
  rw [deck, List.count_flatten, List.map_replicate, List.sum_replicate,
    List.count_eq_one_of_mem List.nodup_range' (List.mem_range'_1.2 (by unfold Card at card; omega))]
  rfl

theorem mem_deck {x : Nat} (mem : x ∈ deck) : Card x := by
  obtain ⟨l, here, mem⟩ := List.mem_flatten.1 mem
  obtain rfl := List.eq_of_mem_replicate here
  rw [List.mem_range'_1] at mem
  unfold Card
  omega

/-- The dealer starts with cards, and none of them is unusable. -/
theorem started_dealing {shuffled : List Nat} {zhuang : Nat} {zhuangPai : Option Nat}
    (deal : shuffled.Perm deck) (seat : zhuang ∈ chairs c) :
    Dealing c (started c shuffled zhuang zhuangPai) := by
  have four := c.four
  rw [chairs, List.mem_range'_1] at seat
  obtain ⟨x, rest, block⟩ : ∃ x rest,
      (shuffled.drop (if c.startCount = 2 then 15 else 0)).drop (15 * (zhuang - 1)) = x :: rest := by
    apply List.exists_cons_of_length_pos
    have all : shuffled.length = 84 := deal.length_eq
    rw [List.length_drop, List.length_drop, all]
    split <;> omega
  refine ⟨⟨x, ?_⟩, fun _ x mem => absurd mem List.not_mem_nil, fun away => absurd rfl away⟩
  apply Int.natCast_pos.2
  rw [List.count_pos_iff]
  apply List.mem_append_left
  have here : zhuang ∈ chairs c := by
    rw [chairs, List.mem_range'_1]
    exact seat
  change x ∈ dealt c (shuffled.drop (if c.startCount = 2 then 15 else 0)) zhuang
  rw [dealt, if_pos here, block]
  exact List.mem_cons_self

/-- A round starts with four of every card, and nobody may act yet. -/
theorem Started.sound (start : Started c t) :
    Sound c aim t ∧ ∀ x, Card x → total c t x = 4 := by
  obtain ⟨shuffled, zhuang, zhuangPai, deal, seat, rfl⟩ := start
  have card : ∀ x, 0 < shuffled.count x → Card x := fun x more =>
    mem_deck (deal.mem_iff.1 (List.count_pos_iff.1 more))
  have stock : Stock c (started c shuffled zhuang zhuangPai) := by
    refine ⟨seat, seat, fun i x => Int.natCast_nonneg _, fun i x held => ?_, fun x mem => ?_⟩
    · have held' : 0 < (dealt c (shuffled.drop (if c.startCount = 2 then 15 else 0)) i ++
          if i = zhuang then ((shuffled.drop (if c.startCount = 2 then 15 else 0)).drop
            (15 * c.startCount)).head?.toList else []).count x := Int.natCast_pos.1 held
      apply card x
      rw [List.count_pos_iff] at held' ⊢
      cases List.mem_append.1 held' with
      | inl hand =>
          unfold dealt at hand
          split at hand
          · exact List.mem_of_mem_drop (List.mem_of_mem_drop (List.mem_of_mem_take hand))
          · cases hand
      | inr extra =>
          split at extra
          · rw [Option.mem_toList] at extra
            exact List.mem_of_mem_drop (List.mem_of_mem_drop (List.mem_of_mem_head? extra))
          · cases extra
    · apply card x
      rw [List.count_pos_iff]
      exact List.mem_of_mem_drop (List.mem_of_mem_drop (List.mem_of_mem_tail mem))
  refine ⟨{ stock with
    offers := fun _ mem => absurd mem List.not_mem_nil
    still := fun k runs => ⟨rfl, Option.some.inj runs ▸ rfl⟩
    rob := fun _ none => absurd none (by simp [started])
    running := by simp [started]
    supply := fun _ => started_dealing deal seat }, fun x isCard => ?_⟩
  rw [started_total seat, deal.count_eq, deck_count isCard]
  rfl

end FkServer.ChangpaiZigong
