import Mathlib.Algebra.Group.Nat.Defs
import Mathlib.Data.List.Basic
import Mathlib.Logic.Function.Basic

/-!
`skynet_mq.c`: the message queue of a service, a ring that doubles when it is full.
-/
namespace FkServer.Skynet

/-- `struct message_queue` without its lock and the link to the next queue. -/
structure MessageQueue (Message : Type) where
  handle : Nat
  cap : Nat
  head : Nat
  tail : Nat
  release : Bool
  in_global : Bool
  overload : Nat
  overload_threshold : Nat
  queue : Nat → Message

def DEFAULT_QUEUE_SIZE : Nat := 64
def MQ_OVERLOAD : Nat := 1024

namespace MessageQueue

variable {Message : Type} (q : MessageQueue Message)

/-- `skynet_mq_create`; `fresh` is what is in the memory that it gets. -/
def create (fresh : Nat → Message) (handle : Nat) : MessageQueue Message where
  handle := handle
  cap := DEFAULT_QUEUE_SIZE
  head := 0
  tail := 0
  release := false
  in_global := true
  overload := 0
  overload_threshold := MQ_OVERLOAD
  queue := fresh

/-- `skynet_mq_length` -/
def length : Nat := if q.head ≤ q.tail then q.tail - q.head else q.tail + q.cap - q.head

/-- `skynet_mq_overload`, what it returns and what it leaves. -/
def takeOverload : Nat × MessageQueue Message := (q.overload, { q with overload := 0 })

/-- The loop of `skynet_mq_pop` that raises the threshold; it has doubled before the fuel is out. -/
def raise (length : Nat) : Nat → MessageQueue Message → MessageQueue Message
  | 0, q => q
  | fuel + 1, q =>
      if q.overload_threshold < length then
        raise length fuel
          { q with overload := length, overload_threshold := q.overload_threshold * 2 }
      else q

/-- `skynet_mq_pop` -/
def pop : Option Message × MessageQueue Message :=
  if q.head ≠ q.tail then
    let message := q.queue q.head
    let head := if q.head + 1 ≥ q.cap then 0 else q.head + 1
    let length : Int := (q.tail : Int) - head
    let length := if length < 0 then length + q.cap else length
    (some message, raise length.toNat length.toNat { q with head := head })
  else (none, { q with overload_threshold := MQ_OVERLOAD, in_global := false })

def expandQueue (fresh : Nat → Message) : MessageQueue Message :=
  { q with
    queue := fun i => if i < q.cap then q.queue ((q.head + i) % q.cap) else fresh i
    head := 0
    tail := q.cap
    cap := q.cap * 2 }

/-- `skynet_mq_push` without the global queue. -/
def push (fresh : Nat → Message) (message : Message) : MessageQueue Message :=
  let queue := Function.update q.queue q.tail message
  let tail := if q.tail + 1 ≥ q.cap then 0 else q.tail + 1
  let pushed := { q with queue := queue, tail := tail }
  if pushed.head = pushed.tail then pushed.expandQueue fresh else pushed

/-! ### The ring is a list -/

/-- The head and the tail are in the ring. -/
def InRing : Prop := q.head < q.cap ∧ q.tail < q.cap

/-- The messages from the head to the tail. -/
def contents : List Message := (List.range q.length).map fun i => q.queue ((q.head + i) % q.cap)

variable {q}

@[simp] theorem length_contents : q.contents.length = q.length := by
  rw [contents, List.length_map, List.length_range]

theorem create_contents (fresh : Nat → Message) (handle : Nat) :
    (create fresh handle).contents = [] := rfl

theorem create_inRing (fresh : Nat → Message) (handle : Nat) : (create fresh handle).InRing :=
  ⟨show 0 < 64 by decide, show 0 < 64 by decide⟩

/-- One slot is always free, which is the tail. -/
theorem InRing.tail_eq (h : q.InRing) : q.length < q.cap ∧ (q.head + q.length) % q.cap = q.tail := by
  obtain ⟨head, tail⟩ := h
  unfold length
  split
  · rename_i ordered
    rw [Nat.add_sub_cancel' ordered, Nat.mod_eq_of_lt tail]
    exact ⟨by omega, rfl⟩
  · have around : q.head + (q.tail + q.cap - q.head) = q.tail + q.cap := by omega
    rw [around, Nat.add_mod_right, Nat.mod_eq_of_lt tail]
    exact ⟨by omega, rfl⟩

theorem mod_ne_of_lt {cap head i j : Nat} (less : i < j) (inside : j < cap) :
    (head + i) % cap ≠ (head + j) % cap := by
  intro same
  have dvd := Nat.dvd_of_mod_eq_zero (Nat.sub_mod_eq_zero_of_mod_eq same.symm)
  have small := Nat.le_of_dvd (by omega) dvd
  omega

/-- A push leaves the rest of the queue alone. -/
theorem push_frame (fresh : Nat → Message) (message : Message) :
    (q.push fresh message).in_global = q.in_global ∧ (q.push fresh message).release = q.release ∧
      (q.push fresh message).handle = q.handle ∧
      (q.push fresh message).overload_threshold = q.overload_threshold := by
  unfold push
  simp only
  split <;> split <;> exact ⟨rfl, rfl, rfl, rfl⟩

/-- The messages that were there, and the new one in the free slot. -/
theorem contents_snoc (h : q.InRing) (message : Message) :
    ((List.range (q.length + 1)).map fun i =>
      Function.update q.queue q.tail message ((q.head + i) % q.cap)) = q.contents ++ [message] := by
  obtain ⟨room, tail⟩ := h.tail_eq
  rw [List.range_succ, List.map_append, List.map_singleton, tail, Function.update_self]
  congr 1
  refine List.map_congr_left fun i mem => ?_
  have apart : (q.head + i) % q.cap ≠ (q.head + q.length) % q.cap :=
    mod_ne_of_lt (List.mem_range.1 mem) room
  rw [tail] at apart
  rw [Function.update_of_ne apart]

theorem push_spec (h : q.InRing) (fresh : Nat → Message) (message : Message) :
    (q.push fresh message).InRing ∧
      (q.push fresh message).contents = q.contents ++ [message] := by
  have snoc := contents_snoc h message
  obtain ⟨room, -⟩ := h.tail_eq
  obtain ⟨head, tail⟩ := h
  unfold push
  by_cases full : q.head = if q.tail + 1 ≥ q.cap then 0 else q.tail + 1
  · -- the ring is full, and the new one starts with its head
    have length : q.length + 1 = q.cap := by
      unfold MessageQueue.length
      split <;> split at full <;> omega
    rw [if_pos full]
    refine ⟨⟨by simp only [expandQueue]; omega, by simp only [expandQueue]; omega⟩, ?_⟩
    rw [← snoc, length]
    have new_length : (expandQueue { q with
        queue := Function.update q.queue q.tail message
        tail := if q.tail + 1 ≥ q.cap then 0 else q.tail + 1 } fresh).length = q.cap := rfl
    rw [contents, new_length]
    refine List.map_congr_left fun i mem => ?_
    have inside := List.mem_range.1 mem
    simp only [expandQueue]
    rw [Nat.zero_add, Nat.mod_eq_of_lt (by omega), if_pos inside]
  · rw [if_neg full]
    have length : (MessageQueue.length { q with
        queue := Function.update q.queue q.tail message
        tail := if q.tail + 1 ≥ q.cap then 0 else q.tail + 1 }) = q.length + 1 := by
      simp only [MessageQueue.length]
      split at full <;> rename_i last <;> simp only [last, if_true, if_false] <;>
        split <;> split <;> omega
    refine ⟨⟨head, ?_⟩, ?_⟩
    · simp only
      split <;> omega
    · rw [contents, length]
      exact snoc

theorem raise_eq (length fuel : Nat) : ∃ overload threshold, q.overload_threshold ≤ threshold ∧
    q.raise length fuel = { q with overload := overload, overload_threshold := threshold } := by
  induction fuel generalizing q with
  | zero => exact ⟨_, _, Nat.le_refl _, rfl⟩
  | succ fuel ih =>
      rw [raise]
      split
      · obtain ⟨overload, threshold, le, eq⟩ :=
          @ih { q with overload := length, overload_threshold := q.overload_threshold * 2 }
        exact ⟨overload, threshold, by simp only at le; omega, eq⟩
      · exact ⟨_, _, Nat.le_refl _, rfl⟩

/-- Each round doubles the threshold, so the fuel lasts. -/
theorem raise_threshold {length fuel : Nat} (pos : 0 < q.overload_threshold)
    (enough : length ≤ q.overload_threshold * 2 ^ fuel) :
    length ≤ (q.raise length fuel).overload_threshold ∧
      (q.raise length fuel).overload =
        if q.overload_threshold < length then length else q.overload := by
  induction fuel generalizing q with
  | zero =>
      rw [Nat.pow_zero, Nat.mul_one] at enough
      exact ⟨enough, (if_neg (by omega)).symm⟩
  | succ fuel ih =>
      rw [raise]
      split
      · rename_i less
        have rest := @ih { q with overload := length
                                  overload_threshold := q.overload_threshold * 2 }
          (by simp only; omega) (by simp only; rwa [Nat.mul_assoc, ← Nat.pow_succ'])
        refine ⟨rest.1, rest.2.trans ?_⟩
        rw [ite_self]
      · rename_i enough'
        exact ⟨by omega, rfl⟩

theorem pop_nil (h : q.InRing) (empty : q.contents = []) :
    q.pop = (none, { q with overload_threshold := MQ_OVERLOAD, in_global := false }) := by
  have length : q.length = 0 := by rw [← length_contents, empty, List.length_nil]
  obtain ⟨head, tail⟩ := h
  have same : q.head = q.tail := by
    unfold MessageQueue.length at length
    split at length <;> omega
  rw [pop, if_neg (by simp [same])]

theorem raise_release (length fuel : Nat) : (q.raise length fuel).release = q.release := by
  obtain ⟨overload, threshold, -, eq⟩ := raise_eq (q := q) length fuel
  rw [eq]

theorem pop_release : q.pop.2.release = q.release := by
  unfold pop
  split
  · exact raise_release ..
  · rfl

/-- What a successful pop leaves: the rest, under a threshold that covers it, and the length as a
warning where the old threshold did not. -/
structure Popped (q : MessageQueue Message) (rest : List Message) (q' : MessageQueue Message) :
    Prop where
  inRing : q'.InRing
  contents : q'.contents = rest
  in_global : q'.in_global = q.in_global
  release : q'.release = q.release
  handle : q'.handle = q.handle
  positive : 0 < q'.overload_threshold
  covered : rest.length ≤ q'.overload_threshold
  overload : q'.overload =
    if q.overload_threshold < rest.length then rest.length else q.overload

theorem advance_spec (h : q.InRing) {message : Message} {rest : List Message}
    (first : q.contents = message :: rest) (q' : MessageQueue Message)
    (head : q'.head = if q.head + 1 ≥ q.cap then 0 else q.head + 1) (tail : q'.tail = q.tail)
    (cap : q'.cap = q.cap) (queue : q'.queue = q.queue) :
    q'.InRing ∧ q'.contents = rest ∧ q.queue q.head = message := by
  have length : q.length = rest.length + 1 := by rw [← length_contents, first, List.length_cons]
  have view := first
  rw [contents, length, List.range_succ_eq_map, List.map_cons, List.cons.injEq, Nat.add_zero,
    Nat.mod_eq_of_lt h.1, List.map_map] at view
  obtain ⟨inside, inside'⟩ := h
  have next : q'.head = (q.head + 1) % q.cap := by
    rw [head]
    split
    · have last : q.head + 1 = q.cap := by omega
      rw [last, Nat.mod_self]
    · exact (Nat.mod_eq_of_lt (by omega)).symm
  have length' : q'.length = rest.length := by
    unfold MessageQueue.length at length ⊢
    rw [head, tail, cap]
    split at length <;> split <;> split <;> omega
  refine ⟨⟨?_, by rw [tail, cap]; exact inside'⟩, ?_, view.1⟩
  · rw [next, cap]
    exact Nat.mod_lt _ (by omega)
  · rw [← view.2, contents, length', queue, next, cap]
    refine List.map_congr_left fun i _ => ?_
    show q.queue (((q.head + 1) % q.cap + i) % q.cap) = q.queue ((q.head + (i + 1)) % q.cap)
    rw [Nat.mod_add_mod, Nat.add_assoc, Nat.add_comm 1 i]

/-- The first message comes out. -/
theorem pop_cons (h : q.InRing) (pos : 0 < q.overload_threshold) {message : Message}
    {rest : List Message} (first : q.contents = message :: rest) :
    ∃ q', q.pop = (some message, q') ∧ Popped q rest q' := by
  have length : q.length = rest.length + 1 := by rw [← length_contents, first, List.length_cons]
  have some : q.head ≠ q.tail := by
    intro same
    unfold MessageQueue.length at length
    rw [if_pos (by omega)] at length
    omega
  obtain ⟨inRing, contents, front⟩ := advance_spec h first
    { q with head := if q.head + 1 ≥ q.cap then 0 else q.head + 1 } rfl rfl rfl rfl
  have count : (let length : Int := (q.tail : Int) - ↑(if q.head + 1 ≥ q.cap then 0 else q.head + 1)
      let length := if length < 0 then length + q.cap else length
      length.toNat) = rest.length := by
    obtain ⟨inside, inside'⟩ := h
    unfold MessageQueue.length at length
    simp only
    split at length <;> split <;> split <;> omega
  have grows : rest.length ≤ q.overload_threshold * 2 ^ rest.length :=
    Nat.le_trans (Nat.le_of_lt Nat.lt_two_pow_self) (Nat.le_mul_of_pos_left _ pos)
  obtain ⟨covered, overload⟩ := raise_threshold
    (q := { q with head := if q.head + 1 ≥ q.cap then 0 else q.head + 1 }) pos grows
  obtain ⟨overload', threshold', le, eq⟩ := raise_eq
    (q := { q with head := if q.head + 1 ≥ q.cap then 0 else q.head + 1 }) rest.length rest.length
  refine ⟨_, ?_, ⟨?_, ?_, ?_, ?_, ?_, ?_, covered, overload⟩⟩
  · rw [pop, if_pos some]
    simp only at count ⊢
    rw [count, front]
  all_goals rw [eq]
  · exact inRing
  · exact contents
  · exact Nat.lt_of_lt_of_le pos le

end MessageQueue

end FkServer.Skynet
