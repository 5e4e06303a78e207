import Mathlib.Data.List.Basic
import Mathlib.Order.Nat

/-!
The buffer into which `lua-seri.c` packs: a chain of blocks of a fixed size, of which the last one
is not full. What is pushed comes out in one piece again, wherever the blocks break it.
-/
namespace FkServer.Seri

abbrev Bytes := List UInt8

/-- `BLOCK_SIZE` -/
def blockSize : Nat := 128

/-- `struct write_block`: the blocks before `current`, and the first `ptr` bytes of `current`. -/
structure WriteBlock where
  full : List Bytes
  current : Bytes
  len : Nat
  full_size : ∀ block ∈ full, block.length = blockSize
  current_le : current.length ≤ blockSize
  len_eq : len = full.length * blockSize + current.length

namespace WriteBlock

/-- `wb_init` -/
def init : WriteBlock := ⟨[], [], 0, nofun, Nat.zero_le _, rfl⟩

/-- `b->current = b->current->next = blk_alloc()` -/
def next (b : WriteBlock) (filled : b.current.length = blockSize) : WriteBlock where
  full := b.full ++ [b.current]
  current := []
  len := b.len
  full_size block mem := by
    cases List.mem_append.1 mem with
    | inl old => exact b.full_size block old
    | inr last =>
        rw [List.mem_singleton.1 last]
        exact filled
  current_le := Nat.zero_le _
  len_eq := by
    rw [b.len_eq, filled, List.length_append, List.length_singleton, Nat.succ_mul]
    rfl

theorem next_room (b : WriteBlock) (filled : b.current.length = blockSize) :
    (b.next filled).current.length < blockSize :=
  show 0 < 128 by decide

/-- `memcpy` into the current block. -/
def write (b : WriteBlock) (buf : Bytes) (fits : b.current.length + buf.length ≤ blockSize) :
    WriteBlock where
  full := b.full
  current := b.current ++ buf
  len := b.len + buf.length
  full_size := b.full_size
  current_le := by rwa [List.length_append]
  len_eq := by rw [b.len_eq, List.length_append, Nat.add_assoc]

/-- `wb_push` from where the current block has room. -/
def pushFrom (b : WriteBlock) (room : b.current.length < blockSize) (buf : Bytes) : WriteBlock :=
  if fits : b.current.length + buf.length ≤ blockSize then
    b.write buf fits
  else
    let copy := blockSize - b.current.length
    have part : (buf.take copy).length = copy := by
      rw [List.length_take]
      omega
    have filled : b.current.length + (buf.take copy).length = blockSize := by omega
    have whole : (b.write (buf.take copy) filled.le).current.length = blockSize := by
      rw [write, List.length_append, filled]
    pushFrom ((b.write (buf.take copy) filled.le).next whole) (next_room _ whole) (buf.drop copy)
termination_by buf.length
decreasing_by
  rw [List.length_drop]
  omega

/-- `wb_push` -/
def push (b : WriteBlock) (buf : Bytes) : WriteBlock :=
  if filled : b.current.length = blockSize then
    (b.next filled).pushFrom (b.next_room filled) buf
  else
    b.pushFrom (lt_of_le_of_ne b.current_le filled) buf

def blocks (b : WriteBlock) : List Bytes := b.full ++ [b.current]

/-- All that was written. -/
def bytes (b : WriteBlock) : Bytes := b.blocks.flatten

theorem bytes_next (b : WriteBlock) (filled : b.current.length = blockSize) :
    (b.next filled).bytes = b.bytes := by
  simp [bytes, blocks, next]

theorem bytes_write (b : WriteBlock) (buf : Bytes)
    (fits : b.current.length + buf.length ≤ blockSize) :
    (b.write buf fits).bytes = b.bytes ++ buf := by
  simp [bytes, blocks, write]

theorem bytes_pushFrom (b : WriteBlock) (room : b.current.length < blockSize) (buf : Bytes) :
    (b.pushFrom room buf).bytes = b.bytes ++ buf := by
  induction b, room, buf using pushFrom.induct with
  | case1 b room buf fits => rw [pushFrom, dif_pos fits, bytes_write]
  | case2 b room buf broken copy part filled whole ih =>
      rw [pushFrom, dif_neg broken, ih, bytes_next, bytes_write, List.append_assoc,
        List.take_append_drop]

theorem bytes_push (b : WriteBlock) (buf : Bytes) : (b.push buf).bytes = b.bytes ++ buf := by
  unfold push
  split
  · rw [bytes_pushFrom, bytes_next]
  · rw [bytes_pushFrom]

end WriteBlock

/-- `seri`: `none` is a read behind the last block, or of bytes that were never written. -/
def seri : List Bytes → Nat → Option Bytes
  | _, 0 => some []
  | [], _ + 1 => none
  | b :: next, len + 1 =>
      if blockSize ≤ len + 1 then
        if b.length = blockSize then (seri next (len + 1 - blockSize)).map (b ++ ·) else none
      else if len + 1 ≤ b.length then some (b.take (len + 1)) else none

/-- The blocks are copied out as they were written. -/
theorem WriteBlock.seri_blocks (b : WriteBlock) : seri b.blocks b.len = some b.bytes := by
  have copied : ∀ (full : List Bytes) (current : Bytes),
      (∀ block ∈ full, block.length = blockSize) → current.length ≤ blockSize →
      seri (full ++ [current]) (full.length * blockSize + current.length) =
        some (full ++ [current]).flatten := by
    intro full
    induction full with
    | nil =>
        intro current _ le
        cases size : current.length with
        | zero => simp [seri, List.eq_nil_of_length_eq_zero size]
        | succ n =>
            rw [List.nil_append, List.length_nil, Nat.zero_mul, Nat.zero_add, seri]
            split
            · rename_i filled
              have whole : current.length = blockSize := by omega
              rw [if_pos whole, show n + 1 - blockSize = 0 by omega]
              simp [seri]
            · rw [if_pos size.ge]
              simp [← size]
    | cons block full ih =>
        intro current all le
        have whole := all block (.head _)
        have rest := ih current (fun block mem => all block (.tail _ mem)) le
        have total : (block :: full).length * blockSize + current.length =
            full.length * blockSize + current.length + 127 + 1 := by
          rw [List.length_cons, Nat.succ_mul]
          have : blockSize = 128 := rfl
          omega
        have left : full.length * blockSize + current.length + 127 + 1 - blockSize =
            full.length * blockSize + current.length := Nat.add_sub_cancel _ 128
        have more : blockSize ≤ full.length * blockSize + current.length + 127 + 1 :=
          Nat.le_add_left 128 _
        rw [total, List.cons_append, seri, if_pos more, if_pos whole, left, rest]
        rfl
  rw [b.len_eq]
  exact copied b.full b.current b.full_size b.current_le

end FkServer.Seri
