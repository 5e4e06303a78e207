import Mathlib.Algebra.Order.Ring.Nat
import Mathlib.Tactic.Ring

/-!
Numbers as bytes, the lowest byte first.
-/
namespace LittleEndian

/-- The lowest `n` bytes of a number. -/
def bytes : Nat → Nat → List UInt8
  | 0, _ => []
  | n + 1, x => .ofNat x :: bytes n (x / 256)

def number : List UInt8 → Nat
  | [] => 0
  | b :: bs => b.toNat + 256 * number bs

@[simp] theorem length_bytes (n x : Nat) : (bytes n x).length = n := by
  induction n generalizing x with
  | zero => rfl
  | succ n ih => rw [bytes, List.length_cons, ih]

theorem number_bytes (n x : Nat) : number (bytes n x) = x % 256 ^ n := by
  induction n generalizing x with
  | zero => rw [bytes, number, pow_zero, Nat.mod_one]
  | succ n ih =>
      have low : (UInt8.ofNat x).toNat = x % 256 := UInt8.toNat_ofNat'
      rw [bytes, number, ih, low, pow_succ', Nat.mod_mul]

end LittleEndian
