import Mathlib.Algebra.Order.Ring.Nat
import Mathlib.Data.Nat.Bitwise

/-!
# Blocks of addresses

An address is a number, and a block holds the addresses that agree with its base above its
free bits. A block is an interval; it is told by a mask; and when the address is written in
two parts, a block whose free bits cover the lower part is a block of the upper one.
-/

namespace ZeroCode.Foundation

/-- The addresses that agree with the base above the free bits. -/
structure Block where
  base : ℕ
  free : ℕ
  deriving DecidableEq, Repr

/-- The address is in the block. -/
def Block.Contains (b : Block) (a : ℕ) : Prop := a / 2 ^ b.free = b.base / 2 ^ b.free

instance (b : Block) (a : ℕ) : Decidable (b.Contains a) := inferInstanceAs (Decidable (_ = _))

/-- A block without free bits holds its base only. -/
theorem Block.contains_single (base a : ℕ) : (Block.mk base 0).Contains a ↔ a = base := by
  simp only [Block.Contains, pow_zero, Nat.div_one]

/-- A block is an interval. -/
theorem Block.contains_iff_le_lt (base free a : ℕ) :
    (Block.mk (base * 2 ^ free) free).Contains a ↔ base * 2 ^ free ≤ a ∧ a < base * 2 ^ free + 2 ^ free := by
  have hpos : 0 < 2 ^ free := Nat.two_pow_pos free
  rw [Block.Contains, Nat.mul_div_cancel _ hpos, Nat.div_eq_iff hpos]
  omega

/-- Below the free bits a block says nothing, so they may be split off. -/
theorem Block.contains_shift (base free low : ℕ) {lower : ℕ} (hlower : lower < 2 ^ low) (upper : ℕ) :
    (Block.mk (base * 2 ^ low) (free + low)).Contains (upper * 2 ^ low + lower) ↔
      (Block.mk base free).Contains upper := by
  have hpos : 0 < 2 ^ low := Nat.two_pow_pos low
  have hupper : (upper * 2 ^ low + lower) / 2 ^ low = upper := by
    rw [Nat.mul_comm, Nat.mul_add_div hpos, Nat.div_eq_of_lt hlower, Nat.add_zero]
  simp only [Block.Contains]
  rw [Nat.add_comm free, Nat.pow_add, ← Nat.div_div_eq_div_mul, ← Nat.div_div_eq_div_mul, hupper,
    Nat.mul_div_cancel _ hpos]

/-- Masking keeps the bits above the free ones. -/
theorem and_mask (length free a : ℕ) (ha : a < 2 ^ (free + length)) :
    a &&& (2 ^ length - 1) <<< free = a / 2 ^ free * 2 ^ free := by
  have htop : a / 2 ^ free < 2 ^ length := Nat.div_lt_of_lt_mul (by rwa [← Nat.pow_add])
  have hupper : a >>> free &&& (2 ^ length - 1) = a / 2 ^ free := by
    rw [Nat.and_two_pow_sub_one_eq_mod, Nat.shiftRight_eq_div_pow, Nat.mod_eq_of_lt htop]
  rw [← Nat.shiftLeft_eq, ← hupper]
  apply Nat.eq_of_testBit_eq
  intro i
  simp only [Nat.testBit_and, Nat.testBit_shiftLeft, Nat.testBit_shiftRight]
  by_cases hi : free ≤ i
  · simp [hi]
  · simp [hi]

/-- A block is told by a mask. -/
theorem Block.contains_iff_and (base length free : ℕ) {a : ℕ} (ha : a < 2 ^ (free + length)) :
    (Block.mk (base * 2 ^ free) free).Contains a ↔ a &&& (2 ^ length - 1) <<< free = base * 2 ^ free := by
  have hpos : 0 < 2 ^ free := Nat.two_pow_pos free
  rw [and_mask length free a ha, Block.Contains, Nat.mul_div_cancel _ hpos, Nat.mul_right_cancel_iff hpos]

end ZeroCode.Foundation
