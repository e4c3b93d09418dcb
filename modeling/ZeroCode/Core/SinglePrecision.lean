import Mathlib.Data.Int.Log
import ZeroCode.Core.Language

/-!
# Narrowing casts

Times are stored in single precision and counts as signed numbers of 32 bits. A time in the
normal range moves by less than one part in sixteen million, and a count of 32 bits comes
back as it was.
-/

namespace ZeroCode.Core

/-- The distance of the numbers of single precision around a number: 24 significant bits, down to the smallest
normal exponent. -/
def singleUlp (q : ℚ) : ℚ := 2 ^ (max (Int.log 2 |q|) (-126) - 23)

/-- The number of single precision nearest to a number, ties to the even one. The range of the exponent is not
bounded above. -/
def toSingle (q : ℚ) : ℚ := roundHalfEven (q / singleUlp q) * singleUlp q

/-- The 32 bits of a count as a signed number. -/
def asI32 (n : ℕ) : ℤ := Int.bmod n (2 ^ 32)

/-- The 32 bits of a signed number as a count. -/
def asU32 (n : ℤ) : ℕ := (n % 2 ^ 32).toNat

/-- Rounding to an integer moves a number by at most one half. -/
theorem abs_roundHalfEven_sub_le (q : ℚ) : |roundHalfEven q - q| ≤ 1 / 2 := by
  have hbelow : (⌊q⌋ : ℚ) ≤ q := Int.floor_le q
  unfold roundHalfEven
  simp only
  split
  · rw [abs_le]
    constructor <;> linarith
  · split
    · have habove : q < ⌊q⌋ + 1 := Int.lt_floor_add_one q
      rw [Int.cast_add, Int.cast_one, abs_le]
      constructor <;> linarith
    · have hhalf : q - ⌊q⌋ = 1 / 2 := by linarith
      split
      · rw [abs_le]
        constructor <;> linarith
      · rw [Int.cast_add, Int.cast_one, abs_le]
        constructor <;> linarith

/-- Rounding moves a number by at most half the distance of the numbers around it. -/
theorem abs_toSingle_sub_le (q : ℚ) : |toSingle q - q| ≤ singleUlp q / 2 := by
  have hpos : 0 < singleUlp q := zpow_pos (by norm_num) _
  have hscaled : toSingle q - q = (roundHalfEven (q / singleUlp q) - q / singleUlp q) * singleUlp q := by
    rw [toSingle, sub_mul, div_mul_cancel₀ q hpos.ne']
  rw [hscaled, abs_mul, abs_of_pos hpos]
  calc |(roundHalfEven (q / singleUlp q) : ℚ) - q / singleUlp q| * singleUlp q
      ≤ 1 / 2 * singleUlp q := mul_le_mul_of_nonneg_right (abs_roundHalfEven_sub_le _) hpos.le
    _ = singleUlp q / 2 := by ring

/-- In the normal range, rounding moves a number by at most one part in 2 ^ 24. -/
theorem abs_toSingle_sub_le_of_normal {q : ℚ} (hnormal : 2 ^ (-126 : ℤ) ≤ |q|) : |toSingle q - q| ≤ |q| / 2 ^ 24 := by
  have hpos : 0 < |q| := lt_of_lt_of_le (by positivity) hnormal
  have hlog : (-126 : ℤ) ≤ Int.log 2 |q| := (Int.zpow_le_iff_le_log Nat.one_lt_two hpos).mp (by exact_mod_cast hnormal)
  have hulp : singleUlp q = 2 ^ Int.log 2 |q| / 2 ^ 23 := by
    rw [singleUlp, max_eq_left hlog, zpow_sub₀ (by norm_num)]
    norm_num
  have hle : (2 : ℚ) ^ Int.log 2 |q| ≤ |q| := by exact_mod_cast Int.zpow_log_le_self Nat.one_lt_two hpos
  calc |toSingle q - q| ≤ singleUlp q / 2 := abs_toSingle_sub_le q
    _ = 2 ^ Int.log 2 |q| / 2 ^ 24 := by rw [hulp]; ring
    _ ≤ |q| / 2 ^ 24 := by gcongr

/-- A count of 32 bits comes back. -/
theorem asU32_asI32 {n : ℕ} (h : n < 2 ^ 32) : asU32 (asI32 n) = n := by
  have hmod : asI32 n % 2 ^ 32 = (n : ℤ) % 2 ^ 32 := Int.bmod_emod
  have hsmall : (n : ℤ) % 2 ^ 32 = n := Int.emod_eq_of_lt (Int.natCast_nonneg n) (by exact_mod_cast h)
  rw [asU32, hmod, hsmall, Int.toNat_natCast]

end ZeroCode.Core
