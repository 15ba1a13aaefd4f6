import Mathlib

/-!
# Binary floating point as rounded rational arithmetic

A finite binary floating-point number is a rational, and an operation on such numbers gives the
exact rational result rounded to the nearest number of the format. `round bits x` is that rounding
for a format with `bits` fraction bits and ties to even, without limits on the exponent: for values
in the normal range of the format it is what the hardware does.

* `abs_round_sub_le`: the relative error is at most half a unit of the last place.
* `round_nonneg`: rounding keeps the sign.
* `truncate`: the conversion to an integer, towards zero.
-/

namespace Rounding

variable {bits : ℕ} {x : ℚ}

/-- The nearest integer, the even one of two. -/
def roundHalfEven (x : ℚ) : ℤ :=
  if x - ⌊x⌋ < 1 / 2 then ⌊x⌋
  else if 1 / 2 < x - ⌊x⌋ then ⌊x⌋ + 1
  else if ⌊x⌋ % 2 = 0 then ⌊x⌋ else ⌊x⌋ + 1

/-- Rounding to an integer moves a number by one half at most. -/
lemma abs_roundHalfEven_sub_le (x : ℚ) : |(roundHalfEven x : ℚ) - x| ≤ 1 / 2 := by
  have h₁ := Int.floor_le x
  have h₂ := Int.lt_floor_add_one x
  unfold roundHalfEven
  rw [abs_le]
  split_ifs <;> push_cast <;> constructor <;> linarith

/-- A number that is not negative is rounded to one that is not. -/
lemma roundHalfEven_nonneg (h : 0 ≤ x) : 0 ≤ roundHalfEven x := by
  have hfloor : 0 ≤ ⌊x⌋ := Int.floor_nonneg.mpr h
  unfold roundHalfEven
  split_ifs <;> omega

/-- The unit of the last place at `x`. -/
def ulp (bits : ℕ) (x : ℚ) : ℚ := 2 ^ (Int.log 2 |x| - bits)

/-- The distance of neighbouring floating-point numbers is positive. -/
lemma ulp_pos (bits : ℕ) (x : ℚ) : 0 < ulp bits x := zpow_pos (by norm_num) _

/-- A number other than zero has its leading bit `bits` places before the last. -/
lemma ulp_mul_le (hx : x ≠ 0) : ulp bits x * 2 ^ bits ≤ |x| := by
  have hlog : ((2 : ℕ) : ℚ) ^ Int.log 2 |x| ≤ |x| :=
    Int.zpow_log_le_self (by norm_num) (abs_pos.mpr hx)
  calc ulp bits x * 2 ^ bits
      = (2 : ℚ) ^ (Int.log 2 |x| - bits) * 2 ^ (bits : ℤ) := by rw [zpow_natCast]; rfl
    _ = (2 : ℚ) ^ Int.log 2 |x| := by
        rw [← zpow_add₀ (by norm_num), sub_add_cancel]
    _ ≤ |x| := by exact_mod_cast hlog

/-- The nearest number with `bits` fraction bits, the even one of two. -/
def round (bits : ℕ) (x : ℚ) : ℚ := roundHalfEven (x / ulp bits x) * ulp bits x

/-- **The rounding error** is at most half a unit of the last place. -/
lemma abs_round_sub_le (bits : ℕ) (x : ℚ) : |round bits x - x| ≤ |x| / 2 ^ (bits + 1) := by
  have hulp := ulp_pos bits x
  have herr : |round bits x - x| ≤ ulp bits x / 2 := by
    have heq : round bits x - x = (roundHalfEven (x / ulp bits x) - x / ulp bits x) * ulp bits x := by
      rw [round, sub_mul, div_mul_cancel₀ _ hulp.ne']
    rw [heq, abs_mul, abs_of_pos hulp]
    calc |(roundHalfEven (x / ulp bits x) : ℚ) - x / ulp bits x| * ulp bits x
        ≤ 1 / 2 * ulp bits x := by gcongr; exact abs_roundHalfEven_sub_le _
      _ = ulp bits x / 2 := by ring
  rcases eq_or_ne x 0 with rfl | hx
  · simp [round, roundHalfEven]
  · calc |round bits x - x| ≤ ulp bits x / 2 := herr
      _ = ulp bits x * 2 ^ bits / 2 ^ (bits + 1) := by
          rw [pow_succ]
          field_simp
      _ ≤ |x| / 2 ^ (bits + 1) := by gcongr; exact ulp_mul_le hx

/-- A floating-point result is not negative when the exact one is not. -/
lemma round_nonneg (h : 0 ≤ x) : 0 ≤ round bits x := by
  have hulp := ulp_pos bits x
  refine mul_nonneg ?_ hulp.le
  exact_mod_cast roundHalfEven_nonneg (div_nonneg h hulp.le)

/-- The conversion to an integer: the fraction is dropped. -/
def truncate (x : ℚ) : ℤ := if 0 ≤ x then ⌊x⌋ else ⌈x⌉

/-- A number that is not negative is truncated to its integer part. -/
lemma truncate_of_nonneg (h : 0 ≤ x) : truncate x = ⌊x⌋ := if_pos h

end Rounding
