import Mathlib.Algebra.Order.Round
import Mathlib.Data.Int.Log
import PhoneLink.CS.Trunc

/-!
# Arithmetic with rounding

What a machine computes with `float` and `double` is the exact result of each operation,
rounded. A program is modelled for every such machine by taking the two roundings as a
parameter. The exact numbers are one instance, and rounding to the nearest number with 24
and with 53 binary digits is another.

## Main definitions

* `nearest`: the nearest number with so many binary digits
* `FloatArithmetic`: the roundings of a machine
* `FloatArithmetic.toInt`: the conversion to `int`
* `FloatArithmetic.exact`, `FloatArithmetic.binary`
-/

namespace CS

/-- The nearest integer, and of two the even one. -/
def roundEven (q : ℚ) : ℤ :=
  if Int.fract q < 1 / 2 ∨ Int.fract q = 1 / 2 ∧ ⌊q⌋ % 2 = 0 then ⌊q⌋ else ⌊q⌋ + 1

/-- The nearest number with `p` binary digits. There is no least and no greatest exponent. -/
def nearest (p : ℕ) (q : ℚ) : ℚ :=
  let unit : ℚ := 2 ^ (Int.log 2 |q| + 1 - p)
  roundEven (q / unit) * unit

theorem roundEven_ne_zero {q : ℚ} (h : 1 ≤ |q|) : roundEven q ≠ 0 := by
  have hfloor := Int.floor_add_fract q
  have hnonneg := Int.fract_nonneg q
  unfold roundEven
  rcases le_abs.mp h with hpos | hneg
  · have hone : (1 : ℤ) ≤ ⌊q⌋ := Int.le_floor.mpr (by exact_mod_cast hpos)
    split_ifs <;> omega
  · have hle : (⌊q⌋ : ℚ) ≤ -1 := by linarith
    have hle' : ⌊q⌋ ≤ -1 := by exact_mod_cast hle
    split_ifs with hdown
    · omega
    · -- a number that is rounded up has a fraction, so it is below `-1`
      intro hzero
      have hminus : (⌊q⌋ : ℚ) = -1 := by exact_mod_cast (by omega : ⌊q⌋ = -1)
      exact hdown (.inl (by linarith))

theorem nearest_eq_zero_iff {p : ℕ} (hp : 0 < p) {q : ℚ} : nearest p q = 0 ↔ q = 0 := by
  constructor
  · intro h
    by_contra hq
    have hunit : (0 : ℚ) < 2 ^ (Int.log 2 |q| + 1 - p) := zpow_pos (by norm_num) _
    have hdigits : 1 ≤ |q / 2 ^ (Int.log 2 |q| + 1 - p)| := by
      have hlog : ((2 : ℕ) : ℚ) ^ Int.log 2 |q| ≤ |q| :=
        Int.zpow_log_le_self (by decide) (abs_pos.mpr hq)
      rw [abs_div, abs_of_pos hunit, le_div_iff₀ hunit, one_mul]
      refine le_trans (zpow_le_zpow_right₀ (by norm_num) ?_) hlog
      omega
    rcases mul_eq_zero.mp h with hround | hzero
    · exact roundEven_ne_zero hdigits (by exact_mod_cast hround)
    · exact hunit.ne' hzero
  · rintro rfl
    simp [nearest, roundEven]

/-- How a machine computes: what it rounds the exact result of an operation to. -/
structure FloatArithmetic where
  /-- The result of an operation on `float`s. -/
  toFloat : ℚ → ℚ
  /-- The result of an operation on `double`s. -/
  toDouble : ℚ → ℚ
  /-- What a division by zero leaves when its result is converted to `int`. -/
  ofUndefined : ℤ
  toFloat_eq_zero_iff : ∀ q, toFloat q = 0 ↔ q = 0

namespace FloatArithmetic

/-- Rational numbers. -/
def exact : FloatArithmetic := ⟨id, id, 0, fun _ => Iff.rfl⟩

/-- Convert to `int` what was computed with a quotient by the divisor. -/
def toInt (arithmetic : FloatArithmetic) (divisor value : ℚ) : ℤ :=
  if divisor = 0 then arithmetic.ofUndefined else trunc value

theorem toInt_of_ne_zero {arithmetic : FloatArithmetic} {divisor value : ℚ} (h : divisor ≠ 0) :
    arithmetic.toInt divisor value = trunc value := if_neg h

/-- To the nearest number with 24 and with 53 digits, as long as none is too great or too
small for the format. -/
def binary : FloatArithmetic :=
  ⟨nearest 24, nearest 53, 0, fun _ => nearest_eq_zero_iff (by decide)⟩

end FloatArithmetic

example : nearest 24 (1280 / 480) = 11184811 / 4194304 := by decide +kernel

end CS
