import Mathlib.Algebra.Order.Floor.Ring
import Mathlib.Data.Rat.Floor

/-!
# Conversion to an integer type

A conversion from a floating to an integer type rounds towards zero.
-/

namespace CS

variable {α : Type*} [Ring α] [LinearOrder α] [FloorRing α]

/-- Round towards zero. -/
def trunc (a : α) : ℤ := if 0 ≤ a then ⌊a⌋ else ⌈a⌉

theorem trunc_of_nonneg {a : α} (h : 0 ≤ a) : trunc a = ⌊a⌋ := if_pos h

theorem trunc_nonneg {a : α} (h : 0 ≤ a) : 0 ≤ trunc a := by
  rw [trunc_of_nonneg h]
  exact Int.floor_nonneg.mpr h

/-- Rounding a nonnegative number towards zero does not raise it. -/
theorem trunc_le {a : α} (h : 0 ≤ a) : (trunc a : α) ≤ a := by
  rw [trunc_of_nonneg h]
  exact Int.floor_le a

theorem trunc_mono {a b : α} (hab : a ≤ b) : trunc a ≤ trunc b := by
  unfold trunc
  split_ifs with ha hb hb
  · exact Int.floor_mono hab
  · exact absurd (ha.trans hab) hb
  · -- below zero on one side, above it on the other
    exact (Int.ceil_nonpos.mpr (not_le.mp ha).le).trans (Int.floor_nonneg.mpr hb)
  · exact Int.ceil_mono hab

/-- An integer below a nonnegative number is below what the number is rounded to. -/
theorem le_trunc {a : α} {n : ℤ} (ha : 0 ≤ a) (h : (n : α) ≤ a) : n ≤ trunc a := by
  rw [trunc_of_nonneg ha]
  exact Int.le_floor.mpr h

end CS
