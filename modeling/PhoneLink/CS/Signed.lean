import Mathlib.Algebra.Order.Ring.Int
import Mathlib.Tactic.Positivity

/-!
# Checked signed arithmetic

Signed arithmetic of a fixed width where overflow is undefined: an operation yields the
exact result if that is representable and nothing otherwise. A computation that yields a
value has therefore not overflowed anywhere.

Division rounds towards zero and the remainder has the sign of the dividend.
-/

namespace CS.Signed

variable {w : ℕ} {a b n : ℤ}

/-- `n` is representable in `w + 1` bits, sign included. -/
def Fits (w : ℕ) (n : ℤ) : Prop := -2 ^ w ≤ n ∧ n < 2 ^ w

instance (w : ℕ) (n : ℤ) : Decidable (Fits w n) := inferInstanceAs (Decidable (_ ∧ _))

/-- The exact result, if it is representable. -/
def checked (w : ℕ) (n : ℤ) : Option ℤ := if Fits w n then some n else none

def add (w : ℕ) (a b : ℤ) : Option ℤ := checked w (a + b)

def sub (w : ℕ) (a b : ℤ) : Option ℤ := checked w (a - b)

def mul (w : ℕ) (a b : ℤ) : Option ℤ := checked w (a * b)

def div (w : ℕ) (a b : ℤ) : Option ℤ := if b = 0 then none else checked w (a.tdiv b)

/-- The remainder is defined where the quotient is. -/
def mod (w : ℕ) (a b : ℤ) : Option ℤ := (div w a b).map fun _ => a.tmod b

theorem checked_of_fits (h : Fits w n) : checked w n = some n := if_pos h

theorem add_of_fits (h : Fits w (a + b)) : add w a b = some (a + b) := checked_of_fits h

theorem sub_of_fits (h : Fits w (a - b)) : sub w a b = some (a - b) := checked_of_fits h

theorem mul_of_fits (h : Fits w (a * b)) : mul w a b = some (a * b) := checked_of_fits h

/-- A nonnegative number divided by a positive one does not overflow. -/
theorem div_of_nonneg (ha : 0 ≤ a) (hb : 0 < b) (h : Fits w a) : div w a b = some (a / b) := by
  have hnonneg : 0 ≤ a / b := Int.ediv_nonneg ha hb.le
  have hle : a / b ≤ a := Int.ediv_le_self b ha
  rw [div, if_neg hb.ne', Int.tdiv_eq_ediv_of_nonneg ha]
  exact checked_of_fits ⟨(neg_nonpos.mpr (by positivity)).trans hnonneg, hle.trans_lt h.2⟩

theorem mod_of_nonneg (ha : 0 ≤ a) (hb : 0 < b) (h : Fits w a) : mod w a b = some (a % b) := by
  rw [mod, div_of_nonneg ha hb h, Option.map_some, Int.tmod_eq_emod_of_nonneg ha]

end CS.Signed
