import PhoneLink.CS.Trunc
import Mathlib.Tactic.Linarith
import Mathlib.Tactic.Ring

/-!
# Scaling twice

A number is scaled by a factor and rounded towards zero, and the result is scaled by the
same factor and rounded again. `abs_rescale_sub_le_one_iff` says how large the number may
be for the result to stay within one of the number scaled once.
-/

namespace CS

variable {α : Type*} [Field α] [LinearOrder α] [IsStrictOrderedRing α] [FloorRing α]

theorem trunc_neg (a : α) : trunc (-a) = -trunc a := by
  rcases lt_trichotomy a 0 with hneg | rfl | hpos
  · rw [trunc, trunc, if_pos (neg_nonneg.mpr hneg.le), if_neg (not_le.mpr hneg), Int.floor_neg]
  · simp [trunc]
  · rw [trunc, trunc, if_neg (not_le.mpr (neg_neg_of_pos hpos)), if_pos hpos.le, Int.ceil_neg]

/-- Rounding towards zero moves a number by less than one. -/
theorem abs_trunc_sub_lt_one (a : α) : |(trunc a : α) - a| < 1 := by
  unfold trunc
  split_ifs
  · rw [abs_sub_lt_iff]
    constructor <;> linarith [Int.floor_le a, Int.lt_floor_add_one a]
  · rw [abs_sub_lt_iff]
    constructor <;> linarith [Int.le_ceil a, Int.ceil_lt_add_one a]

/-- Scale by `f` and round, twice. -/
def rescale (f a : α) : ℤ := trunc (trunc (a * f) * f)

/-- What is rounded the second time is small: below `2 / (f - 1)` for a factor above one;
for a factor below one zero, or the exact product and at most `1 / (1 - f)`. -/
def NearlyExact (f a : α) : Prop :=
  ((|trunc (a * f)| : ℤ) : α) * (f - 1) < 2 ∧
    (f < 1 → trunc (a * f) = 0 ∨
      (((|trunc (a * f)| : ℤ) : α) = |a * f| ∧ ((|trunc (a * f)| : ℤ) : α) * (1 - f) ≤ 1))

instance (f a : α) : Decidable (NearlyExact f a) := inferInstanceAs (Decidable (_ ∧ (_ → _)))

variable {f a : α}

theorem rescale_neg : rescale f (-a) = -rescale f a := by
  rw [rescale, rescale, neg_mul, trunc_neg, Int.cast_neg, neg_mul, trunc_neg]

theorem nearlyExact_neg : NearlyExact f (-a) ↔ NearlyExact f a := by
  rw [NearlyExact, NearlyExact, neg_mul, trunc_neg, abs_neg, abs_neg, neg_eq_zero]

/-- A factor of at least one only ever moves the result away from zero. -/
private theorem rescale_iff_of_one_le (ha : 0 ≤ a) (hf : 1 ≤ f) :
    |(rescale f a : α) - a * f| ≤ 1 ↔ ((trunc (a * f) : ℤ) : α) * (f - 1) < 2 := by
  have hproduct : 0 ≤ a * f := mul_nonneg ha (zero_le_one.trans hf)
  have hm : (0 : α) ≤ (⌊a * f⌋ : ℤ) := by exact_mod_cast Int.floor_nonneg.mpr hproduct
  have hscaled : 0 ≤ ((⌊a * f⌋ : ℤ) : α) * f := mul_nonneg hm (zero_le_one.trans hf)
  rw [rescale, trunc_of_nonneg hproduct, trunc_of_nonneg hscaled]
  -- the first rounding loses less than one, and the second scaling loses nothing
  have hlow : ⌊a * f⌋ ≤ ⌊((⌊a * f⌋ : ℤ) : α) * f⌋ :=
    Int.le_floor.mpr (le_mul_of_one_le_right hm hf)
  have hlow' : ((⌊a * f⌋ : ℤ) : α) ≤ (⌊((⌊a * f⌋ : ℤ) : α) * f⌋ : ℤ) := by exact_mod_cast hlow
  have hlt := Int.lt_floor_add_one (a * f)
  rw [abs_sub_le_iff]
  constructor
  · rintro ⟨hhigh, -⟩
    have hle : ⌊((⌊a * f⌋ : ℤ) : α) * f⌋ ≤ ⌊a * f + 1⌋ := Int.le_floor.mpr (by linarith)
    rw [Int.floor_add_one] at hle
    have hbound := Int.floor_lt.mp (lt_of_le_of_lt hle (lt_add_one _))
    push_cast at hbound
    linarith
  · intro hsmall
    refine ⟨?_, by linarith⟩
    have hbound : ⌊((⌊a * f⌋ : ℤ) : α) * f⌋ < ⌊a * f⌋ + 2 := by
      refine Int.floor_lt.mpr ?_
      push_cast
      linarith
    have hbound' : ((⌊((⌊a * f⌋ : ℤ) : α) * f⌋ : ℤ) : α) ≤ (⌊a * f⌋ : ℤ) + 1 := by
      exact_mod_cast Int.lt_add_one_iff.mp (by omega)
    linarith [Int.floor_le (a * f)]

/-- A factor below one moves every positive integer by at least one. -/
private theorem rescale_iff_of_lt_one (ha : 0 ≤ a) (hf : 0 ≤ f) (hf1 : f < 1) :
    |(rescale f a : α) - a * f| ≤ 1 ↔ trunc (a * f) = 0 ∨
      (((trunc (a * f) : ℤ) : α) = a * f ∧ ((trunc (a * f) : ℤ) : α) * (1 - f) ≤ 1) := by
  have hproduct : 0 ≤ a * f := mul_nonneg ha hf
  have hm : 0 ≤ ⌊a * f⌋ := Int.floor_nonneg.mpr hproduct
  have hm' : (0 : α) ≤ (⌊a * f⌋ : ℤ) := by exact_mod_cast hm
  have hscaled : 0 ≤ ((⌊a * f⌋ : ℤ) : α) * f := mul_nonneg hm' hf
  rw [rescale, trunc_of_nonneg hproduct, trunc_of_nonneg hscaled]
  have hfloor := Int.floor_le (a * f)
  have hlt := Int.lt_floor_add_one (a * f)
  have hout := Int.floor_le (((⌊a * f⌋ : ℤ) : α) * f)
  have hshrink : ((⌊a * f⌋ : ℤ) : α) * f ≤ (⌊a * f⌋ : ℤ) := mul_le_of_le_one_right hm' hf1.le
  rw [abs_sub_le_iff]
  rcases hm.eq_or_lt with hzero | hpos
  · -- nothing is left after the first rounding
    refine iff_of_true ⟨by linarith, ?_⟩ (.inl hzero.symm)
    rw [← hzero] at hlt ⊢
    simp only [Int.cast_zero, zero_mul, Int.floor_zero] at hlt ⊢
    linarith
  · have hpos' : (0 : α) < (⌊a * f⌋ : ℤ) := by exact_mod_cast hpos
    have hbelow : ⌊((⌊a * f⌋ : ℤ) : α) * f⌋ < ⌊a * f⌋ :=
      Int.floor_lt.mpr (mul_lt_of_lt_one_right hpos' hf1)
    have hbelow' : ((⌊((⌊a * f⌋ : ℤ) : α) * f⌋ : ℤ) : α) + 1 ≤ (⌊a * f⌋ : ℤ) := by
      exact_mod_cast hbelow
    constructor
    · rintro ⟨-, hlow⟩
      exact .inr ⟨by linarith, by linarith⟩
    · rintro (hzero | ⟨hexact, hsmall⟩)
      · omega
      · refine ⟨by linarith, ?_⟩
        have hle : ⌊a * f⌋ - 1 ≤ ⌊((⌊a * f⌋ : ℤ) : α) * f⌋ := by
          refine Int.le_floor.mpr ?_
          push_cast
          linarith
        have hle' : ((⌊a * f⌋ : ℤ) : α) - 1 ≤ (⌊((⌊a * f⌋ : ℤ) : α) * f⌋ : ℤ) := by
          exact_mod_cast hle
        linarith

/-- **Scaling twice.** The result stays within one of the number scaled once exactly when
what is rounded the second time is small. -/
theorem abs_rescale_sub_le_one_iff (hf : 0 ≤ f) (a : α) :
    |(rescale f a : α) - a * f| ≤ 1 ↔ NearlyExact f a := by
  -- both sides only depend on the size of the number
  have hnonneg (a : α) (ha : 0 ≤ a) : |(rescale f a : α) - a * f| ≤ 1 ↔ NearlyExact f a := by
    have hproduct : 0 ≤ a * f := mul_nonneg ha hf
    have habs : |trunc (a * f)| = trunc (a * f) := abs_of_nonneg (trunc_nonneg hproduct)
    rw [NearlyExact, habs, abs_of_nonneg hproduct]
    rcases le_or_gt 1 f with hone | hlt
    · rw [rescale_iff_of_one_le ha hone]
      exact (and_iff_left fun hlt => absurd hlt hone.not_gt).symm
    · have htrivial : ((trunc (a * f) : ℤ) : α) * (f - 1) < 2 := by
        have hm : (0 : α) ≤ (trunc (a * f) : ℤ) := by exact_mod_cast trunc_nonneg hproduct
        nlinarith
      rw [rescale_iff_of_lt_one ha hf hlt, and_iff_right htrivial, forall_prop_of_true hlt]
  rcases le_total 0 a with ha | ha
  · exact hnonneg a ha
  · have hneg := hnonneg (-a) (neg_nonneg.mpr ha)
    rw [rescale_neg, nearlyExact_neg, Int.cast_neg, neg_mul, ← neg_sub', abs_neg] at hneg
    exact hneg

/-- A result that close is not much larger than the number itself. -/
theorem abs_rescale_le (hf : 0 ≤ f) (h : NearlyExact f a) :
    |(rescale f a : α)| ≤ 2 * |a| + 4 := by
  have hclose := (abs_rescale_sub_le_one_iff hf a).mpr h
  have htriangle := abs_sub_abs_le_abs_sub (rescale f a : α) (a * f)
  have hsize : |a * f| = |a| * f := by rw [abs_mul, abs_of_nonneg hf]
  rcases le_or_gt f 2 with htwo | htwo
  · have hproduct : |a| * f ≤ |a| * 2 := mul_le_mul_of_nonneg_left htwo (abs_nonneg a)
    linarith
  · -- a large factor leaves next to nothing after the first rounding
    have hround := abs_trunc_sub_lt_one (a * f)
    have hback := abs_sub_abs_le_abs_sub (a * f) (trunc (a * f) : α)
    rw [abs_sub_comm] at hback
    have hnonneg : (0 : α) ≤ (|trunc (a * f)| : ℤ) := by exact_mod_cast abs_nonneg _
    have hfirst : ((|trunc (a * f)| : ℤ) : α) ≤ ((|trunc (a * f)| : ℤ) : α) * (f - 1) :=
      le_mul_of_one_le_right hnonneg (by linarith)
    have hsmall := h.1
    rw [Int.cast_abs] at hfirst hsmall
    linarith [abs_nonneg a]

end CS
