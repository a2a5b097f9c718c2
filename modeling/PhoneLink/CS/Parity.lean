import Mathlib.Data.List.Basic

/-!
# XOR parity of byte lists

The parity of a list of bytes is the XOR of all of them. Appending the parity
makes it zero, and changing one byte changes it by the XOR of the old and the new
byte, so a single changed byte never goes unnoticed by a receiver that looks.
-/

namespace CS

/-- The XOR of all bytes. -/
def parity (l : List UInt8) : UInt8 := l.foldl (· ^^^ ·) 0

variable {l : List UInt8} {i : ℕ} {a b : UInt8}

private theorem foldl_xor (l : List UInt8) (a : UInt8) :
    l.foldl (· ^^^ ·) a = a ^^^ parity l := by
  -- induction on the list, for every value the fold may start from
  induction l generalizing a with
  | nil => exact UInt8.xor_zero.symm
  | cons c l ih =>
    have hcons : parity (c :: l) = c ^^^ parity l := by
      rw [parity, List.foldl_cons, ih, UInt8.zero_xor]
    rw [List.foldl_cons, ih, hcons, UInt8.xor_assoc]

@[simp] theorem parity_nil : parity [] = 0 := rfl

@[simp] theorem parity_cons (a : UInt8) (l : List UInt8) : parity (a :: l) = a ^^^ parity l := by
  rw [parity, List.foldl_cons, UInt8.zero_xor, foldl_xor]

theorem parity_append (l l' : List UInt8) : parity (l ++ l') = parity l ^^^ parity l' := by
  rw [parity, List.foldl_append, foldl_xor]
  rfl

/-- A list closed by its parity has parity zero. -/
theorem parity_append_parity (l : List UInt8) : parity (l ++ [parity l]) = 0 := by
  rw [parity_append, parity_cons, parity_nil, UInt8.xor_zero, UInt8.xor_self]

/-- Changing one byte changes the parity by the XOR of the old and the new byte. -/
theorem parity_set (hi : i < l.length) (b : UInt8) :
    parity (l.set i b) = parity l ^^^ (l[i] ^^^ b) := by
  induction l generalizing i with
  | nil => exact absurd hi (Nat.not_lt_zero i)
  | cons a l ih =>
    cases i with
    | zero =>
      -- the old head cancels against itself
      have hcancel : a ^^^ parity l ^^^ (a ^^^ b) = b ^^^ parity l := by
        rw [UInt8.xor_comm a (parity l), UInt8.xor_assoc, ← UInt8.xor_assoc a a, UInt8.xor_self,
          UInt8.zero_xor, UInt8.xor_comm]
      rw [List.set_cons_zero, parity_cons, parity_cons, List.getElem_cons_zero, hcancel]
    | succ i =>
      rw [List.set_cons_succ, parity_cons, parity_cons, List.getElem_cons_succ,
        ih (Nat.lt_of_succ_lt_succ hi), UInt8.xor_assoc]

/-- A changed byte changes the parity. -/
theorem parity_set_ne (hi : i < l.length) (hb : b ≠ l[i]) : parity (l.set i b) ≠ parity l := by
  rw [parity_set hi]
  intro heq
  have hzero : l[i] ^^^ b = 0 := by
    have h : parity l ^^^ (parity l ^^^ (l[i] ^^^ b)) = parity l ^^^ parity l := by rw [heq]
    rwa [← UInt8.xor_assoc, UInt8.xor_self, UInt8.zero_xor] at h
  exact hb (UInt8.xor_eq_zero_iff.mp hzero).symm

end CS
