import Mathlib.Data.List.GetD
import Mathlib.Logic.Function.Basic
import Mathlib.Tactic.SplitIfs

/-!
# Byte memory

A pointer is the memory seen from the address it points to: a total function
from offsets to bytes. Reading past the end of an object is reading whatever the
function holds there, so a program that looks too far ahead can be modelled and
its dependence on those bytes stated.

`overlay l m` is the memory after the bytes `l` were written at the pointer;
`m.Holds i l` says that the bytes `l` stand at offset `i`.
-/

namespace CS

/-- Memory seen through a byte pointer. -/
abbrev Memory := ℕ → UInt8

namespace Memory

/-- All bytes zero. -/
def zero : Memory := fun _ => 0

/-- The pointer advanced by `i`. -/
def shift (m : Memory) (i : ℕ) : Memory := fun k => m (i + k)

/-- Store one byte. -/
def write (m : Memory) (i : ℕ) (b : UInt8) : Memory := fun k => if k = i then b else m k

/-- Copy `n` bytes from `src` to offset `dst`. -/
def copy (m : Memory) (dst : ℕ) (src : Memory) (n : ℕ) : Memory := fun k =>
  if dst ≤ k ∧ k < dst + n then src (k - dst) else m k

/-- The bytes `l` written over the start of `m`. -/
def overlay (l : List UInt8) (m : Memory) : Memory := fun k => l.getD k (m k)

/-- The `n` bytes from offset `i`. -/
def read (m : Memory) (i n : ℕ) : List UInt8 := (List.range n).map fun k => m (i + k)

/-- The bytes `l` stand at offset `i`. -/
def Holds (m : Memory) (i : ℕ) (l : List UInt8) : Prop :=
  ∀ k (hk : k < l.length), m (i + k) = l[k]

variable {m : Memory} {i j n : ℕ} {l l' : List UInt8}

@[simp] theorem shift_apply (m : Memory) (i k : ℕ) : m.shift i k = m (i + k) := rfl

@[simp] theorem shift_zero (m : Memory) : m.shift 0 = m := by
  funext k
  rw [shift_apply, Nat.zero_add]

@[simp] theorem length_read (m : Memory) (i n : ℕ) : (m.read i n).length = n := by
  simp [read]

theorem getElem_read (m : Memory) (i n k : ℕ) (hk : k < (m.read i n).length) :
    (m.read i n)[k] = m (i + k) := by
  simp [read]

theorem Holds.read_eq (h : m.Holds i l) : m.read i l.length = l :=
  List.ext_getElem (length_read m i l.length) fun k hk hl => by
    rw [getElem_read, h k hl]

theorem holds_shift : (m.shift i).Holds j l ↔ m.Holds (i + j) l := by
  simp only [Holds, shift_apply, Nat.add_assoc]

theorem holds_append :
    m.Holds i (l ++ l') ↔ m.Holds i l ∧ m.Holds (i + l.length) l' := by
  constructor
  · intro h
    refine ⟨fun k hk => ?_, fun k hk => ?_⟩
    · rw [h k (by rw [List.length_append]; omega), List.getElem_append_left hk]
    · rw [Nat.add_assoc, h (l.length + k) (by rw [List.length_append]; omega),
        List.getElem_append_right (by omega)]
      simp
  · rintro ⟨hl, hl'⟩ k hk
    rw [List.length_append] at hk
    -- the byte is in the first list or in the second
    by_cases hlt : k < l.length
    · rw [hl k hlt, List.getElem_append_left hlt]
    · have hright := hl' (k - l.length) (by omega)
      rw [Nat.add_assoc, show l.length + (k - l.length) = k by omega] at hright
      rw [hright, List.getElem_append_right (by omega)]

theorem overlay_apply_of_lt {k : ℕ} (hk : k < l.length) : overlay l m k = l[k] :=
  List.getD_eq_getElem l _ hk

theorem overlay_apply_of_le {k : ℕ} (hk : l.length ≤ k) : overlay l m k = m k :=
  List.getD_eq_default l _ hk

theorem holds_overlay (l : List UInt8) (m : Memory) : (overlay l m).Holds 0 l := fun k hk => by
  rw [Nat.zero_add, overlay_apply_of_lt hk]

@[simp] theorem read_overlay (l : List UInt8) (m : Memory) :
    (overlay l m).read 0 l.length = l :=
  (holds_overlay l m).read_eq

@[simp] theorem overlay_nil (m : Memory) : overlay [] m = m := rfl

theorem write_apply_of_ne {k : ℕ} {b : UInt8} (h : k ≠ i) : m.write i b k = m k := if_neg h

theorem write_comm {b c : UInt8} (h : i ≠ j) :
    (m.write i b).write j c = (m.write j c).write i b := by
  funext k
  unfold write
  split_ifs with hj hi <;> first | rfl | omega

/-- The bytes just copied are those of the source. -/
@[simp] theorem read_copy (m src : Memory) (n : ℕ) :
    (m.copy 0 src n).read 0 n = src.read 0 n := by
  refine List.map_congr_left fun k hk => ?_
  have hlt : k < n := List.mem_range.mp hk
  unfold copy
  rw [if_pos (by omega), Nat.sub_zero]

/-- Writing the byte right after an overlay extends it. -/
theorem write_overlay (l : List UInt8) (m : Memory) (b : UInt8) :
    (overlay l m).write l.length b = overlay (l ++ [b]) m := by
  funext k
  unfold write
  split_ifs with hk
  · subst hk
    rw [overlay_apply_of_lt (by simp), List.getElem_concat_length rfl]
  · by_cases hlt : k < l.length
    · rw [overlay_apply_of_lt hlt, overlay_apply_of_lt (by simp; omega),
        List.getElem_append_left hlt]
    · rw [overlay_apply_of_le (by omega), overlay_apply_of_le (by simp; omega)]

/-- Copying to the place right after an overlay extends it. -/
theorem copy_overlay (l : List UInt8) (m src : Memory) (n : ℕ) :
    (overlay l m).copy l.length src n = overlay (l ++ src.read 0 n) m := by
  funext k
  unfold copy
  split_ifs with hk
  · rw [overlay_apply_of_lt (by simp; omega), List.getElem_append_right hk.1, getElem_read,
      Nat.zero_add]
  · -- before the copied range, or behind it
    by_cases hlt : k < l.length
    · rw [overlay_apply_of_lt hlt, overlay_apply_of_lt (by simp; omega),
        List.getElem_append_left hlt]
    · rw [overlay_apply_of_le (by omega), overlay_apply_of_le (by simp; omega)]

end Memory

end CS
