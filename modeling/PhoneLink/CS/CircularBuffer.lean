import Mathlib.Data.List.Basic
import Mathlib.Data.Nat.ModEq
import Mathlib.Logic.Function.Basic
import Mathlib.Tactic.SplitIfs

/-!
# Circular buffers and the queues they represent

An array of `n` slots with a read and a write index that both wrap. Nothing in
the buffer records how many slots are occupied: equal indices mean either an
empty buffer or a full one. `Represents` relates the buffer to the list of
values that have been stored and not yet fetched; storing below capacity appends
to that list and fetching from a nonempty buffer removes its head.

Slots are read through a function `view`, so that a buffer whose slots are only
partly overwritten still represents the part that is looked at.
-/

namespace CS

/-- Slots with a read and a write index. The capacity is a parameter of the
operations. -/
structure CircularBuffer (α : Type*) where
  slots : ℕ → α
  readPoint : ℕ
  writePoint : ℕ

namespace CircularBuffer

variable {α β : Type*} {n : ℕ}

/-- The index after `i`: back to `0` past the last slot. -/
def advance (n i : ℕ) : ℕ := if n ≤ i + 1 then 0 else i + 1

theorem advance_lt {i : ℕ} (hn : 0 < n) : advance n i < n := by
  unfold advance
  split_ifs with h <;> omega

theorem advance_eq_mod {i : ℕ} (hi : i < n) : advance n i = (i + 1) % n := by
  unfold advance
  split_ifs with h
  · rw [show i + 1 = n by omega, Nat.mod_self]
  · rw [Nat.mod_eq_of_lt (by omega)]

/-- Overwrite the slot at the write index by `f` of its contents and advance. -/
def store (n : ℕ) (f : α → α) (b : CircularBuffer α) : CircularBuffer α where
  slots := Function.update b.slots b.writePoint (f (b.slots b.writePoint))
  readPoint := b.readPoint
  writePoint := advance n b.writePoint

/-- The contents of the slot at the read index. -/
def front (b : CircularBuffer α) : α := b.slots b.readPoint

/-- Advance the read index. -/
def drop (n : ℕ) (b : CircularBuffer α) : CircularBuffer α :=
  { b with readPoint := advance n b.readPoint }

/-- Both indices at the start, every slot holding `a`. -/
def clear (a : α) : CircularBuffer α := ⟨fun _ => a, 0, 0⟩

@[simp] theorem store_readPoint (f : α → α) (b : CircularBuffer α) :
    (b.store n f).readPoint = b.readPoint := rfl

@[simp] theorem store_writePoint (f : α → α) (b : CircularBuffer α) :
    (b.store n f).writePoint = advance n b.writePoint := rfl

@[simp] theorem drop_slots (b : CircularBuffer α) : (b.drop n).slots = b.slots := rfl

@[simp] theorem drop_readPoint (b : CircularBuffer α) :
    (b.drop n).readPoint = advance n b.readPoint := rfl

@[simp] theorem drop_writePoint (b : CircularBuffer α) :
    (b.drop n).writePoint = b.writePoint := rfl

/-- The buffer of capacity `n` holds, from its read index on, the values `q`. -/
structure Represents (n : ℕ) (view : α → β) (b : CircularBuffer α) (q : List β) : Prop where
  readPoint_lt : b.readPoint < n
  writePoint_eq : b.writePoint = (b.readPoint + q.length) % n
  length_le : q.length ≤ n
  slot : ∀ k (hk : k < q.length), view (b.slots ((b.readPoint + k) % n)) = q[k]

variable {view : α → β} {b : CircularBuffer α} {q : List β}

theorem represents_nil (h : b.readPoint < n) (heq : b.writePoint = b.readPoint) :
    Represents n view b [] :=
  ⟨h, by simp [heq, Nat.mod_eq_of_lt h], Nat.zero_le _, by simp⟩

theorem represents_clear (hn : 0 < n) (a : α) : Represents n view (clear a) [] :=
  represents_nil hn rfl

private theorem mod_ne_of_lt {r k m : ℕ} (hk : k < m) (hm : m < n) :
    (r + k) % n ≠ (r + m) % n := by
  intro h
  -- without the common offset both sides are below `n`
  have hkm : k % n = m % n := Nat.ModEq.add_left_cancel' r h
  rw [Nat.mod_eq_of_lt (by omega), Nat.mod_eq_of_lt hm] at hkm
  omega

/-- Storing into a buffer that is not full appends to the queue. -/
theorem Represents.store (h : Represents n view b q) (hspace : q.length < n)
    {f : α → α} {x : β} (hx : view (f (b.slots b.writePoint)) = x) :
    Represents n view (b.store n f) (q ++ [x]) where
  readPoint_lt := h.readPoint_lt
  writePoint_eq := by
    have hlt : b.writePoint < n := h.writePoint_eq ▸ Nat.mod_lt _ (by omega)
    rw [store_writePoint, advance_eq_mod hlt, h.writePoint_eq, store_readPoint,
      List.length_append, List.length_singleton, Nat.mod_add_mod, Nat.add_assoc]
  length_le := by
    rw [List.length_append, List.length_singleton]
    exact hspace
  slot := by
    intro k hk
    rw [List.length_append, List.length_singleton] at hk
    rcases Nat.lt_or_eq_of_le (Nat.le_of_lt_succ hk) with hold | rfl
    · -- an old value: below capacity its slot is not the one written
      have hne : (b.readPoint + k) % n ≠ b.writePoint :=
        h.writePoint_eq ▸ mod_ne_of_lt hold hspace
      rw [List.getElem_append_left hold, ← h.slot k hold]
      exact congrArg view (Function.update_of_ne hne _ _)
    · -- the new value
      rw [List.getElem_concat_length rfl, store_readPoint, ← h.writePoint_eq]
      exact (congrArg view (Function.update_self _ _ _)).trans hx

/-- Storing several values, for which there is room, appends them all. -/
theorem Represents.foldl_store {γ : Type*} (f : γ → α) {xs : List γ}
    (h : Represents n view b q) (hspace : q.length + xs.length ≤ n) :
    Represents n view (xs.foldl (fun b x => b.store n fun _ => f x) b)
      (q ++ xs.map fun x => view (f x)) := by
  induction xs generalizing b q with
  | nil => rwa [List.map_nil, List.append_nil]
  | cons x xs ih =>
    rw [List.length_cons] at hspace
    have hx : Represents n view (b.store n fun _ => f x) (q ++ [view (f x)]) :=
      h.store (by omega) rfl
    have hxs := ih hx (by simp only [List.length_append, List.length_singleton]; omega)
    rwa [List.append_assoc, List.singleton_append] at hxs

/-- The slot at the read index holds the head of the queue. -/
theorem Represents.front {x : β} (h : Represents n view b (x :: q)) : view b.front = x := by
  have hslot := h.slot 0 (by simp)
  rwa [Nat.add_zero, Nat.mod_eq_of_lt h.readPoint_lt] at hslot

/-- Advancing the read index of a nonempty buffer removes the head. -/
theorem Represents.drop {x : β} (h : Represents n view b (x :: q)) :
    Represents n view (b.drop n) q where
  readPoint_lt := advance_lt (Nat.zero_lt_of_lt h.readPoint_lt)
  writePoint_eq := by
    rw [drop_writePoint, h.writePoint_eq, drop_readPoint, advance_eq_mod h.readPoint_lt,
      Nat.mod_add_mod, List.length_cons]
    congr 1
    omega
  length_le := Nat.le_trans (Nat.le_succ _) h.length_le
  slot := by
    intro k hk
    -- the slots stay, the numbering from the read index shifts by one
    have hslot := h.slot (k + 1) (by simpa using hk)
    rw [drop_readPoint, advance_eq_mod h.readPoint_lt, Nat.mod_add_mod, drop_slots,
      show b.readPoint + 1 + k = b.readPoint + (k + 1) by omega, hslot]
    rfl

/-- Equal indices: the buffer is empty or it is full, and nothing tells which. -/
theorem Represents.readPoint_eq_writePoint_iff (h : Represents n view b q) :
    b.readPoint = b.writePoint ↔ q = [] ∨ q.length = n := by
  constructor
  · intro heq
    by_contra hne
    push Not at hne
    -- strictly between empty and full the indices are different slots
    have hpos : 0 < q.length := List.length_pos_of_ne_nil hne.1
    have hlt : q.length < n := lt_of_le_of_ne h.length_le hne.2
    have hdiff := mod_ne_of_lt (r := b.readPoint) hpos hlt
    rw [← h.writePoint_eq, Nat.add_zero, Nat.mod_eq_of_lt h.readPoint_lt] at hdiff
    exact hdiff heq
  · rintro (rfl | hfull)
    · rw [h.writePoint_eq, List.length_nil, Nat.add_zero, Nat.mod_eq_of_lt h.readPoint_lt]
    · rw [h.writePoint_eq, hfull, Nat.add_mod_right, Nat.mod_eq_of_lt h.readPoint_lt]

end CircularBuffer

end CS
