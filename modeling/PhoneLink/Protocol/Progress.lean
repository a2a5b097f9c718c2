import PhoneLink.Protocol.MsgDeal

/-!
# Progress of the receive loop

The loops of the checker and of the receive function as the source runs them:
the condition is tested, then the body is run and the condition tested again. A
budget bounds the number of tests, and nothing is returned when it is used up.
A budget that always suffices is what makes both loops terminate.

## Main definitions

* `scanWithin`, `loopWithin`: the two loops with a budget of tests, the second with the values
  of its index
* `indices`: the values the index of the receive loop takes

## Main results

* `scanWithin_eq`, `loopWithin_eq`: budgets that suffice on every buffer
* `phoneAppMsgDeal_progress`: the receive loop ends, its index only grows and stays
  inside the event, and no more frames are dispatched than fit
-/

namespace PhoneLink

open CS

variable {σ : Type*}

/-- The checker's `while` loop from position `i`; `none` when `fuel` tests of its condition
do not suffice. -/
def dalinkCheckPacketIntegrity.scanWithin (sourceBuf : Memory) (len : ℕ) :
    ℕ → ℕ → Option (Option CheckedPacket)
  | 0, _ => none
  | fuel + 1, i =>
    if i < len then
      if sourceBuf i = btSppMessageHeaderHigh ∧ sourceBuf (i + 1) = btSppMessageHeaderLow then
        if (sourceBuf (i + btSppMessageLengthIndex)).toNat +
            btSppMessagePacketLenExceptPlayload > len then
          dalinkCheckPacketIntegrity.scanWithin sourceBuf len fuel (i + 2)
        else if sourceBuf ((sourceBuf (i + btSppMessageLengthIndex)).toNat + 8) = 0x0D ∧
            sourceBuf ((sourceBuf (i + btSppMessageLengthIndex)).toNat + 9) = 0x0A then
          some (some ⟨0, (sourceBuf (i + btSppMessageLengthIndex)).toNat +
            btSppMessagePacketLenExceptPlayload⟩)
        else dalinkCheckPacketIntegrity.scanWithin sourceBuf len fuel (i + 2)
      else dalinkCheckPacketIntegrity.scanWithin sourceBuf len fuel (i + 1)
    else some none

/-- The `while` loop of the receive function from position `i`: the values of its index, one
for every test of the condition, and the state it leaves; `none` when `fuel` tests do not
suffice. -/
def phoneAppMsgDeal.loopWithin (dalinkSppPacketDeal : σ → ℕ → ℕ → σ) (len : ℕ) (buf : Memory) :
    ℕ → ℕ → σ → Option (List ℕ × σ)
  | 0, _, _ => none
  | fuel + 1, i, s =>
    if i < len then
      match dalinkCheckPacketIntegrity (buf.shift i) (UInt8.ofNat (len - i)) with
      | some p =>
        (phoneAppMsgDeal.loopWithin dalinkSppPacketDeal len buf fuel (i + p.length)
          (dalinkSppPacketDeal s (i + p.packetHeader) len)).map (Prod.map (i :: ·) id)
      | none => some ([i], s)
    else some ([i], s)

/-- The values that the loop's index takes from `i` on, whatever is done with the packets. -/
def phoneAppMsgDeal.indices (len : ℕ) (buf : Memory) (i : ℕ) : List ℕ :=
  if i < len then
    match _h : dalinkCheckPacketIntegrity (buf.shift i) (UInt8.ofNat (len - i)) with
    | some p => i :: phoneAppMsgDeal.indices len buf (i + p.length)
    | none => [i]
  else [i]
termination_by len - i
decreasing_by
  have := (dalinkCheckPacketIntegrity_bounds _h).2.1
  omega

open dalinkCheckPacketIntegrity phoneAppMsgDeal

variable {len i j fuel : ℕ} {buf : Memory} {p : CheckedPacket}

/-! ### The scan -/

/-- The scan advances with every test, so one test for every position and a last one are
enough. -/
theorem scanWithin_eq (hfuel : len - i < fuel) :
    scanWithin buf len fuel i = some (scan buf len i) := by
  -- induction on the budget: what is left to scan shrinks by at least one
  induction fuel generalizing i with
  | zero => omega
  | succ fuel ih =>
    rw [scanWithin, scan]
    split_ifs with hi
    · exact ih (by omega)
    · rfl
    · exact ih (by omega)
    · exact ih (by omega)
    · rfl

/-! ### The receive loop -/

/-- A successful check at `i` takes ten bytes or more, all of them left to the event. -/
theorem checked_bounds
    (h : dalinkCheckPacketIntegrity (buf.shift i) (UInt8.ofNat (len - i)) = some p) :
    10 ≤ p.length ∧ p.length ≤ len - i := by
  obtain ⟨_, hten, hsize⟩ := dalinkCheckPacketIntegrity_bounds h
  exact ⟨hten, hsize.trans (toNat_narrowed_le _)⟩

theorem indices_of_some (hi : i < len)
    (h : dalinkCheckPacketIntegrity (buf.shift i) (UInt8.ofNat (len - i)) = some p) :
    indices len buf i = i :: indices len buf (i + p.length) := by
  rw [indices, if_pos hi]
  split
  · next q hq =>
    obtain rfl : q = p := Option.some.inj (hq.symm.trans h)
    rfl
  · next hnone => exact absurd (hnone.symm.trans h) (by simp)

theorem indices_of_none
    (h : dalinkCheckPacketIntegrity (buf.shift i) (UInt8.ofNat (len - i)) = none) :
    indices len buf i = [i] := by
  rw [indices]
  split_ifs
  · split
    · next q hq => exact absurd (hq.symm.trans h) (by simp)
    · rfl
  · rfl

/-- Every pass takes ten bytes or more, so a tenth of what is left and one more test are
enough. The index takes exactly the values `indices`. -/
theorem loopWithin_eq (deal : σ → ℕ → ℕ → σ) (s : σ) (hfuel : (len - i) / 10 < fuel) :
    loopWithin deal len buf fuel i s = some (indices len buf i, loop deal len buf i s) := by
  -- induction on the passes of the loop, for every budget; one test is always left
  fun_induction loop deal len buf i s generalizing fuel with
  | case1 i s hi p h ih =>
    obtain ⟨rest, rfl⟩ := Nat.exists_eq_succ_of_ne_zero (Nat.ne_zero_of_lt hfuel)
    have hbounds := checked_bounds h
    rw [loopWithin, if_pos hi, h, indices_of_some hi h]
    dsimp only
    rw [ih (by omega)]
    rfl
  | case2 i s hi h =>
    obtain ⟨rest, rfl⟩ := Nat.exists_eq_succ_of_ne_zero (Nat.ne_zero_of_lt hfuel)
    rw [loopWithin, if_pos hi, h, indices_of_none h]
  | case3 i s hi =>
    obtain ⟨rest, rfl⟩ := Nat.exists_eq_succ_of_ne_zero (Nat.ne_zero_of_lt hfuel)
    rw [loopWithin, if_neg hi, indices, if_neg hi]

theorem le_of_mem_indices (hj : j ∈ indices len buf i) : i ≤ j := by
  fun_induction indices len buf i with
  | case1 i hi p h ih =>
    rcases List.mem_cons.mp hj with rfl | hlater
    · exact le_rfl
    · exact (Nat.le_add_right i p.length).trans (ih hlater)
  | case2 => exact (List.mem_singleton.mp hj).ge
  | case3 => exact (List.mem_singleton.mp hj).ge

theorem le_len_of_mem_indices (hi : i ≤ len) (hj : j ∈ indices len buf i) : j ≤ len := by
  fun_induction indices len buf i with
  | case1 i hlt p h ih =>
    have hbounds := checked_bounds h
    rcases List.mem_cons.mp hj with rfl | hlater
    · exact hi
    · exact ih (by omega) hlater
  | case2 => exact (List.mem_singleton.mp hj).trans_le hi
  | case3 => exact (List.mem_singleton.mp hj).trans_le hi

theorem indices_pairwise (len : ℕ) (buf : Memory) (i : ℕ) :
    (indices len buf i).Pairwise (· < ·) := by
  fun_induction indices len buf i with
  | case1 i hi p h ih =>
    refine List.Pairwise.cons (fun j hj => ?_) ih
    have hbounds := checked_bounds h
    have hle := le_of_mem_indices hj
    omega
  | case2 => exact List.pairwise_singleton _ _
  | case3 => exact List.pairwise_singleton _ _

/-- The packets handed over share the bytes that are left, ten or more each. -/
theorem ten_mul_length_handed_le (len : ℕ) (buf : Memory) (i : ℕ) :
    10 * (handed len buf i).length ≤ len - i := by
  fun_induction handed len buf i with
  | case1 i hi p h ih =>
    have hbounds := checked_bounds h
    rw [List.length_cons]
    omega
  | case2 => exact Nat.zero_le _
  | case3 => exact Nat.zero_le _

/-- **Progress of the receive loop.** On every buffer of every length, whatever is done with
the packets: the scan ends after at most one test for each byte it was given and a last one,
and the receive loop after at most a tenth of the event's length and a last one; every
successful check takes at least ten bytes and at most those that remain; the index, whose
values the loop returns, strictly grows and never exceeds the length; and at most a tenth of
the length is dispatched. -/
theorem phoneAppMsgDeal_progress (deal : σ → ℕ → ℕ → σ) (len : ℕ) (buf : Memory) (s : σ) :
    (∀ sourceBuf : Memory, ∀ size : UInt8,
      scanWithin sourceBuf size.toNat (size.toNat + 1) 0 =
        some (dalinkCheckPacketIntegrity sourceBuf size)) ∧
    loopWithin deal len buf (len / 10 + 1) 0 s =
      some (indices len buf 0, phoneAppMsgDeal deal len buf s) ∧
    (∀ i p, dalinkCheckPacketIntegrity (buf.shift i) (UInt8.ofNat (len - i)) = some p →
      10 ≤ p.length ∧ p.length ≤ len - i) ∧
    (indices len buf 0).Pairwise (· < ·) ∧
    (∀ i ∈ indices len buf 0, i ≤ len) ∧
    (dispatched len buf).length ≤ len / 10 := by
  refine ⟨fun sourceBuf size => scanWithin_eq (by omega), loopWithin_eq deal s (by omega),
    fun i p => checked_bounds, indices_pairwise len buf 0,
    fun i => le_len_of_mem_indices (Nat.zero_le len), ?_⟩
  have hten := ten_mul_length_handed_le len buf 0
  rw [dispatched_eq, List.length_map]
  omega

end PhoneLink
