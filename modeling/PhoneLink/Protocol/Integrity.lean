import PhoneLink.Protocol.Packet

/-!
# The frame checker

`dalinkCheckPacketIntegrity` scans a buffer for a header pair, a length byte
that fits and a tail, and returns the frame's length together with the place
the caller is to dispatch from. The scan's header and length byte are read
relative to the scan position, its tail relative to the start of the buffer,
and the place returned is always the start of the buffer.

## Main definitions

* `Accepts`: the checker's test at one scan position
* `IsFrameAt`: some bytes are a well-formed frame

## Main results

* `scan_eq_some_iff`, `scan_eq_none`: the scan stops at the first position
  that passes the test, whatever its steps of one and two skip
* `accepts_zero_iff`: at the first position the test is well-formedness
* `isFrameAt_of_check_iff`: when exactly what is returned is a frame
-/

namespace PhoneLink

open CS

/-- A successful check: `*packet_header_point` as an offset from the buffer the
checker was given, and the length it returned. -/
structure CheckedPacket where
  packetHeader : ℕ
  length : ℕ
  deriving DecidableEq, Repr

/-- The `while` loop of the checker from position `i`. The buffer is read at
`i + 1` and `i + 6` without a comparison with `len`. -/
def dalinkCheckPacketIntegrity.scan (sourceBuf : Memory) (len i : ℕ) : Option CheckedPacket :=
  if i < len then
    if sourceBuf i = btSppMessageHeaderHigh ∧ sourceBuf (i + 1) = btSppMessageHeaderLow then
      if (sourceBuf (i + btSppMessageLengthIndex)).toNat +
          btSppMessagePacketLenExceptPlayload > len then
        -- compared with the whole length, not with what is left behind `i`
        dalinkCheckPacketIntegrity.scan sourceBuf len (i + 2)
      else if sourceBuf ((sourceBuf (i + btSppMessageLengthIndex)).toNat + 8) = 0x0D ∧
          sourceBuf ((sourceBuf (i + btSppMessageLengthIndex)).toNat + 9) = 0x0A then
        -- the pointer handed back is the buffer's start, wherever the header was found
        some ⟨0, (sourceBuf (i + btSppMessageLengthIndex)).toNat +
          btSppMessagePacketLenExceptPlayload⟩
      else dalinkCheckPacketIntegrity.scan sourceBuf len (i + 2)
    else dalinkCheckPacketIntegrity.scan sourceBuf len (i + 1)
  else none
termination_by len - i

/-- Check a buffer for one frame. The length is a `char`. -/
def dalinkCheckPacketIntegrity (sourceBuf : Memory) (len : UInt8) : Option CheckedPacket :=
  dalinkCheckPacketIntegrity.scan sourceBuf len.toNat 0

/-! ### The test at one position -/

/-- A header pair stands at `i`. -/
def HeaderAt (buf : Memory) (i : ℕ) : Prop :=
  buf i = btSppMessageHeaderHigh ∧ buf (i + 1) = btSppMessageHeaderLow

/-- The frame length announced by the length byte of a header at `i`. -/
def announced (buf : Memory) (i : ℕ) : ℕ := (buf (i + 6)).toNat + 10

/-- The checker accepts at position `i`: header and length byte taken from `i`,
tail from the buffer's start. -/
def Accepts (buf : Memory) (len i : ℕ) : Prop :=
  HeaderAt buf i ∧ announced buf i ≤ len ∧
    buf (announced buf i - 2) = 0x0D ∧ buf (announced buf i - 1) = 0x0A

/-- The `n` bytes from offset `i` are a well-formed frame. -/
def IsFrameAt (buf : Memory) (i n : ℕ) : Prop :=
  HeaderAt buf i ∧ announced buf i = n ∧ buf (i + n - 2) = 0x0D ∧ buf (i + n - 1) = 0x0A

instance (buf : Memory) (i : ℕ) : Decidable (HeaderAt buf i) :=
  inferInstanceAs (Decidable (_ ∧ _))

instance (buf : Memory) (len i : ℕ) : Decidable (Accepts buf len i) :=
  inferInstanceAs (Decidable (_ ∧ _))

instance (buf : Memory) (i n : ℕ) : Decidable (IsFrameAt buf i n) :=
  inferInstanceAs (Decidable (_ ∧ _))

variable {buf : Memory} {len i j n : ℕ} {p : CheckedPacket}

theorem ten_le_announced (buf : Memory) (i : ℕ) : 10 ≤ announced buf i := Nat.le_add_left _ _

theorem announced_shift (buf : Memory) (i j : ℕ) :
    announced (buf.shift i) j = announced buf (i + j) := by
  rw [announced, announced, Memory.shift_apply, Nat.add_assoc]

/-- A header cannot start on the second byte of another. -/
theorem HeaderAt.not_succ (h : HeaderAt buf i) : ¬ HeaderAt buf (i + 1) := fun hsucc => by
  have heq : btSppMessageHeaderLow = btSppMessageHeaderHigh := h.2.symm.trans hsucc.1
  exact absurd heq (by decide)

theorem accepts_zero_iff :
    Accepts buf len 0 ↔ announced buf 0 ≤ len ∧ IsFrameAt buf 0 (announced buf 0) := by
  unfold Accepts IsFrameAt
  rw [Nat.zero_add]
  tauto

theorem isFrameAt_shift : IsFrameAt (buf.shift i) j n ↔ IsFrameAt buf (i + j) n := by
  unfold IsFrameAt HeaderAt
  simp only [announced_shift, Memory.shift_apply]
  constructor
  · rintro ⟨hhead, rfl, htail⟩
    have := ten_le_announced buf (i + j)
    rw [show i + (j + announced buf (i + j) - 2) = i + j + announced buf (i + j) - 2 by omega,
      show i + (j + announced buf (i + j) - 1) = i + j + announced buf (i + j) - 1 by omega]
      at htail
    exact ⟨hhead, rfl, htail⟩
  · rintro ⟨hhead, rfl, htail⟩
    have := ten_le_announced buf (i + j)
    rw [show i + (j + announced buf (i + j) - 2) = i + j + announced buf (i + j) - 2 by omega,
      show i + (j + announced buf (i + j) - 1) = i + j + announced buf (i + j) - 1 by omega]
    exact ⟨hhead, rfl, htail⟩

/-! ### What the scan finds -/

open dalinkCheckPacketIntegrity

theorem scan_of_le (h : len ≤ i) : scan buf len i = none := by
  rw [scan, if_neg (by omega)]

theorem scan_of_accepts (hi : i < len) (h : Accepts buf len i) :
    scan buf len i = some ⟨0, announced buf i⟩ := by
  obtain ⟨⟨hhigh, hlow⟩, hfits, htail⟩ := h
  have hfits' : ¬ (buf (i + 6)).toNat + 10 > len := not_lt.mpr hfits
  rw [scan]
  exact (if_pos hi).trans ((if_pos ⟨hhigh, hlow⟩).trans ((if_neg hfits').trans (if_pos htail)))

private theorem scan_of_not_headerAt (hi : i < len) (h : ¬ HeaderAt buf i) :
    scan buf len i = scan buf len (i + 1) := by
  conv_lhs => rw [scan]
  exact (if_pos hi).trans (if_neg h)

/-- A position that fails the test may be stepped over one by one: the position
a step of two leaves out holds the second header byte. -/
theorem scan_succ (hi : i < len) (h : ¬ Accepts buf len i) :
    scan buf len i = scan buf len (i + 1) := by
  by_cases hhead : HeaderAt buf i
  · have hskip : scan buf len i = scan buf len (i + 2) := by
      -- a length that does not fit and a missing tail both skip the pair
      conv_lhs => rw [scan]
      refine (if_pos hi).trans ((if_pos hhead).trans ?_)
      split_ifs with hlong htail
      · rfl
      · exact absurd ⟨hhead, not_lt.mp hlong, htail⟩ h
      · rfl
    rcases Nat.lt_or_ge (i + 1) len with hnext | hend
    · rw [hskip, scan_of_not_headerAt hnext hhead.not_succ]
    · rw [hskip, scan_of_le (by omega), scan_of_le hend]
  · exact scan_of_not_headerAt hi hhead

theorem scan_eq_of_first (hij : i ≤ j) (hj : j < len) (h : Accepts buf len j)
    (hfirst : ∀ k, i ≤ k → k < j → ¬ Accepts buf len k) :
    scan buf len i = some ⟨0, announced buf j⟩ := by
  obtain ⟨d, rfl⟩ := Nat.exists_eq_add_of_le hij
  -- induction on the distance to the position that passes
  induction d generalizing i with
  | zero => exact scan_of_accepts hj h
  | succ d ih =>
    rw [scan_succ (by omega) (hfirst i le_rfl (by omega))]
    have hshift : i + (d + 1) = i + 1 + d := by omega
    rw [hshift] at h hj hfirst ⊢
    exact ih (Nat.le_add_right _ _) hj h fun k hk hkj => hfirst k (by omega) hkj

theorem scan_eq_none (h : ∀ k, i ≤ k → k < len → ¬ Accepts buf len k) :
    scan buf len i = none := by
  obtain ⟨d, hd⟩ : ∃ d, d = len - i := ⟨_, rfl⟩
  -- induction on what is left to scan
  induction d generalizing i with
  | zero => exact scan_of_le (by omega)
  | succ d ih =>
    rw [scan_succ (by omega) (h i le_rfl (by omega))]
    exact ih (fun k hk => h k (by omega)) (by omega)

/-- What the scan returns is the announcement at the first position that passes. -/
theorem scan_eq_some_iff : scan buf len i = some p ↔ ∃ j, i ≤ j ∧ j < len ∧
    Accepts buf len j ∧ (∀ k, i ≤ k → k < j → ¬ Accepts buf len k) ∧
    p = ⟨0, announced buf j⟩ := by
  constructor
  · intro hscan
    -- if some position passes, the scan has stopped at the least one
    by_cases hex : ∃ j, i ≤ j ∧ j < len ∧ Accepts buf len j
    · obtain ⟨hij, hj, haccepts⟩ := Nat.find_spec hex
      have hfirst : ∀ k, i ≤ k → k < Nat.find hex → ¬ Accepts buf len k := fun k hik hk hacc =>
        Nat.find_min hex hk ⟨hik, hk.trans hj, hacc⟩
      rw [scan_eq_of_first hij hj haccepts hfirst] at hscan
      exact ⟨_, hij, hj, haccepts, hfirst, (Option.some.inj hscan).symm⟩
    · push Not at hex
      rw [scan_eq_none hex] at hscan
      exact absurd hscan (by simp)
  · rintro ⟨j, hij, hj, haccepts, hfirst, rfl⟩
    exact scan_eq_of_first hij hj haccepts hfirst

/-! ### The checker -/

variable {size : UInt8}

theorem dalinkCheckPacketIntegrity_eq_some_iff :
    dalinkCheckPacketIntegrity buf size = some p ↔ ∃ j < size.toNat,
      Accepts buf size.toNat j ∧ (∀ k < j, ¬ Accepts buf size.toNat k) ∧
      p = ⟨0, announced buf j⟩ := by
  rw [dalinkCheckPacketIntegrity, scan_eq_some_iff]
  simp

/-- The checker reports the start of the buffer, and a length between ten and
the length it was given. -/
theorem dalinkCheckPacketIntegrity_bounds (h : dalinkCheckPacketIntegrity buf size = some p) :
    p.packetHeader = 0 ∧ 10 ≤ p.length ∧ p.length ≤ size.toNat := by
  obtain ⟨j, _, haccepts, _, rfl⟩ := dalinkCheckPacketIntegrity_eq_some_iff.mp h
  exact ⟨rfl, ten_le_announced buf j, haccepts.2.1⟩

/-- An accepted header at the buffer's start is what the checker returns. -/
theorem dalinkCheckPacketIntegrity_of_accepts_zero (h : Accepts buf size.toNat 0) :
    dalinkCheckPacketIntegrity buf size = some ⟨0, announced buf 0⟩ := by
  have hpos : 0 < size.toNat := by
    have := ten_le_announced buf 0
    have := h.2.1
    omega
  exact scan_of_accepts hpos h

/-- The checker's answer is a frame at the place it reports exactly when the
buffer itself starts with an accepted header. -/
theorem isFrameAt_of_check_iff (h : dalinkCheckPacketIntegrity buf size = some p) :
    IsFrameAt buf p.packetHeader p.length ↔ Accepts buf size.toNat 0 := by
  obtain ⟨hheader, _, hlen⟩ := dalinkCheckPacketIntegrity_bounds h
  rw [hheader]
  constructor
  · intro hframe
    have hannounced : announced buf 0 = p.length := hframe.2.1
    exact accepts_zero_iff.mpr ⟨hannounced ▸ hlen, hannounced.symm ▸ hframe⟩
  · intro haccepts
    rw [dalinkCheckPacketIntegrity_of_accepts_zero haccepts] at h
    obtain rfl := Option.some.inj h
    exact (accepts_zero_iff.mp haccepts).2

/-! ### Frames in memory -/

/-- A built frame held at `i` announces its own length there. -/
theorem announced_of_holds {f : Frame} (h : buf.Holds i f.bytes) :
    announced buf i = f.bytes.length := by
  have hlen : f.payload.length < 256 := f.payload_le.trans_lt (by decide)
  rw [f.length_bytes, announced]
  rw [f.bytes_eq] at h
  -- the seventh byte is the payload's length, below 256
  have h6 := h 6 (by simp)
  simp only [packet, packetBody, List.cons_append, List.getElem_cons_succ,
    List.getElem_cons_zero] at h6
  rw [h6, UInt8.toNat_ofNat', Nat.mod_eq_of_lt hlen]

/-- A built frame held at `i` is a well-formed frame there. -/
theorem isFrameAt_of_holds {f : Frame} (h : buf.Holds i f.bytes) :
    IsFrameAt buf i f.bytes.length := by
  have hannounced := announced_of_holds h
  rw [f.length_bytes] at hannounced ⊢
  rw [f.bytes_eq] at h
  -- the header pair is the first two bytes, the tail the last two
  have h0 := h 0 (by simp)
  have h1 := h 1 (by simp)
  have hcr := h (f.payload.length + 8) (by simp)
  have hlf := h (f.payload.length + 9) (by simp)
  simp only [packet] at hcr hlf
  rw [List.getElem_append_right (by simp)] at hcr hlf
  simp only [packet, packetBody, List.cons_append, List.getElem_cons_succ,
    List.getElem_cons_zero] at h0 h1
  simp at hcr hlf
  refine ⟨⟨h0, h1⟩, hannounced, ?_, ?_⟩
  · rw [← hcr]
    congr 1
  · rw [← hlf]
    congr 1

end PhoneLink
