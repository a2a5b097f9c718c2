import PhoneLink.CS.Parity
import PhoneLink.Protocol.MsgDeal
import PhoneLink.Protocol.Requests

/-!
# Encoder, checker and checksum together

What the encoder writes, the checker accepts, and the fields read back are those
written. The encoder closes header and payload with their parity; nothing on the
receiving side computes it, so a frame with a wrong byte is dispatched like any
other. The encoder's guard on the payload length is five bytes more generous than
the send buffer and the 8-bit length of the send path.

## Main results

* `codec_roundTrip`: encoding, checking and reading back
* `parity_of_corrupted`, `corrupted_frame_dispatched`: a wrong byte shows in the
  parity, and the frame is dispatched
* `encoder_untouched`: a byte outside `dalinkCreateSppProtocolPacket.writes` is as before
* `encoder_guard_safe_iff`: the lengths for which the guard keeps its promise
-/

namespace PhoneLink

open CS

variable {type : UInt8} {tranID : UInt16} {dFlag : UInt8} {payload : List UInt8}

/-! ### Round trip -/

/-- Header, payload and checksum of a frame have parity zero. -/
theorem parity_packet :
    parity ((packet type tranID dFlag payload).take (payload.length + 8)) = 0 := by
  have htake : (packet type tranID dFlag payload).take (payload.length + 8) =
      packetBody type tranID dFlag payload ++ [parity (packetBody type tranID dFlag payload)] := by
    have hlen : payload.length + 8 = (packetBody type tranID dFlag payload).length + 1 := by
      rw [length_packetBody]
    rw [packet, hlen, List.take_length_add_append]
    rfl
  rw [htake, parity_append_parity]

/-- The payload stands behind the seven header bytes. -/
theorem holds_payload {f : Frame} {m : Memory} (h : m.Holds 0 f.bytes) : m.Holds 7 f.payload := by
  rw [f.bytes_eq, packet, Memory.holds_append, packetBody, Memory.holds_append] at h
  exact h.1.2

/-- The first `n` bytes of what is held. -/
theorem read_zero_of_holds {l : List UInt8} {m : Memory} {n : ℕ} (h : m.Holds 0 l)
    (hn : n ≤ l.length) : m.read 0 n = l.take n := by
  refine List.ext_getElem (by rw [Memory.length_read, List.length_take_of_le hn]) fun k hk hk' => ?_
  rw [Memory.length_read] at hk
  rw [Memory.getElem_read, h k (by omega), List.getElem_take]

/-- A built frame that fills the buffer up to its length is found at its first byte. -/
theorem check_of_holds {f : Frame} {m : Memory} (h : m.Holds 0 f.bytes) :
    dalinkCheckPacketIntegrity m (UInt8.ofNat f.bytes.length) = some ⟨0, f.bytes.length⟩ := by
  have hmax := (length_bytes_bounds f).2
  have hsize : (UInt8.ofNat f.bytes.length).toNat = f.bytes.length := by
    rw [UInt8.toNat_ofNat', Nat.mod_eq_of_lt (by omega)]
  have hcheck := dalinkCheckPacketIntegrity_of_accepts_zero (accepts_of_holds h hsize.ge)
  rwa [announced_of_holds h] at hcheck

/-- The narrowing of a built frame's length keeps it. -/
theorem ofInt_length_bytes (f : Frame) :
    UInt8.ofInt (f.bytes.length : ℤ) = UInt8.ofNat f.bytes.length := by
  have hmax := (length_bytes_bounds f).2
  have hsmall : ((f.bytes.length : ℤ) % 2 ^ 8).toNat = f.bytes.length := by omega
  exact congrArg UInt8.ofNat hsmall

/-- **Codec round trip.** For every payload of at most 245 bytes, whatever it
contains, the encoder returns the frame's length, the checker finds the frame at its
first byte, the fields read back are those encoded, and header, payload and checksum
have parity zero. -/
theorem codec_roundTrip (type : UInt8) (tranID : UInt16) (dFlag : UInt8) (payload : List UInt8)
    (hlen : payload.length ≤ 245) (src desbuf : Memory) :
    let built := dalinkCreateSppProtocolPacket type tranID dFlag (.overlay payload src)
      payload.length desbuf
    built.1 = payload.length + 10 ∧
      dalinkCheckPacketIntegrity built.2 (UInt8.ofInt built.1) =
        some ⟨0, payload.length + 10⟩ ∧
      readHeader built.2 = ⟨dFlag, type, tranID⟩ ∧
      (built.2 btSppMessageLengthIndex).toNat = payload.length ∧
      built.2.read 7 payload.length = payload ∧
      parity (built.2.read 0 (payload.length + 8)) = 0 := by
  let f : Frame := ⟨type, tranID, dFlag, payload, hlen⟩
  have hbuilt : dalinkCreateSppProtocolPacket type tranID dFlag (.overlay payload src)
      payload.length desbuf = ((f.bytes.length : ℤ), .overlay f.bytes desbuf) :=
    f.overlay_bytes src desbuf
  have hholds : (Memory.overlay f.bytes desbuf).Holds 0 f.bytes := Memory.holds_overlay _ _
  have hbytes : f.bytes.length = payload.length + 10 := f.length_bytes
  intro built
  change built = _ at hbuilt
  rw [hbuilt]
  refine ⟨?_, ?_, readHeader_of_holds hholds, ?_, (holds_payload hholds).read_eq, ?_⟩
  · rw [hbytes]
    push_cast
    rfl
  · rw [ofInt_length_bytes, check_of_holds hholds, hbytes]
  · -- the length byte is what the checker adds ten to
    have hannounced := announced_of_holds hholds
    rw [announced, hbytes] at hannounced
    exact Nat.add_right_cancel hannounced
  · rw [read_zero_of_holds hholds (by omega), f.bytes_eq]
    exact parity_packet

/-- A payload that holds a header pair and a tail. -/
theorem codec_roundTrip_imitation :
    let built := dalinkCreateSppProtocolPacket 0x39 0xFF80 1
      (.overlay [0x44, 0x4C, 0x0D, 0x0A] .zero) 4 .zero
    built.1 = 4 + 10 ∧
      dalinkCheckPacketIntegrity built.2 (UInt8.ofInt built.1) = some ⟨0, 4 + 10⟩ ∧
      readHeader built.2 = ⟨1, 0x39, 0xFF80⟩ ∧
      (built.2 btSppMessageLengthIndex).toNat = 4 ∧
      built.2.read 7 4 = [0x44, 0x4C, 0x0D, 0x0A] ∧
      parity (built.2.read 0 (4 + 8)) = 0 :=
  codec_roundTrip 0x39 0xFF80 1 [0x44, 0x4C, 0x0D, 0x0A] (by decide) .zero .zero

/-! ### Corrupted frames -/

/-- The places of command, D flag, transaction id, payload and checksum. -/
def CoveredByCheckSum (f : Frame) (i : ℕ) : Prop :=
  2 ≤ i ∧ i ≠ btSppMessageLengthIndex ∧ i < f.payload.length + 8

instance (f : Frame) (i : ℕ) : Decidable (CoveredByCheckSum f i) :=
  inferInstanceAs (Decidable (_ ∧ _))

variable {f : Frame} {i : ℕ} {b : UInt8}

/-- The wrong byte shows in the parity of what the checksum covers. -/
theorem parity_of_corrupted (hi : CoveredByCheckSum f i) (hb : f.bytes[i]? ≠ some b) :
    parity ((f.bytes.set i b).take (f.payload.length + 8)) ≠ 0 := by
  have hlt : i < (f.bytes.take (f.payload.length + 8)).length := by
    rw [List.length_take, f.length_bytes]
    exact lt_min hi.2.2 (by have := hi.2.2; omega)
  have hne : b ≠ (f.bytes.take (f.payload.length + 8))[i] := by
    rintro rfl
    rw [List.getElem_take] at hb
    exact hb (List.getElem?_eq_getElem _)
  have hgood : parity (f.bytes.take (f.payload.length + 8)) = 0 := by
    rw [f.bytes_eq]
    exact parity_packet
  rw [List.take_set, ← hgood]
  exact parity_set_ne hlt hne

/-- Header pair, length byte and tail are untouched, so the checker accepts. -/
theorem accepts_corrupted (hi : CoveredByCheckSum f i) (mem : Memory) :
    Accepts (Memory.overlay (f.bytes.set i b) mem) f.bytes.length 0 ∧
      announced (Memory.overlay (f.bytes.set i b) mem) 0 = f.bytes.length := by
  have hlen := f.length_bytes
  have hsame (k : ℕ) (hk : k ≠ i) (hlt : k < f.bytes.length) :
      Memory.overlay (f.bytes.set i b) mem k = Memory.overlay f.bytes mem k := by
    rw [Memory.overlay_apply_of_lt (by rw [List.length_set]; exact hlt),
      Memory.overlay_apply_of_lt hlt, List.getElem_set_ne (Ne.symm hk)]
  have hgood := accepts_of_holds (Memory.holds_overlay f.bytes mem) le_rfl
  have hannounced := announced_of_holds (Memory.holds_overlay f.bytes mem)
  obtain ⟨htwo, hsix, hcheck⟩ := hi
  have hannounced' : announced (Memory.overlay (f.bytes.set i b) mem) 0 = f.bytes.length := by
    rw [← hannounced, announced, announced, hsame (0 + 6) (Ne.symm hsix) (by omega)]
  obtain ⟨⟨hhigh, hlow⟩, hfits, hcr, hlf⟩ := hgood
  rw [hannounced] at hfits hcr hlf
  refine ⟨⟨⟨?_, ?_⟩, hannounced'.le, ?_, ?_⟩, hannounced'⟩
  · rw [hsame 0 (by omega) (by omega), hhigh]
  · rw [hsame (0 + 1) (by omega) (by omega), hlow]
  · rw [hannounced', hsame _ (by omega) (by omega), hcr]
  · rw [hannounced', hsame _ (by omega) (by omega), hlf]

/-- **Corrupted frames are dispatched.** Whatever byte among command, D flag,
transaction id, payload and checksum is replaced by whatever other value, the parity
of the frame is no longer zero, and the receive loop hands the frame to the
dispatcher. -/
theorem corrupted_frame_dispatched (f : Frame) (i : ℕ) (b : UInt8) (mem : Memory)
    (hi : CoveredByCheckSum f i) (hb : f.bytes[i]? ≠ some b) :
    parity ((f.bytes.set i b).take (f.payload.length + 8)) ≠ 0 ∧
      dispatched f.bytes.length (Memory.overlay (f.bytes.set i b) mem) = [0] := by
  refine ⟨parity_of_corrupted hi hb, ?_⟩
  obtain ⟨haccepts, hannounced⟩ := accepts_corrupted (b := b) hi mem
  obtain ⟨hten, hmax⟩ := length_bytes_bounds f
  have hsize : (UInt8.ofNat (f.bytes.length - 0)).toNat = f.bytes.length := by
    rw [Nat.sub_zero, UInt8.toNat_ofNat', Nat.mod_eq_of_lt (by omega)]
  have hcheck : dalinkCheckPacketIntegrity (Memory.overlay (f.bytes.set i b) mem)
      (UInt8.ofNat (f.bytes.length - 0)) = some ⟨0, f.bytes.length⟩ := by
    rw [dalinkCheckPacketIntegrity_of_accepts_zero (hsize.symm ▸ haccepts), hannounced]
  rw [← Memory.shift_zero (Memory.overlay _ mem)] at hcheck
  -- one pass over the frame, and nothing is left
  rw [dispatched_eq, handed_of_some (by omega) hcheck, handed_of_le (Nat.le_add_left _ _)]
  rfl

/-- A heartbeat whose D flag is turned from 0 to 1. -/
theorem corrupted_frame_dispatched_dFlag :
    parity ((heartbeatFrame.bytes.set 3 1).take (heartbeatFrame.payload.length + 8)) ≠ 0 ∧
      dispatched heartbeatFrame.bytes.length
        (Memory.overlay (heartbeatFrame.bytes.set 3 1) .zero) = [0] :=
  corrupted_frame_dispatched heartbeatFrame 3 1 .zero (by decide) (by decide)

/-- The corrupted heartbeat is found at its first byte and dispatched. -/
theorem heartbeat_with_wrong_dFlag :
    heartbeatFrame.bytes = [0x44, 0x4C, 0x2F, 0, 0, 0, 1, 0, 0x26, 0x0D, 0x0A] ∧
      dispatched 11 (Memory.overlay [0x44, 0x4C, 0x2F, 1, 0, 0, 1, 0, 0x26, 0x0D, 0x0A] .zero) ≠
        [] := by
  have hcheck : dalinkCheckPacketIntegrity
      (Memory.shift (Memory.overlay [0x44, 0x4C, 0x2F, 1, 0, 0, 1, 0, 0x26, 0x0D, 0x0A] .zero) 0)
        (UInt8.ofNat (11 - 0)) = some ⟨0, 11⟩ :=
    dalinkCheckPacketIntegrity_eq_some_iff.mpr
      ⟨0, by decide, by decide, fun k hk => absurd hk (Nat.not_lt_zero k), by decide⟩
  refine ⟨by decide, ?_⟩
  rw [dispatched_eq, handed_of_some (by decide) hcheck, List.map_cons]
  exact List.cons_ne_nil _ _

/-! ### The encoder's guard -/

/-- The places the encoder writes if the guard admits the length, in the order of its
stores: first offset and number of bytes. -/
def dalinkCreateSppProtocolPacket.writes (len : ℤ) : List (ℕ × ℕ) :=
  [(btSppMessageHaedLowIndex, 1), (btSppMessageHaedHighIndex, 1), (btSppMessageCmdTypeIndex, 1),
    (btSppMessageDflagIndex, 1), (btSppMessageTranIdHighIndex, 1),
    (btSppMessageTranIdLowIndex, 1), (btSppMessageLengthIndex, 1), (7, sizeT len),
    (sizeT (8 + len), 1), (sizeT (9 + len), 1), (sizeT (7 + len), 1)]

/-- `sizeof(dalink_spp_send_buf)`. -/
abbrev sizeofDalinkSppSendBuf : ℕ := 255

/-- A byte that no store covers is as it was before. -/
theorem encoder_untouched {len : ℤ} {k : ℕ} (pArray desbuf : Memory)
    (hk : ∀ w ∈ dalinkCreateSppProtocolPacket.writes len, ¬ (w.1 ≤ k ∧ k < w.1 + w.2)) :
    (dalinkCreateSppProtocolPacket type tranID dFlag pArray len desbuf).2 k = desbuf k := by
  simp only [dalinkCreateSppProtocolPacket.writes, List.forall_mem_cons, List.not_mem_nil,
    btSppMessageHaedLowIndex, btSppMessageHaedHighIndex, btSppMessageCmdTypeIndex,
    btSppMessageDflagIndex, btSppMessageTranIdHighIndex, btSppMessageTranIdLowIndex,
    btSppMessageLengthIndex] at hk
  obtain ⟨h0, h1, h2, h3, h4, h5, h6, hpayload, hcr, hlf, hsum, -⟩ := hk
  unfold dalinkCreateSppProtocolPacket
  split_ifs with hlong
  · rfl
  · -- from the last store back to the first
    dsimp only
    rw [Memory.write_apply_of_ne (by omega), Memory.write_apply_of_ne (by omega),
      Memory.write_apply_of_ne (by omega), Memory.copy, if_neg (by omega),
      Memory.write_apply_of_ne (show k ≠ 6 by omega),
      Memory.write_apply_of_ne (show k ≠ 5 by omega),
      Memory.write_apply_of_ne (show k ≠ 4 by omega),
      Memory.write_apply_of_ne (show k ≠ 3 by omega),
      Memory.write_apply_of_ne (show k ≠ 2 by omega),
      Memory.write_apply_of_ne (show k ≠ 1 by omega),
      Memory.write_apply_of_ne (show k ≠ 0 by omega)]

theorem encoder_ret_of_le (pArray desbuf : Memory) {len : ℤ} (h : len ≤ 250) :
    (dalinkCreateSppProtocolPacket type tranID dFlag pArray len desbuf).1 = 10 + len :=
  congrArg Prod.fst (if_neg (not_lt.mpr h))

/-- The stores of a nonnegative length stay inside the send buffer up to 245 bytes of
payload. -/
theorem writes_inside_iff {len : ℤ} (hlen : 0 ≤ len) (hmax : len ≤ 250) :
    (∀ w ∈ dalinkCreateSppProtocolPacket.writes len, w.1 + w.2 ≤ sizeofDalinkSppSendBuf) ↔
      len ≤ 245 := by
  have hoffset (n : ℤ) (hn : 0 ≤ n) (hn' : n ≤ 9) : sizeT (n + len) = (n + len).toNat :=
    sizeT_of_nonneg (by omega) (by omega)
  have hcopy := hoffset 0 (by decide) (by decide)
  rw [Int.zero_add] at hcopy
  simp only [dalinkCreateSppProtocolPacket.writes, hcopy, hoffset 7 (by decide) (by decide),
    hoffset 8 (by decide) (by decide), hoffset 9 (by decide) (by decide), List.forall_mem_cons,
    List.not_mem_nil, btSppMessageHaedLowIndex, btSppMessageHaedHighIndex,
    btSppMessageCmdTypeIndex, btSppMessageDflagIndex, btSppMessageTranIdHighIndex,
    btSppMessageTranIdLowIndex, btSppMessageLengthIndex, sizeofDalinkSppSendBuf]
  constructor
  · rintro ⟨-, -, -, -, -, -, -, -, -, hlast, -⟩
    omega
  · intro hfits
    refine ⟨?_, ?_, ?_, ?_, ?_, ?_, ?_, ?_, ?_, ?_, ?_, fun _ h => absurd h id⟩ <;> omega

/-- **The encoder's guard.** What it admits is nonnegative, written inside the send
buffer and of a length that survives the 8-bit parameter of the send path, exactly for
the lengths from 0 to 245 and those it refuses. A length of `-11` is admitted like every
negative one: the `-1` that it returns is no refusal, but stands behind a copy of
`2 ^ 32 - 11` bytes. -/
theorem encoder_guard_safe_iff (type : UInt8) (tranID : UInt16) (dFlag : UInt8)
    (pArray desbuf : Memory) (len : ℤ) :
    let ret := (dalinkCreateSppProtocolPacket type tranID dFlag pArray len desbuf).1
    (len ≤ 250 → 0 ≤ len ∧
      (∀ w ∈ dalinkCreateSppProtocolPacket.writes len, w.1 + w.2 ≤ sizeofDalinkSppSendBuf) ∧
      ((UInt8.ofInt ret).toNat : ℤ) = ret) ↔
      (0 ≤ len ∧ len ≤ 245) ∨ 250 < len := by
  intro ret
  constructor
  · intro h
    rcases le_or_gt len 250 with hadmitted | hrefused
    · obtain ⟨hnonneg, hinside, -⟩ := h hadmitted
      exact .inl ⟨hnonneg, (writes_inside_iff hnonneg hadmitted).mp hinside⟩
    · exact .inr hrefused
  · intro h hadmitted
    obtain ⟨hnonneg, hfits⟩ := h.resolve_right (not_lt.mpr hadmitted)
    have hret : ret = 10 + len := encoder_ret_of_le pArray desbuf hadmitted
    have hsize : (UInt8.ofInt ret).toNat = (ret % 2 ^ 8).toNat % 2 ^ 8 := UInt8.toNat_ofNat'
    refine ⟨hnonneg, (writes_inside_iff hnonneg hadmitted).mpr hfits, ?_⟩
    rw [hsize]
    omega

example : (7, 2 ^ 32 - 11) ∈ dalinkCreateSppProtocolPacket.writes (-11) := by decide

/-- A payload of 246 bytes passes the guard, its last byte is written behind the buffer,
and its length of 256 is narrowed to zero. -/
theorem payload_246_overruns :
    (dalinkCreateSppProtocolPacket 0x38 0 1 .zero 246 .zero).1 = 256 ∧
      (255, 1) ∈ dalinkCreateSppProtocolPacket.writes 246 ∧
      ¬ (∀ w ∈ dalinkCreateSppProtocolPacket.writes 246,
        w.1 + w.2 ≤ sizeofDalinkSppSendBuf) ∧
      UInt8.ofInt 256 = 0 :=
  ⟨encoder_ret_of_le _ _ (by decide), by decide, by decide, by decide⟩

end PhoneLink
