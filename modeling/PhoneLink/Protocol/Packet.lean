import PhoneLink.CS.Memory
import Mathlib.Tactic

/-!
# SPP frames: layout and encoder

A frame is a seven byte header (`44 4C`, command, D flag, transaction id high
and low, payload length), the payload, one checksum byte and the tail `0D 0A`.

`char` is the unsigned 8-bit type of the ARM toolchain, `short` a 16-bit one, so
bytes are `UInt8` and transaction ids `UInt16`.

## Main definitions

* `dalinkCreateSppProtocolPacket`: the encoder, writing into a buffer
* `packet`: the bytes of a frame as a list
* `Frame`: a frame the encoder was asked to build, payload at most 245 bytes

## Main results

* `dalinkCreateSppProtocolPacket_eq`: the encoder writes exactly `packet` over
  the start of its buffer and returns the frame's length
-/

namespace PhoneLink

open CS

/-! ### Frame layout -/

abbrev btSppMessageHaedLowIndex : ℕ := 0x00
abbrev btSppMessageHaedHighIndex : ℕ := 0x01
abbrev btSppMessageCmdTypeIndex : ℕ := 0x02
abbrev btSppMessageDflagIndex : ℕ := 0x03
abbrev btSppMessageTranIdHighIndex : ℕ := 0x04
abbrev btSppMessageTranIdLowIndex : ℕ := 0x05
abbrev btSppMessageLengthIndex : ℕ := 0x06
abbrev btSppMessagePacketLenExceptPlayload : ℕ := 0x0A

def btSppMessageHeaderHigh : UInt8 := 0x44
def btSppMessageHeaderLow : UInt8 := 0x4C

def btSppMessageDlHuAck : UInt8 := 0x2E
def btSppMessageDlHuHeartbeat : UInt8 := 0x2F
def btSppMessageHuDlRequestPhoneInfo : UInt8 := 0x36
def btSppMessageHuDlRequsetPhoneState : UInt8 := 0x38
def btSppMessageHuDlParkState : UInt8 := 0x3A
def btSppMessageHuDlStartAndroidApp : UInt8 := 0x40
def btSppMessageHuDlTouch : UInt8 := 0xA0
def btSppMessageHuDlKey : UInt8 := 0xA2
def btSppMessageHuDlSiri : UInt8 := 0xA8
def btSppMessageDlHuSiri : UInt8 := 0xA9

def dFlagNoNeedAck : UInt8 := 0
def dFlagNeedAck : UInt8 := 1

/-! ### The encoder -/

/-- The XOR of the first `len` bytes. -/
def dalinkBluetoothSppCheckSum (pArray : Memory) (len : ℕ) : UInt8 :=
  (List.range (len - 1)).foldl (fun checksum i => checksum ^^^ pArray (i + 1)) (pArray 0)

/-- An `int` as a `size_t` or as the offset of a pointer, on a 32-bit machine. -/
def sizeT (n : ℤ) : ℕ := (n % 2 ^ 32).toNat

theorem sizeT_of_nonneg {n : ℤ} (hn : 0 ≤ n) (hmax : n < 2 ^ 32) : sizeT n = n.toNat :=
  congrArg Int.toNat (Int.emod_eq_of_lt hn hmax)

/-- Build a frame in `desbuf`: the return value and the buffer afterwards. The
guard compares a signed length; a negative one passes it, and is then a huge one for
`memcpy`. No caller passes a null buffer. -/
def dalinkCreateSppProtocolPacket (type : UInt8) (tranID : UInt16) (dFlag : UInt8)
    (pArray : Memory) (len : ℤ) (desbuf : Memory) : ℤ × Memory :=
  if len > 250 then (-1, desbuf)
  else
    let desbuf := desbuf.write btSppMessageHaedLowIndex btSppMessageHeaderHigh
    let desbuf := desbuf.write btSppMessageHaedHighIndex btSppMessageHeaderLow
    let desbuf := desbuf.write btSppMessageCmdTypeIndex type
    let desbuf := desbuf.write btSppMessageDflagIndex dFlag
    let desbuf := desbuf.write btSppMessageTranIdHighIndex (tranID >>> 8).toUInt8
    let desbuf := desbuf.write btSppMessageTranIdLowIndex tranID.toUInt8
    let desbuf := desbuf.write btSppMessageLengthIndex (UInt8.ofInt len)
    let desbuf := desbuf.copy 7 pArray (sizeT len)
    let desbuf := desbuf.write (sizeT (8 + len)) 0x0D
    let desbuf := desbuf.write (sizeT (9 + len)) 0x0A
    -- the checksum comes last, into the place before the tail, over what precedes it
    let desbuf := desbuf.write (sizeT (7 + len))
      (dalinkBluetoothSppCheckSum desbuf (len + 7).toNat)
    (btSppMessagePacketLenExceptPlayload + len, desbuf)

/-! ### Frames as byte lists -/

/-- Header and payload: what the checksum covers. -/
def packetBody (type : UInt8) (tranID : UInt16) (dFlag : UInt8) (payload : List UInt8) :
    List UInt8 :=
  [btSppMessageHeaderHigh, btSppMessageHeaderLow, type, dFlag, (tranID >>> 8).toUInt8,
    tranID.toUInt8, UInt8.ofNat payload.length] ++ payload

/-- The bytes of a frame. -/
def packet (type : UInt8) (tranID : UInt16) (dFlag : UInt8) (payload : List UInt8) :
    List UInt8 :=
  packetBody type tranID dFlag payload ++
    [(packetBody type tranID dFlag payload).foldl (· ^^^ ·) 0, 0x0D, 0x0A]

variable {type : UInt8} {tranID : UInt16} {dFlag : UInt8} {payload : List UInt8}

@[simp] theorem length_packetBody :
    (packetBody type tranID dFlag payload).length = payload.length + 7 := by
  simp [packetBody]

@[simp] theorem length_packet :
    (packet type tranID dFlag payload).length = payload.length + 10 := by
  simp [packet]

/-- The checksum loop is the XOR fold over the bytes read. -/
theorem dalinkBluetoothSppCheckSum_eq (m : Memory) (n : ℕ) :
    dalinkBluetoothSppCheckSum m (n + 1) = (m.read 0 (n + 1)).foldl (· ^^^ ·) 0 := by
  rw [Memory.read, List.range_succ_eq_map, List.map_cons, List.foldl_cons, List.map_map,
    List.foldl_map]
  simp [dalinkBluetoothSppCheckSum]

private theorem write_header (m : Memory) (b0 b1 b2 b3 b4 b5 b6 : UInt8) :
    ((((((m.write 0 b0).write 1 b1).write 2 b2).write 3 b3).write 4 b4).write 5 b5).write 6 b6 =
      Memory.overlay [b0, b1, b2, b3, b4, b5, b6] m := by
  -- each write extends the overlay of the ones before it
  have h0 := Memory.write_overlay [] m b0
  have h1 := Memory.write_overlay [b0] m b1
  have h2 := Memory.write_overlay [b0, b1] m b2
  have h3 := Memory.write_overlay [b0, b1, b2] m b3
  have h4 := Memory.write_overlay [b0, b1, b2, b3] m b4
  have h5 := Memory.write_overlay [b0, b1, b2, b3, b4] m b5
  have h6 := Memory.write_overlay [b0, b1, b2, b3, b4, b5] m b6
  simp only [Memory.overlay_nil, List.length_nil, List.length_cons, List.nil_append,
    List.cons_append, Nat.zero_add, Nat.reduceAdd] at h0 h1 h2 h3 h4 h5 h6
  rw [h0, h1, h2, h3, h4, h5, h6]

private theorem checkSum_overlay (m : Memory) {l : List UInt8} (hl : 0 < l.length) :
    dalinkBluetoothSppCheckSum
      (((Memory.overlay l m).write (l.length + 1) 0x0D).write (l.length + 2) 0x0A) l.length =
      l.foldl (· ^^^ ·) 0 := by
  obtain ⟨n, hn⟩ := Nat.exists_eq_succ_of_ne_zero hl.ne'
  rw [hn, dalinkBluetoothSppCheckSum_eq]
  congr 1
  -- the loop stops before the two bytes of the tail
  refine List.ext_getElem (by simpa using hn.symm) fun k hk hk' => ?_
  rw [Memory.getElem_read, Nat.zero_add, Memory.write_apply_of_ne (by omega),
    Memory.write_apply_of_ne (by omega), Memory.overlay_apply_of_lt hk']

/-- The tail is written before the checksum it follows; in place the three bytes
extend the overlay. -/
private theorem write_trailer (m : Memory) {l : List UInt8} (hl : 0 < l.length) :
    let tailed := ((Memory.overlay l m).write (l.length + 1) 0x0D).write (l.length + 2) 0x0A
    tailed.write l.length (dalinkBluetoothSppCheckSum tailed l.length) =
      Memory.overlay (l ++ [l.foldl (· ^^^ ·) 0, 0x0D, 0x0A]) m := by
  intro tailed
  rw [checkSum_overlay m hl, Memory.write_comm (i := l.length + 2) (by omega),
    Memory.write_comm (i := l.length + 1) (by omega), Memory.write_overlay]
  have h1 := Memory.write_overlay (l ++ [l.foldl (· ^^^ ·) 0]) m 0x0D
  have h2 := Memory.write_overlay (l ++ [l.foldl (· ^^^ ·) 0, 0x0D]) m 0x0A
  simp only [List.length_append, List.length_cons, List.length_nil, List.append_assoc,
    List.cons_append, List.nil_append, Nat.zero_add, Nat.reduceAdd] at h1 h2
  rw [h1, h2]

/-- **The encoder's specification.** For a payload of at most 250 bytes it
returns the frame's length and leaves exactly the frame over the start of the
buffer. -/
theorem dalinkCreateSppProtocolPacket_eq (hlen : payload.length ≤ 250) (src desbuf : Memory) :
    dalinkCreateSppProtocolPacket type tranID dFlag (Memory.overlay payload src)
        payload.length desbuf =
      (((payload.length + 10 : ℕ) : ℤ),
        Memory.overlay (packet type tranID dFlag payload) desbuf) := by
  have hguard : ¬ (payload.length : ℤ) > 250 := by omega
  -- the length byte is the length itself: the guard keeps it below 256
  have hsmall : ((payload.length : ℤ) % 2 ^ 8).toNat = payload.length := by omega
  have hsize : UInt8.ofInt (payload.length : ℤ) = UInt8.ofNat payload.length :=
    congrArg UInt8.ofNat hsmall
  have hbody : (Memory.overlay [btSppMessageHeaderHigh, btSppMessageHeaderLow, type, dFlag,
      (tranID >>> 8).toUInt8, tranID.toUInt8, UInt8.ofNat payload.length] desbuf).copy 7
        (Memory.overlay payload src) payload.length =
      Memory.overlay (packetBody type tranID dFlag payload) desbuf := by
    refine (Memory.copy_overlay _ desbuf _ _).trans ?_
    rw [Memory.read_overlay]
    rfl
  -- the places of checksum and tail are those behind the body
  have htrailer := write_trailer desbuf
    (l := packetBody type tranID dFlag payload) (by rw [length_packetBody]; omega)
  rw [length_packetBody] at htrailer
  have hsum : ((payload.length : ℤ) + 7).toNat = payload.length + 7 := by omega
  have hcopy : sizeT (payload.length : ℤ) = payload.length := by
    rw [sizeT_of_nonneg (by omega) (by omega), Int.toNat_natCast]
  have htail : sizeT (8 + (payload.length : ℤ)) = payload.length + 7 + 1 := by
    rw [sizeT_of_nonneg (by omega) (by omega)]
    omega
  have hlast : sizeT (9 + (payload.length : ℤ)) = payload.length + 7 + 2 := by
    rw [sizeT_of_nonneg (by omega) (by omega)]
    omega
  have hcheck : sizeT (7 + (payload.length : ℤ)) = payload.length + 7 := by
    rw [sizeT_of_nonneg (by omega) (by omega)]
    omega
  unfold dalinkCreateSppProtocolPacket
  rw [if_neg hguard]
  dsimp only
  rw [write_header, hsize, hcopy, hbody, hsum, htail, hlast, hcheck, htrailer]
  refine Prod.ext ?_ rfl
  push_cast
  exact Int.add_comm _ _

/-! ### Frames -/

/-- What a caller asks the encoder to build, with a payload that fits the
255-byte send buffer. -/
structure Frame where
  type : UInt8
  tranID : UInt16
  dFlag : UInt8
  payload : List UInt8
  payload_le : payload.length ≤ 245

/-- The bytes the encoder builds for the frame, read back from its buffer. -/
def Frame.bytes (f : Frame) : List UInt8 :=
  let built := dalinkCreateSppProtocolPacket f.type f.tranID f.dFlag
    (Memory.overlay f.payload Memory.zero) f.payload.length Memory.zero
  built.2.read 0 built.1.toNat

theorem Frame.bytes_eq (f : Frame) :
    f.bytes = packet f.type f.tranID f.dFlag f.payload := by
  have hlen : f.payload.length ≤ 250 := f.payload_le.trans (by decide)
  have hread := Memory.read_overlay (packet f.type f.tranID f.dFlag f.payload) Memory.zero
  rw [length_packet] at hread
  rw [Frame.bytes, dalinkCreateSppProtocolPacket_eq hlen, Int.toNat_natCast, hread]

theorem Frame.length_bytes (f : Frame) : f.bytes.length = f.payload.length + 10 := by
  rw [f.bytes_eq, length_packet]

end PhoneLink
