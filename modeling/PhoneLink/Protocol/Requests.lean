import PhoneLink.Protocol.Packet

/-!
# The frames the head unit sends

Every kind of message has a function that builds its frame in the shared send
buffer. All of them but the one for ACKs number the frame with the 16-bit counter
`tranID` and increment it; an ACK repeats the id of the frame it acknowledges.

## Main definitions

* `Request.create`: the create step of each kind of message
* `Request.frame`: the frame it encodes
* `readHeader`: the header fields a sender reads back from the buffer

## Main results

* `Request.create_eq`: the create step leaves exactly its frame in the buffer
* `readHeader_of_holds`: what is read back is the frame's own header
-/

namespace PhoneLink

open CS

def btSppMessagePhoneStartDalink : UInt8 := 0x00
def btSppMessageSiriCmd : UInt8 := 0x00
def btSppMessageSiriFeedback : UInt8 := 0x01

/-! ### The create functions -/

/-- What a create function leaves: its return value, the buffer and the counter. -/
structure Created where
  ret : ℤ
  desbuf : Memory
  tranID : UInt16

/-- Build a frame numbered `tranID++`. -/
def createNumbered (type dFlag : UInt8) (data : List UInt8) (tranID : UInt16)
    (desbuf : Memory) : Created :=
  let built := dalinkCreateSppProtocolPacket type tranID dFlag (.overlay data .zero) data.length
    desbuf
  ⟨built.1, built.2, tranID + 1⟩

def createAckPacket (ackTranid : UInt16) (cmd : UInt8) (tranID : UInt16) (desbuf : Memory) :
    Created :=
  let built := dalinkCreateSppProtocolPacket btSppMessageDlHuAck ackTranid dFlagNoNeedAck
    (.overlay [cmd] .zero) 1 desbuf
  -- the id is the received frame's, the counter stays
  ⟨built.1, built.2, tranID⟩

def createHeartbeatPacket : UInt16 → Memory → Created :=
  createNumbered btSppMessageDlHuHeartbeat dFlagNoNeedAck [0]

def createTouchscreenPacket (x y : UInt16) (touchFlag multiSerial : UInt8) :
    UInt16 → Memory → Created :=
  createNumbered btSppMessageHuDlTouch dFlagNoNeedAck
    [(x >>> 8).toUInt8, x.toUInt8, (y >>> 8).toUInt8, y.toUInt8, touchFlag, multiSerial]

def createKeyInfoPacket (keyValue keyFlag : UInt8) : UInt16 → Memory → Created :=
  createNumbered btSppMessageHuDlKey dFlagNoNeedAck [keyValue, keyFlag]

def createRequestPhoneinfoPacket (phoneInfoClass : UInt8) : UInt16 → Memory → Created :=
  createNumbered btSppMessageHuDlRequestPhoneInfo dFlagNoNeedAck [phoneInfoClass]

def createRequestPhonestatePacket (phoneStateClass : UInt8) : UInt16 → Memory → Created :=
  createNumbered btSppMessageHuDlRequsetPhoneState dFlagNeedAck [phoneStateClass]

def createParkinfoPacket (parkState : UInt8) : UInt16 → Memory → Created :=
  createNumbered btSppMessageHuDlParkState dFlagNeedAck [parkState]

def createSiriPacket (siriStatus : UInt8) : UInt16 → Memory → Created :=
  createNumbered btSppMessageHuDlSiri dFlagNeedAck [btSppMessageSiriCmd, siriStatus]

def createSiriFeedbackPacket (siriCmd siriStatus : UInt8) : UInt16 → Memory → Created :=
  createNumbered btSppMessageHuDlSiri dFlagNeedAck [btSppMessageSiriFeedback, siriCmd, siriStatus]

/-- The create step of `start_android_dalink_app`. -/
def startAndroidDalinkApp : UInt16 → Memory → Created :=
  createNumbered btSppMessageHuDlStartAndroidApp dFlagNeedAck [btSppMessagePhoneStartDalink]

/-! ### Requests -/

/-- A message to be sent. -/
inductive Request
  | ack (ackTranid : UInt16) (cmd : UInt8)
  | heartbeat
  | touchscreen (x y : UInt16) (touchFlag multiSerial : UInt8)
  | keyInfo (keyValue keyFlag : UInt8)
  | requestPhoneinfo (phoneInfoClass : UInt8)
  | requestPhonestate (phoneStateClass : UInt8)
  | parkinfo (parkState : UInt8)
  | siri (siriStatus : UInt8)
  | siriFeedback (siriCmd siriStatus : UInt8)
  | startApp
  deriving DecidableEq, Repr

/-- The create step of a request. -/
def Request.create : Request → UInt16 → Memory → Created
  | .ack ackTranid cmd => createAckPacket ackTranid cmd
  | .heartbeat => createHeartbeatPacket
  | .touchscreen x y touchFlag multiSerial => createTouchscreenPacket x y touchFlag multiSerial
  | .keyInfo keyValue keyFlag => createKeyInfoPacket keyValue keyFlag
  | .requestPhoneinfo phoneInfoClass => createRequestPhoneinfoPacket phoneInfoClass
  | .requestPhonestate phoneStateClass => createRequestPhonestatePacket phoneStateClass
  | .parkinfo parkState => createParkinfoPacket parkState
  | .siri siriStatus => createSiriPacket siriStatus
  | .siriFeedback siriCmd siriStatus => createSiriFeedbackPacket siriCmd siriStatus
  | .startApp => startAndroidDalinkApp

/-- A frame whose payload is seen to be short enough. -/
def Frame.short (type : UInt8) (tranID : UInt16) (dFlag : UInt8) (payload : List UInt8)
    (h : payload.length.ble 245 = true) : Frame :=
  ⟨type, tranID, dFlag, payload, Nat.le_of_ble_eq_true h⟩

/-- The frame a request encodes when the counter is at `tranID`. -/
def Request.frame (tranID : UInt16) : Request → Frame
  | .ack ackTranid cmd => .short btSppMessageDlHuAck ackTranid dFlagNoNeedAck [cmd] rfl
  | .heartbeat => .short btSppMessageDlHuHeartbeat tranID dFlagNoNeedAck [0] rfl
  | .touchscreen x y touchFlag multiSerial =>
    .short btSppMessageHuDlTouch tranID dFlagNoNeedAck
      [(x >>> 8).toUInt8, x.toUInt8, (y >>> 8).toUInt8, y.toUInt8, touchFlag, multiSerial] rfl
  | .keyInfo keyValue keyFlag =>
    .short btSppMessageHuDlKey tranID dFlagNoNeedAck [keyValue, keyFlag] rfl
  | .requestPhoneinfo phoneInfoClass =>
    .short btSppMessageHuDlRequestPhoneInfo tranID dFlagNoNeedAck [phoneInfoClass] rfl
  | .requestPhonestate phoneStateClass =>
    .short btSppMessageHuDlRequsetPhoneState tranID dFlagNeedAck [phoneStateClass] rfl
  | .parkinfo parkState => .short btSppMessageHuDlParkState tranID dFlagNeedAck [parkState] rfl
  | .siri siriStatus =>
    .short btSppMessageHuDlSiri tranID dFlagNeedAck [btSppMessageSiriCmd, siriStatus] rfl
  | .siriFeedback siriCmd siriStatus =>
    .short btSppMessageHuDlSiri tranID dFlagNeedAck
      [btSppMessageSiriFeedback, siriCmd, siriStatus] rfl
  | .startApp =>
    .short btSppMessageHuDlStartAndroidApp tranID dFlagNeedAck [btSppMessagePhoneStartDalink] rfl

theorem Frame.overlay_bytes (f : Frame) (src desbuf : Memory) :
    dalinkCreateSppProtocolPacket f.type f.tranID f.dFlag (.overlay f.payload src)
        f.payload.length desbuf =
      ((f.bytes.length : ℤ), .overlay f.bytes desbuf) := by
  rw [dalinkCreateSppProtocolPacket_eq (f.payload_le.trans (by decide)), f.length_bytes,
    f.bytes_eq]

/-- **The create step.** It returns the length of the request's frame and leaves the
frame over the start of the buffer. -/
theorem Request.create_eq (r : Request) (tranID : UInt16) (desbuf : Memory) :
    (r.create tranID desbuf).ret = (r.frame tranID).bytes.length ∧
      (r.create tranID desbuf).desbuf = .overlay (r.frame tranID).bytes desbuf := by
  -- every create function is the encoder at the fields of its frame
  have hframe := (r.frame tranID).overlay_bytes .zero desbuf
  cases r <;> exact Prod.ext_iff.mp hframe

/-! ### The header read back -/

/-- What `protected_spp_send_data` reads from the buffer. -/
structure Header where
  dFlag : UInt8
  cmdId : UInt8
  tranId : UInt16
  deriving DecidableEq, Repr

/-- The header fields at the start of the buffer. -/
def readHeader (pData : Memory) : Header where
  dFlag := pData btSppMessageDflagIndex
  cmdId := pData btSppMessageCmdTypeIndex
  tranId := (pData btSppMessageTranIdHighIndex).toUInt16 <<< 8 |||
    (pData btSppMessageTranIdLowIndex).toUInt16

/-- The header of a frame. -/
def Frame.header (f : Frame) : Header := ⟨f.dFlag, f.type, f.tranID⟩

/-- The two bytes of a transaction id put together again. -/
theorem tranId_of_bytes (t : UInt16) :
    (t >>> 8).toUInt8.toUInt16 <<< 8 ||| t.toUInt8.toUInt16 = t := by
  apply UInt16.toNat_inj.mp
  -- `t = 256 * (t / 256) + t % 256`, with the or of disjoint bits as the sum
  have hlt := t.toNat_lt
  simp only [UInt16.toNat_or, UInt16.toNat_shiftLeft, UInt8.toNat_toUInt16, UInt16.toNat_toUInt8,
    UInt16.toNat_shiftRight, UInt16.reduceToNat, Nat.reduceMod]
  have hhigh : (t.toNat >>> 8 % 2 ^ 8) <<< 8 % 2 ^ 16 = (t.toNat / 256) <<< 8 := by
    simp only [Nat.shiftRight_eq_div_pow, Nat.shiftLeft_eq]
    omega
  rw [hhigh, ← Nat.shiftLeft_add_eq_or_of_lt (Nat.mod_lt _ (by decide)), Nat.shiftLeft_eq]
  omega

/-- Header and payload byte by byte. -/
theorem holds_packetBody {m : Memory} {type dFlag : UInt8} {tranID : UInt16}
    {payload : List UInt8} (h : m.Holds 0 (packetBody type tranID dFlag payload)) :
    m 2 = type ∧ readHeader m = ⟨dFlag, type, tranID⟩ ∧ m 6 = UInt8.ofNat payload.length ∧
      ∀ k (hk : k < payload.length), m (7 + k) = payload[k] := by
  have hbyte (k : ℕ) (hk : k < (packetBody type tranID dFlag payload).length) :
      m k = (packetBody type tranID dFlag payload)[k] :=
    (congrArg m (Nat.zero_add k)).symm.trans (h k hk)
  refine ⟨hbyte 2 (by simp), ?_, hbyte 6 (by simp), fun k hk => ?_⟩
  · unfold readHeader
    rw [hbyte 2 (by simp), hbyte 3 (by simp), hbyte 4 (by simp), hbyte 5 (by simp)]
    exact congrArg (Header.mk dFlag type) (tranId_of_bytes tranID)
  · rw [hbyte (7 + k) (by rw [length_packetBody]; omega)]
    simp [packetBody, Nat.add_comm 7 k]

/-- The header read from a buffer that holds a frame is the frame's header. -/
theorem readHeader_of_holds {f : Frame} {m : Memory} (h : m.Holds 0 f.bytes) :
    readHeader m = f.header := by
  rw [f.bytes_eq, packet] at h
  exact (holds_packetBody (Memory.holds_append.mp h).1).2.1

end PhoneLink
