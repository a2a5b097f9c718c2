import PhoneLink.CS.Run
import PhoneLink.HeadUnit.Dispatch

/-!
# The head unit

What reaches the program from outside, one thing at a time: a frame of the phone, a
message or a touch from the HMI, an event about the paired devices, and the timer of
`main`. Every step is a function of the state, so a run is a fold over these actions.

## Main definitions

* `HeadUnit.dealWithHmiData`: the messages of the HMI
* `HeadAction`, `HeadUnit.step`

## Main results

* `step_of_command`: a frame that is there in full is acknowledged and handled
* `touch_step`, `reporter_step`: what its command does to the touch parameters, and to
  the statuses and messages to the HMI
* `sameGeometry_step`, `status_step`: what every other step leaves alone
-/

namespace PhoneLink

open CS CS.Transition

def hidAttrBack : UInt32 := 0x01
def hidAttrHome : UInt32 := 0x02

namespace HeadUnit

/-- Press a key and release it. -/
def pressKey (cKey : UInt32) (s : HeadUnit) : HeadUnit :=
  { s with keyBoardData := s.keyBoardData ++ [⟨cKey⟩, ⟨0⟩] }

def setMiracastStatus (status : PlMiracastConnectStatus) (s : HeadUnit) : HeadUnit :=
  { s with reporter.mainapp := s.reporter.mainapp.setMiracastStatus status }

/-- One message of the HMI. -/
def dealWithHmiData (s : HeadUnit) : PlMsgType → HeadUnit
  | .wmPlinkParkPlay => { s with parkState := parkStatePlay }.sendPacket (.parkinfo parkStatePlay)
  | .wmPlinkParkStop => { s with parkState := parkStateStop }.sendPacket (.parkinfo parkStateStop)
  | .wmPlinkStartDalink => { s with spp := s.spp.sendCreated .startApp }
  | .wmPlinkConnectStatusReq =>
    -- answered here, for every status
    s.sendToMainapp (Mainapp.sendConnectStautus s.connection.gPhoneConnectedStatus)
  | .wmPlinkDalinkStatusReq => s.sendPacket (.requestPhonestate btSppMessagePhoneDalinkAppState)
  | .wmPlinkDalinkMainmenuStatusReq =>
    s.sendPacket (.requestPhonestate btSppMessageDalinkMainmenuStatusState)
  | .wmPlinkPhoneTimeReq => s.sendPacket (.requestPhonestate btSppMessagePhoneSystemTime)
  | .wmPlinkPhoneSiriReq => s.sendPacket (.siri openSiri)
  | .wmPlinkScreenDirectionReq => s.sendPacket (.requestPhonestate btSppMessagePhoneDirection)
  | .wmPlinkScreenDirectionSet => s
  | .wmPlinkHardkeyHomeDown => s.pressKey hidAttrHome
  | .wmPlinkHardkeyBackDown => s.pressKey hidAttrBack
  | .wmPlinkMiracastConnect => s.setMiracastStatus .miracastConnected
  | .wmPlinkMiracastDisconnect => s.setMiracastStatus .miracastUnconnect
  | .wmPlinkParkReq | .wmPlinkConnectStatus | .wmPlinkScreenDirection | .wmPlinkDalinkStatus
  | .wmPlinkPhoneTime | .wmPlinkDalinkMainmenuStatus | .other => s

end HeadUnit

/-- What reaches the program. -/
inductive HeadAction
  /-- `phone_app_msg_deal` has found a frame in an event of `len` bytes. -/
  | packet (packetHeader : Memory) (len : ℕ)
  /-- `deal_with_hmi_data_thread` has read a message. -/
  | hmi (msgType : PlMsgType)
  /-- `proc_touch_info` is called; with what the clock reads before and after a move. -/
  | touch (x y : ℤ) (action : UInt8) (tick tickAfter : UInt32)
  /-- `proc_double_touch_info` is called. -/
  | doubleTouch (x y : ℤ) (action : UInt8) (x1 y1 : ℤ) (action1 : UInt8) (tick tickAfter : UInt32)
  /-- `BT_MSG_UPDATE_PAIR_LIST`, with the answers of `check_Connect`. -/
  | updatePairList (checkConnect : Profile → ℤ)
  /-- `main` wakes up. -/
  | timer

namespace HeadUnit

def step (s : HeadUnit) : HeadAction → HeadUnit
  | .packet packetHeader len => s.dalinkSppPacketDeal packetHeader len
  | .hmi msgType => s.dealWithHmiData msgType
  | .touch x y action tick tickAfter =>
    { s with touch := s.touch.procTouchInfo x y action tick tickAfter }
  | .doubleTouch x y action x1 y1 action1 tick tickAfter =>
    let done := s.touch.procDoubleTouchInfo x y action x1 y1 action1 tick tickAfter s.spp
    { s with touch := done.1, spp := done.2 }
  | .updatePairList checkConnect =>
    let done := PhoneConnection.updatePairList (s.connection, s.reporter.mainapp) checkConnect
    { s with connection := done.1, reporter.mainapp := done.2 }
  | .timer => if s.connection.connected .spp then s.sendPacket .heartbeat else s

end HeadUnit

/-! ### Steps with and without a command -/

namespace HeadAction

/-- The command of a frame that is there in full. -/
def command? : HeadAction → Option Command
  | packet packetHeader len =>
    if len < (packetHeader btSppMessageLengthIndex).toNat + btSppMessagePacketLenExceptPlayload
    then none
    else some (commandOf packetHeader)
  | _ => none

/-- An event of one frame. -/
def event (f : Frame) : HeadAction := .packet (.overlay f.bytes .zero) f.bytes.length

/-- An event of one frame that reports a state of the phone. -/
def phonestate (phoneStateClass value : UInt8) : HeadAction :=
  event (.short btSppMessageDlHuPhonestate 0 dFlagNoNeedAck [phoneStateClass, value]
    (Eq.refl true))

/-- An event of one frame that reports the phone's resolution. -/
def resolution (ratioWidth ratioHeight : UInt16) : HeadAction :=
  event (.short btSppMessageDlHuPhoneinfo 0 dFlagNoNeedAck
    [btSppMessagePhoneInfoResolution, (ratioWidth >>> 8).toUInt8, ratioWidth.toUInt8,
      (ratioHeight >>> 8).toUInt8, ratioHeight.toUInt8] rfl)

end HeadAction

/-- The commands of a run, in order. -/
def commands (acts : List HeadAction) : List Command := acts.filterMap HeadAction.command?

section Commands

variable {acts : List HeadAction} {a : HeadAction} {c : Command}

theorem commands_concat_of_none (h : a.command? = none) :
    commands (acts ++ [a]) = commands acts :=
  filterMap_concat_of_none h

theorem commands_concat_of_some (h : a.command? = some c) :
    commands (acts ++ [a]) = commands acts ++ [c] :=
  filterMap_concat_of_some h

end Commands

namespace HeadUnit

variable {s : HeadUnit} {a : HeadAction} {c : Command}

/-- A frame that is there in full is acknowledged and handled. -/
theorem step_of_command (h : a.command? = some c) :
    ∃ hdr : Header, s.step a = (s.acknowledge hdr).handle hdr.tranId c := by
  cases a with
  | packet packetHeader len =>
    dsimp only [HeadAction.command?] at h
    split_ifs at h with hlen
    obtain rfl := Option.some.inj h
    exact ⟨readHeader packetHeader, if_neg hlen⟩
  | _ => cases h

theorem touch_step (h : a.command? = some c) : (s.step a).touch = c.onTouch s.touch := by
  obtain ⟨hdr, hstep⟩ := step_of_command h
  rw [hstep, touch_handle, touch_acknowledge]

theorem reporter_step (h : a.command? = some c) :
    (s.step a).reporter = c.onReporter s.reporter := by
  obtain ⟨hdr, hstep⟩ := step_of_command h
  rw [hstep, reporter_handle, reporter_acknowledge]

/-- A frame that is not there in full is dropped. -/
theorem step_packet_of_none {packetHeader : Memory} {len : ℕ}
    (h : (HeadAction.packet packetHeader len).command? = none) :
    s.step (.packet packetHeader len) = s := by
  dsimp only [HeadAction.command?] at h
  split_ifs at h with hlen
  exact if_pos hlen

@[simp] theorem touch_dealWithHmiData (msgType : PlMsgType) :
    (s.dealWithHmiData msgType).touch = s.touch := by
  cases msgType <;> rfl

@[simp] theorem status_dealWithHmiData (msgType : PlMsgType) :
    (s.dealWithHmiData msgType).reporter.status = s.reporter.status := by
  cases msgType <;> rfl

/-- Without a command display mode and geometry stay. -/
theorem sameGeometry_step (h : a.command? = none) : s.touch.SameGeometry (s.step a).touch := by
  cases a with
  | packet packetHeader len =>
    rw [step_packet_of_none h]
    exact ⟨rfl, rfl, rfl, rfl⟩
  | hmi msgType =>
    rw [step, touch_dealWithHmiData]
    exact ⟨rfl, rfl, rfl, rfl⟩
  | touch x y action tick tickAfter => exact TouchScreen.sameGeometry_procTouchInfo
  | doubleTouch x y action x1 y1 action1 tick tickAfter =>
    exact TouchScreen.sameGeometry_procDoubleTouchInfo
  | updatePairList checkConnect => exact ⟨rfl, rfl, rfl, rfl⟩
  | timer =>
    dsimp only [step]
    split_ifs <;> exact ⟨rfl, rfl, rfl, rfl⟩

/-- Without a command the remembered statuses stay. -/
theorem status_step (h : a.command? = none) :
    (s.step a).reporter.status = s.reporter.status := by
  cases a with
  | packet packetHeader len => rw [step_packet_of_none h]
  | hmi msgType => exact status_dealWithHmiData msgType
  | timer =>
    dsimp only [step]
    split_ifs <;> rfl
  | _ => rfl

end HeadUnit

end PhoneLink
