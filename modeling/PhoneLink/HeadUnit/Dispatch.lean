import PhoneLink.Bluetooth.ConnectStatus
import PhoneLink.Touch.Pointer

/-!
# Dispatch of a received frame

`dalink_spp_packet_deal` acknowledges a frame if its D flag asks for it, and then does
what its command asks for, which for some commands depends on the first bytes of the
payload. The `switch` is modelled in two parts: what a frame asks for, and what is done
about it.

## Main definitions

* `Command`, `commandOf`: the branches of the nested `switch`
* `HeadUnit`: the state of the program
* `HeadUnit.handle`: the handlers
* `HeadUnit.dalinkSppPacketDeal`

## Main results

* `touch_handle`, `reporter_handle`, `spp_handle`: what the handlers do to the touch
  parameters, to the statuses and messages to the HMI, and to what is sent to the phone
-/

namespace PhoneLink

open CS

/-! ### What a frame asks for -/

abbrev btSppMessagePlayloadStartIndex : ℕ := 0x07

def btSppMessageDlHuPhoneinfo : UInt8 := 0x37
def btSppMessageDlHuPhonestate : UInt8 := 0x39
def btSppMessageDlHuRequestparkstate : UInt8 := 0x3B
def btSppMessageDlHuStartAndroidApp : UInt8 := 0x41

def btSppMessagePhoneInfoResolution : UInt8 := 0x00

def btSppMessagePhoneDirection : UInt8 := 0x00
def btSppMessagePhoneDalinkAppState : UInt8 := 0x02
def btSppMessageDalinkMainmenuStatusState : UInt8 := 0x06
def btSppMessagePhoneSystemTime : UInt8 := 0x0B

/-- The branches of the `switch` over a frame's command and the first bytes of its
payload. -/
inductive Command
  | ack (commandId : UInt8)
  | heartbeat
  | phoneInfoResolution (ratioWidth ratioHeight : ℕ)
  | phoneDirection (dirction : UInt8)
  | phoneDalinkAppState (state : UInt8)
  | dalinkMainmenuStatusState (state : UInt8)
  | phoneSystemTime (time : List UInt8)
  | requestparkstate
  | startAndroidApp
  | siriFeedback (openOrCloseStatus successOrFalse : UInt8)
  | siriCmd (openOrClose : UInt8)
  | other
  deriving DecidableEq, Repr

/-- Two bytes of a payload as a number, the higher one first. -/
def ratioAt (buf : Memory) (i : ℕ) : ℕ := (buf i).toNat <<< 8 ||| (buf (i + 1)).toNat

/-- What the frame at `packetHeader` asks for. -/
def commandOf (packetHeader : Memory) : Command :=
  let cmd := packetHeader btSppMessageCmdTypeIndex
  let payload := packetHeader.shift btSppMessagePlayloadStartIndex
  if cmd = btSppMessageDlHuAck then .ack (payload 0)
  else if cmd = btSppMessageDlHuHeartbeat then .heartbeat
  else if cmd = btSppMessageDlHuPhoneinfo then
    if payload 0 = btSppMessagePhoneInfoResolution then
      .phoneInfoResolution (ratioAt payload 1) (ratioAt payload 3)
    else .other
  else if cmd = btSppMessageDlHuPhonestate then
    if payload 0 = btSppMessagePhoneDirection then .phoneDirection (payload 1)
    else if payload 0 = btSppMessagePhoneDalinkAppState then .phoneDalinkAppState (payload 1)
    else if payload 0 = btSppMessageDalinkMainmenuStatusState then
      .dalinkMainmenuStatusState (payload 1)
    else if payload 0 = btSppMessagePhoneSystemTime then .phoneSystemTime (payload.read 1 4)
    else .other
  else if cmd = btSppMessageDlHuRequestparkstate then .requestparkstate
  else if cmd = btSppMessageDlHuStartAndroidApp then .startAndroidApp
  else if cmd = btSppMessageDlHuSiri then
    if payload 0 = btSppMessageSiriFeedback then .siriFeedback (payload 1) (payload 2)
    else if payload 0 = btSppMessageSiriCmd then .siriCmd (payload 1)
    else .other
  else .other

/-! ### The program's state -/

/-- `BTHidKeyBoardData`; no auxiliary key is ever reported. -/
structure BtHidKeyBoardData where
  cKey : UInt32
  deriving DecidableEq, Repr

/-- What the program runs in. -/
structure Environment where
  arithmetic : FloatArithmetic
  /-- When which ACK is posted. -/
  arrivals : List (ℕ × BtSppDalinkAck)
  /-- Which of the writes to the HMI succeed. -/
  writeResults : ℕ → Bool

/-- No ACK comes, and every write succeeds. -/
def Environment.quiet (arithmetic : FloatArithmetic) : Environment :=
  ⟨arithmetic, [], fun _ => true⟩

structure HeadUnit where
  spp : SppSender
  reporter : StatusReporter
  touch : TouchScreen
  connection : PhoneConnection
  heartBeatFlag : Bool
  phoneProtocolReciveFlag : UInt32
  /-- The four bytes of `phone_gps_time`. -/
  phoneGpsTime : List UInt8
  parkState : UInt8
  /-- History: the reports given to `sendSpecificKeyBoardData`. -/
  keyBoardData : List BtHidKeyBoardData

def parkStateStop : UInt8 := 0x00
def parkStatePlay : UInt8 := 0x01

def sppMsgDalinkStatusBit : UInt32 := 0x01
def sppMsgDalinkMainMenuStatusBit : UInt32 := 0x04
def sppMsgScreenDirectionBit : UInt32 := 0x08
def sppMsgScreenResolutionBit : UInt32 := 0x10

def openSiri : UInt8 := 0x00
def closeSiri : UInt8 := 0x01
def openSiriSuccess : UInt8 := 0x01
def closeSiriSuccess : UInt8 := 0x01

/-- `sendPhoneGpsTime`. -/
def Mainapp.sendPhoneGpsTime (time : List UInt8) : Mainapp → ℤ × Mainapp :=
  sendDataToMainapp ⟨.wmPlinkPhoneTime, time⟩

/-- The status a direction of the phone is reported as. -/
def directionStatus (dirction : UInt8) : UInt8 :=
  if dirction = 1 ∨ dirction = 3 then hmiSendPhoneHorizontalCmd else hmiSendPhoneVerticalCmd

namespace HeadUnit

/-- After `init_phone_link`. -/
def start (env : Environment) : HeadUnit where
  spp := .start env.arrivals
  reporter := .start env.writeResults
  touch := .start env.arithmetic
  connection := .start
  heartBeatFlag := false
  phoneProtocolReciveFlag := 0
  phoneGpsTime := [0, 0, 0, 0]
  parkState := parkStateStop
  keyBoardData := []

def sendPacket (r : Request) (s : HeadUnit) : HeadUnit :=
  { s with spp := (s.spp.plDalinkSendPacket r).2 }

/-- Pass a status on if it differs from the remembered one. -/
def report (kind : StatusKind) (value : UInt8) (s : HeadUnit) : HeadUnit :=
  { s with reporter := s.reporter.report kind value }

/-- Send a message to the HMI, whatever comes of it. -/
def sendToMainapp (send : Mainapp → ℤ × Mainapp) (s : HeadUnit) : HeadUnit :=
  { s with reporter := { s.reporter with mainapp := (send s.reporter.mainapp).2 } }

/-! ### The handlers -/

def dalinkSppResolutionDataDispose (ratioWidth ratioHeight : ℕ) (s : HeadUnit) : HeadUnit :=
  { s with
    phoneProtocolReciveFlag := s.phoneProtocolReciveFlag ||| sppMsgScreenResolutionBit
    touch := s.touch.resolve ratioWidth ratioHeight }

def dalinkSppPhoneDirctionDataDispose (dirction : UInt8) (s : HeadUnit) : HeadUnit :=
  let s := { s with
    phoneProtocolReciveFlag := s.phoneProtocolReciveFlag ||| sppMsgScreenDirectionBit
    touch := s.touch.direct dirction }
  s.report .screenDirection (directionStatus dirction)

def dalinkSppPhoneDalinkAppStateDispose (state : UInt8) (s : HeadUnit) : HeadUnit :=
  let s := { s with
    phoneProtocolReciveFlag := s.phoneProtocolReciveFlag ||| sppMsgDalinkStatusBit
    touch := s.touch.setAppState state }
  if state = 0 then s.report .dalink dalinkForground
  else if state = 1 then s.report .dalink dalinkBackground
  else s

def dalinkSppMainmenuStateDispose (state : UInt8) (s : HeadUnit) : HeadUnit :=
  let s := { s with
    phoneProtocolReciveFlag := s.phoneProtocolReciveFlag ||| sppMsgDalinkMainMenuStatusBit }
  if state = 0 then s.report .dalinkMainmenu dalinkMainMenuForground
  else s.report .dalinkMainmenu dalinkMainMenuBackground

def dalinkSppPhoneRequestParkState (s : HeadUnit) : HeadUnit :=
  s.sendToMainapp Mainapp.sendParkStateReq

/-- All branches of the source are empty. -/
def dalinkSppPhoneSiriFeedback (_openOrCloseStatus _successOrFalse : UInt8) (s : HeadUnit) :
    HeadUnit := s

def dalinkSppPhoneSiriCmd (openOrClose : UInt8) (s : HeadUnit) : HeadUnit :=
  if openOrClose = openSiri then s.sendPacket (.siriFeedback openSiri openSiriSuccess)
  else if openOrClose = closeSiri then s.sendPacket (.siriFeedback closeSiri closeSiriSuccess)
  else s

/-- The `switch` of `dalink_spp_packet_deal`. -/
def handle (ackTranid : UInt16) (s : HeadUnit) : Command → HeadUnit
  | .ack commandId => { s with spp := s.spp.postBtSppAckWaitSem commandId ackTranid }
  | .heartbeat => { s with heartBeatFlag := true }
  | .phoneInfoResolution ratioWidth ratioHeight =>
    s.dalinkSppResolutionDataDispose ratioWidth ratioHeight
  | .phoneDirection dirction => s.dalinkSppPhoneDirctionDataDispose dirction
  | .phoneDalinkAppState state => s.dalinkSppPhoneDalinkAppStateDispose state
  | .dalinkMainmenuStatusState state => s.dalinkSppMainmenuStateDispose state
  | .phoneSystemTime time =>
    { s with phoneGpsTime := time }.sendToMainapp (Mainapp.sendPhoneGpsTime time)
  | .requestparkstate => s.dalinkSppPhoneRequestParkState
  | .startAndroidApp => s
  | .siriFeedback openOrCloseStatus successOrFalse =>
    s.dalinkSppPhoneSiriFeedback openOrCloseStatus successOrFalse
  | .siriCmd openOrClose => s.dalinkSppPhoneSiriCmd openOrClose
  | .other => s

/-- The acknowledgement that comes before the `switch`. -/
def acknowledge (hdr : Header) (s : HeadUnit) : HeadUnit :=
  if hdr.dFlag = 1 then s.sendPacket (.ack hdr.tranId hdr.cmdId) else s

/-- Deal with the frame at `packetHeader`. `len` is the length of the whole event. -/
def dalinkSppPacketDeal (s : HeadUnit) (packetHeader : Memory) (len : ℕ) : HeadUnit :=
  if len < (packetHeader btSppMessageLengthIndex).toNat + btSppMessagePacketLenExceptPlayload
  then s
  else
    let hdr := readHeader packetHeader
    (s.acknowledge hdr).handle hdr.tranId (commandOf packetHeader)

end HeadUnit

/-! ### What the handlers do, part by part -/

namespace Command

/-- What a command does to the touch parameters. -/
def onTouch : Command → TouchScreen → TouchScreen
  | phoneInfoResolution ratioWidth ratioHeight => .resolve ratioWidth ratioHeight
  | phoneDirection dirction => .direct dirction
  | phoneDalinkAppState state => .setAppState state
  | _ => id

/-- The status that a command reports. -/
def status? : Command → Option (StatusKind × UInt8)
  | phoneDirection dirction => some (.screenDirection, directionStatus dirction)
  | phoneDalinkAppState state =>
    if state = 0 then some (.dalink, dalinkForground)
    else if state = 1 then some (.dalink, dalinkBackground)
    else none
  | dalinkMainmenuStatusState state =>
    some (.dalinkMainmenu,
      if state = 0 then dalinkMainMenuForground else dalinkMainMenuBackground)
  | _ => none

/-- The other message to the HMI that a command brings about. -/
def message? : Command → Option MainappMsg
  | phoneSystemTime time => some ⟨.wmPlinkPhoneTime, time⟩
  | requestparkstate => some ⟨.wmPlinkParkReq, []⟩
  | _ => none

/-- What a command does to the remembered statuses and the connection to the HMI. -/
def onReporter (c : Command) (r : StatusReporter) : StatusReporter :=
  match c.status?, c.message? with
  | some (kind, value), _ => r.report kind value
  | none, some msg => { r with mainapp := (r.mainapp.sendDataToMainapp msg).2 }
  | none, none => r

/-- What a command, behind the acknowledgement, posts and sends to the phone. -/
def onSpp (ackTranid : UInt16) : Command → SppSender → SppSender
  | ack commandId => .postBtSppAckWaitSem commandId ackTranid
  | siriCmd openOrClose => fun spp =>
    if openOrClose = openSiri then
      (spp.plDalinkSendPacket (.siriFeedback openSiri openSiriSuccess)).2
    else if openOrClose = closeSiri then
      (spp.plDalinkSendPacket (.siriFeedback closeSiri closeSiriSuccess)).2
    else spp
  | _ => id

end Command

namespace HeadUnit

variable {s : HeadUnit} {ackTranid : UInt16} {c : Command}

/-- A handler does to each part what the part's own function says. -/
theorem handle_parts : (s.handle ackTranid c).touch = c.onTouch s.touch ∧
    (s.handle ackTranid c).reporter = c.onReporter s.reporter ∧
      (s.handle ackTranid c).spp = c.onSpp ackTranid s.spp := by
  cases c with
  | phoneDalinkAppState state =>
    dsimp only [handle, dalinkSppPhoneDalinkAppStateDispose, Command.onReporter, Command.status?]
    split_ifs <;> exact ⟨rfl, rfl, rfl⟩
  | dalinkMainmenuStatusState state =>
    dsimp only [handle, dalinkSppMainmenuStateDispose, Command.onReporter, Command.status?]
    split_ifs <;> exact ⟨rfl, rfl, rfl⟩
  | siriCmd openOrClose =>
    dsimp only [handle, dalinkSppPhoneSiriCmd, Command.onSpp]
    split_ifs <;> exact ⟨rfl, rfl, rfl⟩
  | _ => exact ⟨rfl, rfl, rfl⟩

@[simp] theorem touch_handle : (s.handle ackTranid c).touch = c.onTouch s.touch := handle_parts.1

@[simp] theorem reporter_handle : (s.handle ackTranid c).reporter = c.onReporter s.reporter :=
  handle_parts.2.1

@[simp] theorem spp_handle : (s.handle ackTranid c).spp = c.onSpp ackTranid s.spp :=
  handle_parts.2.2

@[simp] theorem touch_acknowledge (hdr : Header) : (s.acknowledge hdr).touch = s.touch := by
  unfold acknowledge
  split_ifs <;> rfl

@[simp] theorem reporter_acknowledge (hdr : Header) :
    (s.acknowledge hdr).reporter = s.reporter := by
  unfold acknowledge
  split_ifs <;> rfl

theorem spp_acknowledge (hdr : Header) :
    (s.acknowledge hdr).spp = if hdr.dFlag = 1 then
      (s.spp.plDalinkSendPacket (.ack hdr.tranId hdr.cmdId)).2 else s.spp := by
  unfold acknowledge
  split_ifs <;> rfl

end HeadUnit

end PhoneLink
