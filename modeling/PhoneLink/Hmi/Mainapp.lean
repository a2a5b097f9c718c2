import Mathlib.Data.Set.Basic

/-!
# Messages to the HMI

The program writes messages of one type and a few bytes of content to the HMI's
socket. `send_data_to_mainapp` refuses while Miracast is not connected, and the write
may fail; no sender looks at the result.

## Main definitions

* `Mainapp`: the Miracast status, the socket and what was written to it
* `Mainapp.sendDataToMainapp`: the one place of a write
* `Mainapp.Delivers`: the coming message would be written

## Main results

* `sendDataToMainapp_fst`, `written_sendDataToMainapp`: the result says whether the
  message was written, and nothing else is written
-/

namespace PhoneLink

/-- The types of `PL_MsgType_t` that are sent or dealt with; `other` is any other. -/
inductive PlMsgType
  | wmPlinkParkPlay
  | wmPlinkParkStop
  | wmPlinkParkReq
  | wmPlinkConnectStatusReq
  | wmPlinkConnectStatus
  | wmPlinkMiracastConnect
  | wmPlinkMiracastDisconnect
  | wmPlinkScreenDirection
  | wmPlinkScreenDirectionReq
  | wmPlinkScreenDirectionSet
  | wmPlinkHardkeyHomeDown
  | wmPlinkHardkeyBackDown
  | wmPlinkDalinkStatus
  | wmPlinkDalinkStatusReq
  | wmPlinkStartDalink
  | wmPlinkPhoneTimeReq
  | wmPlinkPhoneTime
  | wmPlinkPhoneSiriReq
  | wmPlinkDalinkMainmenuStatus
  | wmPlinkDalinkMainmenuStatusReq
  | other
  deriving DecidableEq, Repr

/-- A message to the HMI. The bytes of `MsgBuf` behind those given are zero. -/
structure MainappMsg where
  msgType : PlMsgType
  msgBuf : List UInt8
  deriving DecidableEq, Repr

/-- `sizeof(PL_MsgInfo_t)`, what a successful write returns. -/
abbrev sizeofMainappMsg : ℤ := 260

inductive PlMiracastConnectStatus
  | miracastUnconnect
  | miracastConnected
  | miracastNull
  deriving DecidableEq, Repr

/-- The connection to the HMI's main application. -/
structure Mainapp where
  plMiracastStatus : PlMiracastConnectStatus
  /-- Whether the coming calls of `write` succeed, in order. -/
  writeResults : ℕ → Bool
  /-- History: the messages written. -/
  written : List MainappMsg

namespace Mainapp

/-- Program start, for any behaviour of the socket. -/
def start (writeResults : ℕ → Bool) : Mainapp := ⟨.miracastUnconnect, writeResults, []⟩

def setMiracastStatus (status : PlMiracastConnectStatus) (m : Mainapp) : Mainapp :=
  { m with plMiracastStatus := status }

/-- Write one message: the result and the connection afterwards. -/
def sendDataToMainapp (msg : MainappMsg) (m : Mainapp) : ℤ × Mainapp :=
  if m.plMiracastStatus = .miracastUnconnect then (-1, m)
  else
    let rest := { m with writeResults := fun n => m.writeResults (n + 1) }
    if m.writeResults 0 then (sizeofMainappMsg, { rest with written := m.written ++ [msg] })
    else (-1, rest)

/-- Miracast is connected and the coming write succeeds. -/
def Delivers (m : Mainapp) : Prop :=
  m.plMiracastStatus ≠ .miracastUnconnect ∧ m.writeResults 0 = true

instance (m : Mainapp) : Decidable m.Delivers := inferInstanceAs (Decidable (_ ∧ _))

variable {m : Mainapp} {msg : MainappMsg}

theorem sendDataToMainapp_of_delivers (h : m.Delivers) :
    m.sendDataToMainapp msg = (sizeofMainappMsg,
      { m with
        writeResults := fun n => m.writeResults (n + 1)
        written := m.written ++ [msg] }) := by
  unfold sendDataToMainapp
  rw [if_neg h.1, if_pos h.2]

/-- A message that is not written leaves the log as it is. -/
theorem written_of_not_delivers (h : ¬ m.Delivers) :
    (m.sendDataToMainapp msg).1 = -1 ∧ (m.sendDataToMainapp msg).2.written = m.written := by
  unfold sendDataToMainapp
  by_cases hconnected : m.plMiracastStatus = .miracastUnconnect
  · rw [if_pos hconnected]
    exact ⟨rfl, rfl⟩
  · rw [if_neg hconnected, if_neg fun hwrite => h ⟨hconnected, hwrite⟩]
    exact ⟨rfl, rfl⟩

/-- The result tells whether the message was written. -/
theorem sendDataToMainapp_fst :
    (m.sendDataToMainapp msg).1 = if m.Delivers then sizeofMainappMsg else -1 := by
  split_ifs with h
  · rw [sendDataToMainapp_of_delivers h]
  · exact (written_of_not_delivers h).1

theorem written_sendDataToMainapp :
    (m.sendDataToMainapp msg).2.written =
      if m.Delivers then m.written ++ [msg] else m.written := by
  split_ifs with h
  · rw [sendDataToMainapp_of_delivers h]
  · exact (written_of_not_delivers h).2

def sendParkStateReq : Mainapp → ℤ × Mainapp := sendDataToMainapp ⟨.wmPlinkParkReq, []⟩

end Mainapp

end PhoneLink
