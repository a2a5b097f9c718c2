import PhoneLink.HeadUnit.Relay

/-!
# What the program remembers

Beside the three statuses the program keeps the park state, the phone's time, two kinds of
flags, and which profiles are connected. Each is overwritten or extended by a few of the
inputs and left alone by all others, so after any run it can be read off the inputs.

## Main definitions

* `HeadUnit.Recalls`: what is kept is what the inputs say

## Main results

* `recalls_run`: it is so in every run
-/

namespace PhoneLink

open CS CS.Transition

/-! ### What the inputs say -/

/-- The time that a command reports. -/
def Command.time? : Command → Option (List UInt8)
  | phoneSystemTime time => some time
  | _ => none

/-- The bit of `phone_protocol_recive_flag` that a command sets. -/
def Command.reciveBit : Command → UInt32
  | phoneInfoResolution _ _ => sppMsgScreenResolutionBit
  | phoneDirection _ => sppMsgScreenDirectionBit
  | phoneDalinkAppState _ => sppMsgDalinkStatusBit
  | dalinkMainmenuStatusState _ => sppMsgDalinkMainMenuStatusBit
  | _ => 0

def Command.isHeartbeat : Command → Bool
  | heartbeat => true
  | _ => false

namespace HeadAction

/-- The park state that the HMI reports. -/
def parkState? : HeadAction → Option UInt8
  | hmi .wmPlinkParkPlay => some parkStatePlay
  | hmi .wmPlinkParkStop => some parkStateStop
  | _ => none

def time? (a : HeadAction) : Option (List UInt8) := a.command?.bind Command.time?

def reciveBit (a : HeadAction) : UInt32 := a.command?.elim 0 Command.reciveBit

def isHeartbeat (a : HeadAction) : Bool := a.command?.any Command.isHeartbeat

/-- The key that the HMI reports pressed. -/
def key? : HeadAction → Option UInt32
  | hmi .wmPlinkHardkeyHomeDown => some hidAttrHome
  | hmi .wmPlinkHardkeyBackDown => some hidAttrBack
  | _ => none

/-- The keyboard reports for a key: pressed and released. -/
def keyBoardData (a : HeadAction) : List BtHidKeyBoardData :=
  a.key?.elim [] fun cKey => [⟨cKey⟩, ⟨0⟩]

/-- Whether an event says that a profile is connected. -/
def connected? (p : Profile) : HeadAction → Option Bool
  | updatePairList checkConnect => some (checkConnect p = 1)
  | _ => none

end HeadAction

namespace HeadUnit

/-- What is kept after the inputs. -/
structure Recalls (acts : List HeadAction) (s : HeadUnit) : Prop where
  parkState_eq : s.parkState = (lastOf HeadAction.parkState? acts).getD parkStateStop
  phoneGpsTime_eq : s.phoneGpsTime = (lastOf HeadAction.time? acts).getD [0, 0, 0, 0]
  heartBeatFlag_eq : s.heartBeatFlag = acts.any HeadAction.isHeartbeat
  phoneProtocolReciveFlag_eq : s.phoneProtocolReciveFlag =
    acts.foldl (fun flag a => flag ||| a.reciveBit) 0
  keyBoardData_eq : s.keyBoardData = acts.flatMap HeadAction.keyBoardData
  connected_eq : ∀ p, s.connection.connected p =
    (lastOf (HeadAction.connected? p) acts).getD false

/-! ### One input -/

variable {s : HeadUnit} {ackTranid : UInt16} {c : Command}

/-- What a handler does to what is kept. -/
theorem kept_handle :
    (s.handle ackTranid c).phoneGpsTime = c.time?.getD s.phoneGpsTime ∧
      (s.handle ackTranid c).heartBeatFlag = (s.heartBeatFlag || c.isHeartbeat) ∧
      (s.handle ackTranid c).phoneProtocolReciveFlag =
        s.phoneProtocolReciveFlag ||| c.reciveBit ∧
      (s.handle ackTranid c).parkState = s.parkState ∧
      (s.handle ackTranid c).keyBoardData = s.keyBoardData ∧
      (s.handle ackTranid c).connection = s.connection := by
  cases c with
  | phoneDalinkAppState state =>
    dsimp only [handle, dalinkSppPhoneDalinkAppStateDispose]
    split_ifs <;> exact ⟨rfl, (Bool.or_false _).symm, rfl, rfl, rfl, rfl⟩
  | dalinkMainmenuStatusState state =>
    dsimp only [handle, dalinkSppMainmenuStateDispose]
    split_ifs <;> exact ⟨rfl, (Bool.or_false _).symm, rfl, rfl, rfl, rfl⟩
  | phoneInfoResolution | phoneDirection =>
    exact ⟨rfl, (Bool.or_false _).symm, rfl, rfl, rfl, rfl⟩
  | siriCmd openOrClose =>
    dsimp only [handle, dalinkSppPhoneSiriCmd]
    split_ifs <;> exact ⟨rfl, (Bool.or_false _).symm, (UInt32.or_zero).symm, rfl, rfl, rfl⟩
  | heartbeat => exact ⟨rfl, (Bool.or_true _).symm, (UInt32.or_zero).symm, rfl, rfl, rfl⟩
  | _ => exact ⟨rfl, (Bool.or_false _).symm, (UInt32.or_zero).symm, rfl, rfl, rfl⟩

/-- What an input does to what is kept. -/
structure Keeps (a : HeadAction) (s t : HeadUnit) : Prop where
  parkState_eq : t.parkState = a.parkState?.getD s.parkState
  phoneGpsTime_eq : t.phoneGpsTime = a.time?.getD s.phoneGpsTime
  heartBeatFlag_eq : t.heartBeatFlag = (s.heartBeatFlag || a.isHeartbeat)
  phoneProtocolReciveFlag_eq : t.phoneProtocolReciveFlag =
    s.phoneProtocolReciveFlag ||| a.reciveBit
  keyBoardData_eq : t.keyBoardData = s.keyBoardData ++ a.keyBoardData
  connected_eq : ∀ p, t.connection.connected p =
    (a.connected? p).getD (s.connection.connected p)

/-- A frame that is not there in full says nothing. -/
theorem keeps_of_none {packetHeader : Memory} {len : ℕ}
    (h : (HeadAction.packet packetHeader len).command? = none) :
    Keeps (.packet packetHeader len) s s where
  parkState_eq := rfl
  phoneGpsTime_eq := by rw [HeadAction.time?, h]; rfl
  heartBeatFlag_eq := by rw [HeadAction.isHeartbeat, h]; exact (Bool.or_false _).symm
  phoneProtocolReciveFlag_eq := by rw [HeadAction.reciveBit, h]; exact UInt32.or_zero.symm
  keyBoardData_eq := (List.append_nil _).symm
  connected_eq _ := rfl

/-- A frame that is there in full says what its command says. -/
theorem keeps_of_some {packetHeader : Memory} {len : ℕ}
    (h : (HeadAction.packet packetHeader len).command? = some c) :
    Keeps (.packet packetHeader len) s (s.step (.packet packetHeader len)) := by
  obtain ⟨hdr, hstep⟩ := step_of_command (s := s) h
  obtain ⟨htime, hheartbeat, hflag, hpark, hkeys, hconnection⟩ :=
    @kept_handle (s.acknowledge hdr) hdr.tranId c
  -- the acknowledgement changes nothing of this
  have hack : (s.acknowledge hdr).phoneGpsTime = s.phoneGpsTime ∧
      (s.acknowledge hdr).heartBeatFlag = s.heartBeatFlag ∧
      (s.acknowledge hdr).phoneProtocolReciveFlag = s.phoneProtocolReciveFlag ∧
      (s.acknowledge hdr).parkState = s.parkState ∧
      (s.acknowledge hdr).keyBoardData = s.keyBoardData ∧
      (s.acknowledge hdr).connection = s.connection := by
    unfold acknowledge
    split_ifs <;> exact ⟨rfl, rfl, rfl, rfl, rfl, rfl⟩
  rw [hstep]
  exact {
    parkState_eq := hpark.trans hack.2.2.2.1
    phoneGpsTime_eq := by rw [htime, hack.1, HeadAction.time?, h]; rfl
    heartBeatFlag_eq := by rw [hheartbeat, hack.2.1, HeadAction.isHeartbeat, h]; rfl
    phoneProtocolReciveFlag_eq := by rw [hflag, hack.2.2.1, HeadAction.reciveBit, h]; rfl
    keyBoardData_eq := by rw [hkeys, hack.2.2.2.2.1]; exact (List.append_nil _).symm
    connected_eq := fun p => by rw [hconnection, hack.2.2.2.2.2]; rfl }

theorem connected_updatePairList (c : PhoneConnection) (m : Mainapp)
    (checkConnect : Profile → ℤ) (p : Profile) :
    (PhoneConnection.updatePairList (c, m) checkConnect).1.connected p =
      decide (checkConnect p = 1) := by
  unfold PhoneConnection.updatePairList
  dsimp only
  rw [(PhoneConnection.updateProfile_eq _ _ _ _).1, (PhoneConnection.updateProfile_eq _ _ _ _).1,
    (PhoneConnection.updateProfile_eq _ _ _ _).1]
  cases p <;> rfl

theorem keeps_step (a : HeadAction) : Keeps a s (s.step a) := by
  cases a with
  | packet packetHeader len =>
    cases h : (HeadAction.packet packetHeader len).command? with
    | none =>
      rw [step_packet_of_none h]
      exact keeps_of_none h
    | some c => exact keeps_of_some h
  | hmi msgType =>
    cases msgType with
    | wmPlinkHardkeyHomeDown | wmPlinkHardkeyBackDown =>
      exact ⟨rfl, rfl, (Bool.or_false _).symm, UInt32.or_zero.symm, rfl, fun _ => rfl⟩
    | _ =>
      exact ⟨rfl, rfl, (Bool.or_false _).symm, UInt32.or_zero.symm, (List.append_nil _).symm,
        fun _ => rfl⟩
  | updatePairList checkConnect =>
    exact ⟨rfl, rfl, (Bool.or_false _).symm, UInt32.or_zero.symm, (List.append_nil _).symm,
      connected_updatePairList _ _ _⟩
  | timer =>
    dsimp only [step]
    split_ifs <;> exact ⟨rfl, rfl, (Bool.or_false _).symm, UInt32.or_zero.symm,
      (List.append_nil _).symm, fun _ => rfl⟩
  | _ =>
    exact ⟨rfl, rfl, (Bool.or_false _).symm, UInt32.or_zero.symm, (List.append_nil _).symm,
      fun _ => rfl⟩

/-- A heartbeat stays remembered. -/
theorem heartBeatFlag_run (s : HeadUnit) (acts : List HeadAction) :
    (run step s acts).heartBeatFlag = (s.heartBeatFlag || acts.any HeadAction.isHeartbeat) := by
  induction acts generalizing s with
  | nil => exact (Bool.or_false _).symm
  | cons a acts ih =>
    rw [run_cons, ih, (keeps_step a).heartBeatFlag_eq, List.any_cons, Bool.or_assoc]

end HeadUnit

/-- **What is remembered.** After every run the park state is that of the HMI's last message
about it, the time that of the phone's last report, the heartbeat flag says whether a heartbeat
has come, the receive flag has the bits of all reports, the keyboard reports are one press
and one release for every key, and a profile is connected if the last event said so. -/
theorem recalls_run (env : Environment) (acts : List HeadAction) :
    HeadUnit.Recalls acts (run HeadUnit.step (.start env) acts) where
  parkState_eq := run_getD_lastOf HeadUnit.parkState (fun s a => (s.keeps_step a).parkState_eq) _ _
  phoneGpsTime_eq :=
    run_getD_lastOf HeadUnit.phoneGpsTime (fun s a => (s.keeps_step a).phoneGpsTime_eq) _ _
  heartBeatFlag_eq := HeadUnit.heartBeatFlag_run _ acts
  phoneProtocolReciveFlag_eq := (List.foldl_hom HeadUnit.phoneProtocolReciveFlag
    fun s a => (s.keeps_step a).phoneProtocolReciveFlag_eq.symm).symm
  keyBoardData_eq :=
    run_append_flatMap HeadUnit.keyBoardData (fun s a => (s.keeps_step a).keyBoardData_eq) _ _
  connected_eq p := run_getD_lastOf (fun s : HeadUnit => s.connection.connected p)
    (fun s a => (s.keeps_step a).connected_eq p) _ _

end PhoneLink
