import PhoneLink.CS.Memory
import PhoneLink.CS.Run
import PhoneLink.CS.SemQueue

/-!
# The Bluetooth event queue

The Bluetooth client's callback stores the events it lets through in ten slots
and posts a semaphore; the Bluetooth message thread waits on it and copies the
event at the read point out. Neither side compares the two points. Both copies
move only the eight bytes before the data and the `nDataLen` bytes of it, so a
slot and the consumer's buffer keep stale bytes behind.

## Main results

* `BtCsMsg.content_copyTo`: a partial copy carries the whole content
* `btEventQueue_fifo`: what `wait_bt_command` returns is a prefix of what the
  callback queued, along every run that writes an event only while fewer than
  ten are waiting
-/

namespace PhoneLink

open CS CS.Transition

/-! ### Events -/

abbrev btMsgDataLen : ℕ := 512

/-- `PHONE_TYPE`. -/
inductive PhoneType
  | btConnectNullPhone
  | btConnectAndroid
  | btConnectIphone
  deriving DecidableEq, Repr

def btMsgHidState : ℤ := 0x0B
def btMsgSppState : ℤ := 0x0E
def btMsgSppReviceData : ℤ := 0x10
def btMsgHardKey : ℤ := 0x11
def btMsgUpdatePairList : ℤ := 0x10002
def btMsgDevManuFactorer : ℤ := 0x10020
def btMsgVoiceDialActive : ℤ := 0x1002E
def btMsgVoiceDialTerminated : ℤ := 0x10030

/-- `BTCSMSG`. The data length fits the data array. -/
structure BtCsMsg where
  eEventType : ℤ
  nDataLen : ℕ
  szData : Memory
  nDataLen_le : nDataLen ≤ btMsgDataLen

/-- What a receiver of a message looks at. -/
structure EventContent where
  eEventType : ℤ
  nDataLen : ℕ
  data : List UInt8
  deriving DecidableEq, Repr

namespace BtCsMsg

/-- A zeroed message. -/
def zero : BtCsMsg := ⟨0, 0, .zero, by decide⟩

/-- `memcpy(dst, pMsg, pMsg->nDataLen + 8)`: type, length and that much data. -/
def copyTo (pMsg dst : BtCsMsg) : BtCsMsg :=
  { pMsg with szData := dst.szData.copy 0 pMsg.szData pMsg.nDataLen }

/-- Type, length and the first `nDataLen` bytes of data. -/
def content (pMsg : BtCsMsg) : EventContent :=
  ⟨pMsg.eEventType, pMsg.nDataLen, pMsg.szData.read 0 pMsg.nDataLen⟩

/-- Whatever the destination held before, the copy has the content of its source. -/
@[simp] theorem content_copyTo (pMsg dst : BtCsMsg) : (pMsg.copyTo dst).content = pMsg.content := by
  simp [copyTo, content]

end BtCsMsg

/-! ### The callback and its consumer -/

/-- The event types `Bluetooth_spp_data_proc` writes to the queue. -/
def writesSemData (gBtPhoneType : PhoneType) (eEventType : ℤ) : Bool :=
  if eEventType = btMsgSppReviceData then gBtPhoneType ≠ .btConnectIphone
  else eEventType ∈ [btMsgSppState, btMsgHidState, btMsgUpdatePairList, btMsgDevManuFactorer,
    btMsgHardKey, btMsgVoiceDialActive, btMsgVoiceDialTerminated]

abbrev phonestateSemDataLen : ℕ := 10

/-- The slots with their points and semaphore, the consumer's buffer, and the
contents that `wait_bt_command` has returned. -/
structure EventLink where
  gBtPhoneType : PhoneType
  phonestateSem : SemQueue BtCsMsg EventContent
  btMsg : BtCsMsg
  returned : List EventContent

inductive EventAction
  /-- The callback, up to its `sem_post`. -/
  | bluetoothSppDataProc (pMsg : BtCsMsg)
  /-- Its `sem_post`. -/
  | semPost
  | setPhoneType (var : PhoneType)
  /-- The wait of `wait_bt_command` succeeds. -/
  | waitBtResponse
  /-- `wait_bt_command` copies the message and moves the read point. -/
  | waitBtCommand

def EventLink.step (s : EventLink) : EventAction → Option EventLink
  | .bluetoothSppDataProc pMsg =>
    if writesSemData s.gBtPhoneType pMsg.eEventType then
      (s.phonestateSem.put phonestateSemDataLen pMsg.copyTo pMsg.content).map fun q =>
        { s with phonestateSem := q }
    -- the callback is not entered again before it has returned
    else if s.phonestateSem.posting then none
    else some s
  | .semPost => s.phonestateSem.post.map fun q => { s with phonestateSem := q }
  | .setPhoneType var => some { s with gBtPhoneType := var }
  | .waitBtResponse => s.phonestateSem.wait.map fun q => { s with phonestateSem := q }
  | .waitBtCommand =>
    (s.phonestateSem.take phonestateSemDataLen BtCsMsg.content).map fun q =>
      -- again a partial copy, over what the last event left in the buffer
      let btMsg := s.phonestateSem.buffer.front.copyTo s.btMsg
      { s with phonestateSem := q, btMsg := btMsg, returned := s.returned ++ [btMsg.content] }

/-- Program start. -/
def eventStart : EventLink := ⟨.btConnectAndroid, .start (.clear .zero), .zero, []⟩

/-- An event is written only while fewer than ten are queued and not yet returned. -/
def fewerThanTenQueued (s : EventLink) : EventAction → Prop
  | .bluetoothSppDataProc pMsg =>
    writesSemData s.gBtPhoneType pMsg.eEventType → s.phonestateSem.backlog < phonestateSemDataLen
  | _ => True

instance : ∀ (s : EventLink) (a : EventAction), Decidable (fewerThanTenQueued s a)
  | _, .bluetoothSppDataProc _ => inferInstanceAs (Decidable (_ → _))
  | _, .semPost | _, .setPhoneType _ | _, .waitBtResponse | _, .waitBtCommand => isTrue trivial

/-- The queue is in order, and the consumer's copies are the slots' contents. -/
structure EventLink.InOrder (s : EventLink) : Prop where
  fifo : s.phonestateSem.Fifo phonestateSemDataLen BtCsMsg.content
  returned_eq : s.returned = s.phonestateSem.taken

theorem eventStart_inOrder : eventStart.InOrder where
  fifo := SemQueue.fifo_start (CircularBuffer.represents_clear (by decide) _)
  returned_eq := rfl

namespace EventLink

variable {s t : EventLink} {a : EventAction}

theorem InOrder.step (h : s.InOrder) (hcond : fewerThanTenQueued s a)
    (hstep : s.step a = some t) : t.InOrder := by
  cases a with
  | bluetoothSppDataProc pMsg =>
    simp only [EventLink.step] at hstep
    split_ifs at hstep with hqueued hposting
    · obtain ⟨q, hq, rfl⟩ := Option.map_eq_some_iff.mp hstep
      -- whatever the slot held, it now has the content of the event
      refine ⟨h.fifo.put (hcond hqueued) (pMsg.content_copyTo _) hq, ?_⟩
      obtain ⟨-, rfl⟩ := SemQueue.put_eq_some.mp hq
      exact h.returned_eq
    · obtain rfl := Option.some.inj hstep
      exact h
  | semPost =>
    obtain ⟨q, hq, rfl⟩ := Option.map_eq_some_iff.mp hstep
    refine ⟨h.fifo.post hq, ?_⟩
    obtain ⟨-, rfl⟩ := SemQueue.post_eq_some.mp hq
    exact h.returned_eq
  | setPhoneType var =>
    obtain rfl := Option.some.inj hstep
    exact ⟨h.fifo, h.returned_eq⟩
  | waitBtResponse =>
    obtain ⟨q, hq, rfl⟩ := Option.map_eq_some_iff.mp hstep
    refine ⟨h.fifo.wait hq, ?_⟩
    obtain ⟨-, rfl⟩ := SemQueue.wait_eq_some.mp hq
    exact h.returned_eq
  | waitBtCommand =>
    obtain ⟨q, hq, rfl⟩ := Option.map_eq_some_iff.mp hstep
    refine ⟨h.fifo.take hq, ?_⟩
    -- the consumer looks at its copy, the history of the queue at the slot
    obtain ⟨-, rfl⟩ := SemQueue.take_eq_some.mp hq
    dsimp only
    rw [h.returned_eq, BtCsMsg.content_copyTo]

end EventLink

/-- **The event queue is a FIFO** along every run that writes an event only while
fewer than ten are waiting: what has been returned is a prefix of what was queued. -/
theorem btEventQueue_fifo {s : EventLink} {acts : List EventAction}
    (hrun : exec EventLink.step eventStart acts = some s)
    (hcond : Meets EventLink.step fewerThanTenQueued eventStart acts) :
    s.returned <+: s.phonestateSem.stored := by
  have hinOrder : s.InOrder :=
    exec_invariant_of_meets EventLink.InOrder (fun _ _ _ h hc hstep => h.step hc hstep)
      eventStart_inOrder hcond hrun
  rw [hinOrder.returned_eq]
  exact hinOrder.fifo.taken_isPrefix

/-- A hard key event with one data byte. -/
def hardKeyEvent (key : UInt8) : BtCsMsg := ⟨btMsgHardKey, 1, fun _ => key, by decide⟩

/-- Queue a hard key event for each key. -/
def queueKeys (keys : List UInt8) : List EventAction :=
  keys.flatMap fun key => [.bluetoothSppDataProc (hardKeyEvent key), .semPost]

theorem btEventQueue_fifo_two_keys :
    let s := (exec EventLink.step eventStart
      (queueKeys [1, 2] ++ [.waitBtResponse, .waitBtCommand])).get (by decide)
    s.returned <+: s.phonestateSem.stored :=
  btEventQueue_fifo (Option.some_get _).symm (by decide)

/-- Eleven events before the consumer's first turn: the first one it gets is the
eleventh. -/
theorem eleventh_event_overwrites_first :
    (exec EventLink.step eventStart (queueKeys [0, 1, 2, 3, 4, 5, 6, 7, 8, 9, 10] ++
        [.waitBtResponse, .waitBtCommand])).map
      (fun s => (s.returned, s.phonestateSem.stored.head?)) =
    some ([⟨btMsgHardKey, 1, [10]⟩], some ⟨btMsgHardKey, 1, [0]⟩) := by
  decide

end PhoneLink
