import PhoneLink.CS.Run
import PhoneLink.CS.SemQueue
import PhoneLink.Protocol.Packet

/-!
# The ACK ring and its semaphore

Received ACKs are put into a ring of twenty slots by the Bluetooth thread, which
then posts a semaphore; a sender waits on the semaphore and fetches the ACK at
the read index. The fetch leaves the read index alone when it equals the write
index, which is the case in an empty ring and in a full one.

`main` lets the Bluetooth thread process frames in `init_phone_link` and sets
the semaphore to `0` only afterwards.

## Main results

* `getDalinkAckData_eq`: off a full ring the fetch is the buffer's own
* `ackRing_in_step`: the semaphore counts the unread ACKs and they are delivered
  once each in posting order, along every run in which the semaphore is set up
  before any ACK is posted and no fetch meets a full ring
-/

namespace PhoneLink

open CS CS.Transition

/-- One ACK: the command and the transaction id it acknowledges. -/
structure BtSppDalinkAck where
  tranId : UInt16
  cmdId : UInt8
  deriving DecidableEq, Repr

abbrev btSppAckMaxPacketsLen : ℕ := 20

/-- `m_ack_data` with its read and write points. -/
abbrev AckRing := CircularBuffer BtSppDalinkAck

/-- The ring at program start: zeroed slots. -/
def ackRingStart : AckRing := .clear ⟨0, 0⟩

/-- Fetch the ACK at the read point. The source returns a pointer to the slot; here the slot
is looked at when the function returns. -/
def getDalinkAckData (ring : AckRing) : BtSppDalinkAck × AckRing :=
  if ring.readPoint ≠ ring.writePoint then (ring.front, ring.drop btSppAckMaxPacketsLen)
  -- taken for an error: the slot is returned all the same, the read point stays
  else (ring.front, ring)

theorem getDalinkAckData_fst (ring : AckRing) : (getDalinkAckData ring).1 = ring.front := by
  unfold getDalinkAckData
  split_ifs <;> rfl

/-- With different indices the fetch is the buffer's own. -/
theorem getDalinkAckData_eq {ring : AckRing} (h : ring.readPoint ≠ ring.writePoint) :
    getDalinkAckData ring = (ring.front, ring.drop btSppAckMaxPacketsLen) := if_pos h

/-! ### Start-up and traffic -/

/-- How far `main` has come. -/
inductive MainPhase
  | booting
  | phoneLinkInitialized
  | ackSemInitialized
  deriving DecidableEq, Repr

/-- The ring, its semaphore and its users, and `main`'s progress. -/
structure AckTraffic where
  main : MainPhase
  queue : SemQueue BtSppDalinkAck BtSppDalinkAck

/-- Steps of `main`, of the thread that posts ACKs and of a sender waiting for one. -/
inductive AckAction
  /-- `init_phone_link` sets `phone_connect_init_complete`. -/
  | initPhoneLink
  /-- `init_dalink_protocol_ack_sem`. -/
  | initDalinkProtocolAckSem
  /-- First half of `post_bt_spp_ack_wait_sem`: the slot and the write point. -/
  | writeAck (commandId : UInt8) (transId : UInt16)
  /-- Its second half: `sem_post`. -/
  | semPost
  /-- The wait of `wait_dalink_ack_response` succeeds. -/
  | waitDalinkAckResponse
  /-- `get_dalink_ack_data`. -/
  | getDalinkAckData
  deriving DecidableEq, Repr

/-- `post_bt_spp_ack_wait_sem` up to its `sem_post`: the slot and the write point. -/
def postBtSppAckWaitSem (commandId : UInt8) (transId : UInt16)
    (q : SemQueue BtSppDalinkAck BtSppDalinkAck) :
    Option (SemQueue BtSppDalinkAck BtSppDalinkAck) :=
  q.put btSppAckMaxPacketsLen (fun _ => ⟨transId, commandId⟩) ⟨transId, commandId⟩

/-- `get_dalink_ack_data` by a sender whose wait has succeeded. -/
def takeAck (q : SemQueue BtSppDalinkAck BtSppDalinkAck) :
    Option (SemQueue BtSppDalinkAck BtSppDalinkAck) :=
  if q.taking then
    some { q with
      buffer := (getDalinkAckData q.buffer).2
      taking := false
      taken := q.taken ++ [(getDalinkAckData q.buffer).1] }
  else none

theorem takeAck_eq_some {q q' : SemQueue BtSppDalinkAck BtSppDalinkAck} (h : takeAck q = some q') :
    q.taking = true ∧ q' = { q with
      buffer := (getDalinkAckData q.buffer).2
      taking := false
      taken := q.taken ++ [(getDalinkAckData q.buffer).1] } := by
  unfold takeAck at h
  split_ifs at h with htaking
  exact ⟨htaking, (Option.some.inj h).symm⟩

def AckTraffic.step (s : AckTraffic) : AckAction → Option AckTraffic
  | .initPhoneLink =>
    if s.main = .booting then some { s with main := .phoneLinkInitialized } else none
  | .initDalinkProtocolAckSem =>
    if s.main = .phoneLinkInitialized then
      -- `sem_init` forgets what was posted before
      some { main := .ackSemInitialized, queue := { s.queue with sem := 0 } }
    else none
  | .writeAck commandId transId =>
    -- frames are processed from `init_phone_link` on
    if s.main = .booting then none
    else (postBtSppAckWaitSem commandId transId s.queue).map fun q => { s with queue := q }
  | .semPost => s.queue.post.map fun q => { s with queue := q }
  | .waitDalinkAckResponse => s.queue.wait.map fun q => { s with queue := q }
  | .getDalinkAckData => (takeAck s.queue).map fun q => { s with queue := q }

/-- Program start. The semaphore is a static object, zero before it is set up. -/
def ackStart : AckTraffic := ⟨.booting, .start ackRingStart⟩

/-- At most twenty posted ACKs are unread at any time. -/
def atMostTwentyUnread (s : AckTraffic) : AckAction → Prop
  | .writeAck _ _ => s.queue.backlog < btSppAckMaxPacketsLen
  | _ => True

/-- The semaphore is set up while it is zero, and an ACK is fetched while fewer
than twenty are unread. -/
def ackInitFirstAndNotFull (s : AckTraffic) : AckAction → Prop
  | .initDalinkProtocolAckSem => s.queue.sem = 0
  | .getDalinkAckData => s.queue.backlog < btSppAckMaxPacketsLen
  | _ => True

instance : ∀ (s : AckTraffic) (a : AckAction), Decidable (atMostTwentyUnread s a)
  | _, .writeAck _ _ => inferInstanceAs (Decidable (_ < _))
  | _, .initPhoneLink | _, .initDalinkProtocolAckSem | _, .semPost
  | _, .waitDalinkAckResponse | _, .getDalinkAckData => isTrue trivial

instance : ∀ (s : AckTraffic) (a : AckAction), Decidable (ackInitFirstAndNotFull s a)
  | _, .initDalinkProtocolAckSem => inferInstanceAs (Decidable (_ = _))
  | _, .getDalinkAckData => inferInstanceAs (Decidable (_ < _))
  | _, .initPhoneLink | _, .writeAck _ _ | _, .semPost
  | _, .waitDalinkAckResponse => isTrue trivial

/-- A fetch from a ring that is neither empty nor full is an in-order take. -/
theorem takeAck_eq {q : SemQueue BtSppDalinkAck BtSppDalinkAck}
    (h : q.Fifo btSppAckMaxPacketsLen id) (hspace : q.backlog < btSppAckMaxPacketsLen) :
    takeAck q = q.take btSppAckMaxPacketsLen id := by
  unfold takeAck SemQueue.take
  split_ifs with htaking
  · obtain ⟨l, hl⟩ := h
    obtain ⟨x, rest, rfl⟩ := hl.exists_cons htaking
    -- equal points would mean an empty ring or a full one
    have hne : q.buffer.readPoint ≠ q.buffer.writePoint := fun heq => by
      rw [hl.backlog_eq] at hspace
      rcases hl.represents.readPoint_eq_writePoint_iff.mp heq with hnil | hfull
      · simp at hnil
      · omega
    rw [getDalinkAckData_eq hne]
    rfl
  · rfl

private theorem fifo_step {s t : AckTraffic} {a : AckAction}
    (h : s.queue.Fifo btSppAckMaxPacketsLen id)
    (hcond : ackInitFirstAndNotFull s a ∧ atMostTwentyUnread s a) (hstep : s.step a = some t) :
    t.queue.Fifo btSppAckMaxPacketsLen id := by
  cases a with
  | initPhoneLink =>
    simp only [AckTraffic.step] at hstep
    split_ifs at hstep
    obtain rfl := Option.some.inj hstep
    exact h
  | initDalinkProtocolAckSem =>
    -- zero is set to zero
    have hsem : s.queue.sem = 0 := hcond.1
    simp only [AckTraffic.step, ← hsem] at hstep
    split_ifs at hstep
    obtain rfl := Option.some.inj hstep
    exact h
  | writeAck commandId transId =>
    simp only [AckTraffic.step] at hstep
    split_ifs at hstep
    obtain ⟨q, hq, rfl⟩ := Option.map_eq_some_iff.mp hstep
    exact h.put hcond.2 rfl hq
  | semPost =>
    obtain ⟨q, hq, rfl⟩ := Option.map_eq_some_iff.mp hstep
    exact h.post hq
  | waitDalinkAckResponse =>
    obtain ⟨q, hq, rfl⟩ := Option.map_eq_some_iff.mp hstep
    exact h.wait hq
  | getDalinkAckData =>
    obtain ⟨q, hq, rfl⟩ := Option.map_eq_some_iff.mp hstep
    rw [takeAck_eq h hcond.1] at hq
    exact h.take hq

/-- **The ring and its semaphore agree** in every state of every run whose steps
meet the condition: the semaphore counts the unread ACKs, up to a post or a
fetch that is half done, and the ACKs fetched are the posted ones in order, each as it stands
in the ring when its fetch returns. -/
theorem ackRing_in_step {s : AckTraffic} {acts : List AckAction}
    (hrun : exec AckTraffic.step ackStart acts = some s)
    (hunread : Meets AckTraffic.step atMostTwentyUnread ackStart acts)
    (hcond : Meets AckTraffic.step ackInitFirstAndNotFull ackStart acts) :
    s.queue.sem + s.queue.posting.toNat + s.queue.taking.toNat = s.queue.backlog ∧
      s.queue.taken <+: s.queue.stored := by
  have hstart : ackStart.queue.Fifo btSppAckMaxPacketsLen id :=
    SemQueue.fifo_start (CircularBuffer.represents_clear (by decide) _)
  have hfifo : s.queue.Fifo btSppAckMaxPacketsLen id :=
    exec_invariant_of_meets (fun s => s.queue.Fifo btSppAckMaxPacketsLen id)
      (fun _ _ _ => fifo_step) hstart (hcond.and hunread) hrun
  exact ⟨hfifo.sem_eq_backlog, hfifo.taken_isPrefix⟩

/-- Start-up in order; two ACKs are posted before the first is fetched, and a third before
the second. -/
def ackAfterStartup : List AckAction :=
  [.initPhoneLink, .initDalinkProtocolAckSem, .writeAck 0x38 0, .semPost, .writeAck 0x3A 1,
    .semPost, .waitDalinkAckResponse, .getDalinkAckData, .writeAck 0xA8 2,
    .waitDalinkAckResponse, .getDalinkAckData, .semPost]

theorem ackRing_in_step_after_startup :
    let s := (exec AckTraffic.step ackStart ackAfterStartup).get (by decide)
    s.queue.sem + s.queue.posting.toNat + s.queue.taking.toNat = s.queue.backlog ∧
      s.queue.taken <+: s.queue.stored :=
  ackRing_in_step (Option.some_get _).symm (by decide) (by decide)

/-- An ACK posted between `init_phone_link` and `init_dalink_protocol_ack_sem` is
unread, and the semaphore does not count it. -/
theorem ack_before_semaphore_init :
    Meets AckTraffic.step atMostTwentyUnread ackStart
        [.initPhoneLink, .writeAck 0x38 0, .semPost, .initDalinkProtocolAckSem] ∧
      (exec AckTraffic.step ackStart
          [.initPhoneLink, .writeAck 0x38 0, .semPost, .initDalinkProtocolAckSem]).map
        (fun s => (s.queue.sem, s.queue.posting, s.queue.taking, s.queue.backlog)) =
      some (0, false, false, 1) := by
  decide

end PhoneLink
