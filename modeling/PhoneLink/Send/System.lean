import PhoneLink.CS.Run
import PhoneLink.Protocol.AckRing
import PhoneLink.Protocol.Requests

/-!
# The sending threads

Four threads send frames to the phone. A send builds its frame in the one send
buffer, takes the send mutex, reads the frame's header back from the buffer and
transmits the buffer; a frame with the D flag is transmitted up to three times, each
time followed by a wait for the ACK that carries its command and transaction id. The
Bluetooth message thread is one of the four: it sends while it deals with received
frames, and nothing else takes events off the event queue or posts ACKs.

The system starts when `main` has initialised everything. What the phone sends and
when, and which thread moves next, is arbitrary.

## Main definitions

* `SendSystem`: the shared state, what each thread is doing, and history
* `SendSystem.step`: the atomic steps of the threads and the arrival of an event

## Main results

* `build_eq_some` and one `step_*` theorem for each step: what the step does, and when
-/

namespace PhoneLink

open CS CS.Transition

/-! ### Senders -/

/-- The HMI thread, the touch thread, the Bluetooth message thread and `main`. -/
inductive Thread
  | hmi
  | touch
  | bt
  | main
  deriving DecidableEq, Repr

/-- The locals of one send. The frame its create step encoded is not one of them:
`protected_spp_send_data` gets a pointer to the buffer and a length. -/
structure Call where
  frame : Frame
  cDataLen : UInt8
  cDataLen_eq : cDataLen.toNat = frame.bytes.length

theorem Call.ten_le (call : Call) : 10 ≤ call.cDataLen.toNat := by
  rw [call.cDataLen_eq, call.frame.length_bytes]
  exact Nat.le_add_left _ _

private theorem toNat_ret (r : Request) (tranID : UInt16) (desbuf : Memory) :
    (UInt8.ofInt (r.create tranID desbuf).ret).toNat = (r.frame tranID).bytes.length := by
  rw [(r.create_eq tranID desbuf).1]
  -- no frame is longer than 255 bytes, so the narrowing keeps its length
  have hle := (r.frame tranID).payload_le
  have hlen := (r.frame tranID).length_bytes
  have hsmall : (((r.frame tranID).bytes.length : ℤ) % 2 ^ 8).toNat =
      (r.frame tranID).bytes.length := by omega
  have hsize : UInt8.ofInt ((r.frame tranID).bytes.length : ℤ) =
      UInt8.ofNat (r.frame tranID).bytes.length := congrArg UInt8.ofNat hsmall
  rw [hsize, UInt8.toNat_ofNat', Nat.mod_eq_of_lt (by omega)]

/-- The call that follows a create step, with the length narrowed to `unsigned char`.
The length is at least ten, so no caller's check of it fails. -/
def Call.ofRequest (r : Request) (tranID : UInt16) (desbuf : Memory) : Call where
  frame := r.frame tranID
  cDataLen := UInt8.ofInt (r.create tranID desbuf).ret
  cDataLen_eq := toNat_ret r tranID desbuf

/-- Where a thread stands in a send. -/
inductive Pc
  | idle
  /-- The frame is built, the mutex not yet taken. -/
  | created (call : Call)
  /-- About to transmit, after `i` transmissions. -/
  | sending (call : Call) (hdr : Header) (i : ℕ)
  /-- In `sem_timedwait` after the `i`-th transmission. -/
  | waiting (call : Call) (hdr : Header) (i : ℕ)
  /-- The wait has succeeded, the ACK is not yet fetched. -/
  | fetching (call : Call) (hdr : Header) (i : ℕ)
  /-- About to unlock the mutex and return. -/
  | releasing (call : Call) (hdr : Header) (ret : ℤ)

/-- The call that may still transmit the buffer. -/
def Pc.pending : Pc → Option Call
  | .created call | .sending call _ _ | .waiting call _ _ | .fetching call _ _ => some call
  | .idle | .releasing _ _ _ => none

/-- The thread is between lock and unlock. -/
def Pc.locked : Pc → Bool
  | .idle | .created _ => false
  | .sending _ _ _ | .waiting _ _ _ | .fetching _ _ _ | .releasing _ _ _ => true

/-- The header a thread has transmitted and may still get an ACK for. -/
def Pc.awaited : Pc → Option Header
  | .sending _ hdr (_ + 1) | .waiting _ hdr _ | .fetching _ hdr _ => some hdr
  | .idle | .created _ | .sending _ _ 0 | .releasing _ _ _ => none

/-! ### Received frames -/

/-- What `dalink_spp_packet_deal` reads of a received frame, as far as it sends or
posts anything. -/
structure RxFrame where
  cmd : UInt8
  dFlag : UInt8
  tranId : UInt16
  payload0 : UInt8
  payload1 : UInt8
  deriving DecidableEq, Repr

/-- The ACK a header waits for. -/
def Header.ack (hdr : Header) : BtSppDalinkAck := ⟨hdr.tranId, hdr.cmdId⟩

/-- The ACK in an ACK frame. -/
def RxFrame.ack? (f : RxFrame) : Option BtSppDalinkAck :=
  if f.cmd = btSppMessageDlHuAck then some ⟨f.tranId, f.payload0⟩ else none

/-- The frame acknowledges what the thread has transmitted. -/
def Pc.acknowledgedBy (p : Pc) (f : RxFrame) : Bool :=
  p.awaited.any fun hdr => f.ack? = some hdr.ack

theorem acknowledgedBy_iff {p : Pc} {f : RxFrame} :
    p.acknowledgedBy f = true ↔ ∃ hdr, p.awaited = some hdr ∧ f.ack? = some hdr.ack := by
  unfold Pc.acknowledgedBy
  cases p.awaited <;> simp

/-- `SIRI_CMD` frames that are answered. -/
def RxFrame.isSiriCmd (f : RxFrame) : Bool :=
  f.cmd = btSppMessageDlHuSiri ∧ f.payload0 = btSppMessageSiriCmd ∧
    (f.payload1 = 0 ∨ f.payload1 = 1)

/-- Where the Bluetooth message thread stands with the frames of an event. -/
inductive BtStage
  /-- In `wait_bt_command`. -/
  | waiting
  /-- In the loop of `phone_app_msg_deal`, these frames to go. -/
  | dealing (rest : List RxFrame)
  /-- Sending the ACK for `f`. -/
  | acking (f : RxFrame) (rest : List RxFrame)
  /-- At the `switch` over the command of `f`. -/
  | switching (f : RxFrame) (rest : List RxFrame)
  /-- In `post_bt_spp_ack_wait_sem` for the ACK frame `f`, before its `sem_post`. -/
  | posting (f : RxFrame) (rest : List RxFrame)
  /-- Sending the SIRI feedback. -/
  | feedback (rest : List RxFrame)
  deriving DecidableEq, Repr

/-- The frames taken off the queue and not yet done with. -/
def BtStage.frames : BtStage → List RxFrame
  | .waiting => []
  | .dealing rest | .feedback rest => rest
  | .acking f rest | .switching f rest | .posting f rest => f :: rest

/-- Back from a send. -/
def BtStage.resume : BtStage → BtStage
  | .acking f rest => .switching f rest
  | .feedback rest => .dealing rest
  | stage => stage

/-! ### The system -/

structure SendSystem where
  dalinkSppSendBuf : Memory
  tranID : UInt16
  sppSendProctectMutex : Option Thread
  pc : Thread → Pc
  /-- `m_ack_data` with its points and `dalink_ack_sem`. -/
  acks : SemQueue BtSppDalinkAck BtSppDalinkAck
  /-- The events `wait_bt_command` has not yet returned, each as the frames that
  `phone_app_msg_deal` decodes from it. -/
  events : List (List RxFrame)
  bt : BtStage
  /-- History: the thread of the last create step. -/
  builder : Option Thread
  /-- History: for each `sendSppData`, what the call's create step encoded and what
  was transmitted. -/
  transmitted : List (List UInt8 × List UInt8)
  /-- History: a matching ACK frame has been queued since the thread's first
  transmission. -/
  enqueued : Thread → Bool
  /-- History: a matching ACK frame has been dealt with since the thread's first
  transmission. -/
  received : Thread → Bool

inductive SendAction
  /-- The create step of a send, outside the Bluetooth message thread. -/
  | create (t : Thread) (r : Request)
  /-- `protected_spp_send_data` up to the header fields. -/
  | lock (t : Thread)
  | sendSppData (t : Thread)
  /-- `wait_dalink_ack_response` succeeds. -/
  | waitDalinkAckResponse (t : Thread)
  /-- `get_dalink_ack_data` and the comparison of the ACK. -/
  | getDalinkAckData (t : Thread)
  /-- `wait_dalink_ack_response` times out. -/
  | timeout (t : Thread)
  /-- Unlock and return. -/
  | release (t : Thread)
  /-- The callback queues an event. -/
  | bluetoothSppDataProc (event : List RxFrame)
  | waitBtCommand
  /-- `phone_app_msg_deal` goes on to the next frame or returns. -/
  | dalinkSppPacketDeal
  /-- The `switch` of `dalink_spp_packet_deal`. -/
  | dispatchCommand
  /-- The `sem_post` of `post_bt_spp_ack_wait_sem`. -/
  | semPost
  deriving DecidableEq, Repr

namespace SendSystem

/-- The create step. -/
def build (s : SendSystem) (t : Thread) (r : Request) : Option SendSystem :=
  match s.pc t with
  | .idle =>
    some { s with
      dalinkSppSendBuf := (r.create s.tranID s.dalinkSppSendBuf).desbuf
      tranID := (r.create s.tranID s.dalinkSppSendBuf).tranID
      builder := some t
      pc := Function.update s.pc t (.created (.ofRequest r s.tranID s.dalinkSppSendBuf)) }
  | _ => none

/-- Back from a send. -/
def finish (s : SendSystem) (t : Thread) : SendSystem :=
  { s with
    pc := Function.update s.pc t .idle
    bt := if t = .bt then s.bt.resume else s.bt }

/-- History: at a call's first transmission nothing has been seen since. -/
def forget (i : ℕ) (t : Thread) (seen : Thread → Bool) : Thread → Bool :=
  if i = 0 then Function.update seen t false else seen

theorem forget_self (i : ℕ) (t : Thread) (seen : Thread → Bool) :
    forget i t seen t = if i = 0 then false else seen t := by
  unfold forget
  split_ifs
  · exact Function.update_self ..
  · rfl

theorem forget_of_ne {i : ℕ} {t u : Thread} {seen : Thread → Bool} (h : u ≠ t) :
    forget i t seen u = seen u := by
  unfold forget
  split_ifs
  · exact Function.update_of_ne h ..
  · rfl

/-- After a transmission: wait for the ACK if the frame asks for one. -/
def afterSend (call : Call) (hdr : Header) (i : ℕ) : Pc :=
  if hdr.dFlag = dFlagNeedAck then .waiting call hdr (i + 1) else .releasing call hdr 0

/-- After an ACK was fetched: done if it is the awaited one, else back to waiting. -/
def afterFetch (call : Call) (hdr : Header) (i : ℕ) (ack : BtSppDalinkAck) : Pc :=
  if ack.cmdId ≠ hdr.cmdId then .waiting call hdr i
  else if ack.tranId ≠ hdr.tranId then .waiting call hdr i
  else .releasing call hdr 0

/-- After a timeout: transmit again, three times in all. -/
def afterTimeout (call : Call) (hdr : Header) (i : ℕ) : Pc :=
  if i + 1 ≤ 3 then .sending call hdr i else .releasing call hdr (-2)

def step (s : SendSystem) : SendAction → Option SendSystem
  | .create t r => if t = .bt then none else s.build t r
  | .lock t =>
    match s.pc t with
    | .created call =>
      -- the length is checked before the mutex is taken: `-1` with nothing sent
      if call.cDataLen < 10 then some (s.finish t)
      else if s.sppSendProctectMutex = none then
        some { s with
          sppSendProctectMutex := some t
          pc := Function.update s.pc t (.sending call (readHeader s.dalinkSppSendBuf) 0) }
      else none
    | _ => none
  | .sendSppData t =>
    match s.pc t with
    | .sending call hdr i =>
      some { s with
        transmitted := s.transmitted ++
          [(call.frame.bytes, s.dalinkSppSendBuf.read 0 call.cDataLen.toNat)]
        enqueued := forget i t s.enqueued
        received := forget i t s.received
        pc := Function.update s.pc t (afterSend call hdr i) }
    | _ => none
  | .waitDalinkAckResponse t =>
    match s.pc t with
    | .waiting call hdr i =>
      s.acks.wait.map fun q =>
        { s with acks := q, pc := Function.update s.pc t (.fetching call hdr i) }
    | _ => none
  | .getDalinkAckData t =>
    match s.pc t with
    | .fetching call hdr i =>
      (takeAck s.acks).map fun q =>
        { s with
          acks := q
          pc := Function.update s.pc t
            (afterFetch call hdr i (getDalinkAckData s.acks.buffer).1) }
    | _ => none
  | .timeout t =>
    match s.pc t with
    | .waiting call hdr i =>
      -- `sem_timedwait` fails only if it finds nothing to take
      if s.acks.sem = 0 then
        some { s with pc := Function.update s.pc t (afterTimeout call hdr i) }
      else none
    | _ => none
  | .release t =>
    match s.pc t with
    | .releasing _ _ _ => some { s.finish t with sppSendProctectMutex := none }
    | _ => none
  | .bluetoothSppDataProc event =>
    some { s with
      events := s.events ++ [event]
      enqueued := fun t => s.enqueued t || event.any (s.pc t).acknowledgedBy }
  | .waitBtCommand =>
    match s.bt, s.events with
    | .waiting, event :: events => some { s with bt := .dealing event, events := events }
    | _, _ => none
  | .dalinkSppPacketDeal =>
    match s.bt with
    | .dealing [] => some { s with bt := .waiting }
    | .dealing (f :: rest) =>
      -- the frame is acknowledged before it is looked at
      if f.dFlag = 1 then
        (s.build .bt (.ack f.tranId f.cmd)).map fun t => { t with bt := .acking f rest }
      else some { s with bt := .switching f rest }
    | _ => none
  | .dispatchCommand =>
    match s.bt with
    | .switching f rest =>
      if f.cmd = btSppMessageDlHuAck then
        (postBtSppAckWaitSem f.payload0 f.tranId s.acks).map fun q =>
          { s with
            acks := q
            bt := .posting f rest
            received := fun t => s.received t || (s.pc t).acknowledgedBy f }
      else if f.isSiriCmd then
        (s.build .bt (.siriFeedback f.payload1 1)).map fun t => { t with bt := .feedback rest }
      -- the other commands touch neither the send buffer nor the ring
      else some { s with bt := .dealing rest }
    | _ => none
  | .semPost =>
    match s.bt with
    | .posting _ rest => s.acks.post.map fun q => { s with acks := q, bt := .dealing rest }
    | _ => none

end SendSystem

/-- Everything initialised, nothing sent or received yet. -/
def sendStart : SendSystem where
  dalinkSppSendBuf := .zero
  tranID := 0
  sppSendProctectMutex := none
  pc := fun _ => .idle
  acks := .start ackRingStart
  events := []
  bt := .waiting
  builder := none
  transmitted := []
  enqueued := fun _ => false
  received := fun _ => false

/-! ### What each step does -/

namespace SendSystem

variable {s s' : SendSystem} {t : Thread} {r : Request}

/-- The comparison of the two fields is the comparison of the ACKs. -/
theorem afterFetch_eq (call : Call) (hdr : Header) (i : ℕ) (ack : BtSppDalinkAck) :
    afterFetch call hdr i ack =
      if ack = hdr.ack then .releasing call hdr 0 else .waiting call hdr i := by
  obtain ⟨tranId, cmdId⟩ := ack
  unfold afterFetch Header.ack
  by_cases hcmd : cmdId = hdr.cmdId <;> by_cases htran : tranId = hdr.tranId <;>
    simp [hcmd, htran]

theorem build_eq_some (h : s.build t r = some s') :
    s.pc t = .idle ∧ s' = { s with
      dalinkSppSendBuf := (r.create s.tranID s.dalinkSppSendBuf).desbuf
      tranID := (r.create s.tranID s.dalinkSppSendBuf).tranID
      builder := some t
      pc := Function.update s.pc t (.created (.ofRequest r s.tranID s.dalinkSppSendBuf)) } := by
  unfold build at h
  split at h
  · exact ⟨‹_›, (Option.some.inj h).symm⟩
  · cases h

theorem step_create (h : s.step (.create t r) = some s') : s.build t r = some s' := by
  simp only [step] at h
  split_ifs at h
  exact h

theorem step_lock (h : s.step (.lock t) = some s') :
    ∃ call, s.pc t = .created call ∧ s.sppSendProctectMutex = none ∧ s' = { s with
      sppSendProctectMutex := some t
      pc := Function.update s.pc t (.sending call (readHeader s.dalinkSppSendBuf) 0) } := by
  simp only [step] at h
  split at h
  · next call hpc =>
    -- the check of the length never fails
    have hlen : ¬ call.cDataLen < 10 := UInt8.not_lt.mpr (UInt8.le_iff_toNat_le.mpr call.ten_le)
    rw [if_neg hlen] at h
    split_ifs at h with hfree
    exact ⟨call, hpc, hfree, (Option.some.inj h).symm⟩
  · cases h

theorem step_sendSppData (h : s.step (.sendSppData t) = some s') :
    ∃ call hdr i, s.pc t = .sending call hdr i ∧ s' = { s with
      transmitted := s.transmitted ++
        [(call.frame.bytes, s.dalinkSppSendBuf.read 0 call.cDataLen.toNat)]
      enqueued := forget i t s.enqueued
      received := forget i t s.received
      pc := Function.update s.pc t (afterSend call hdr i) } := by
  simp only [step] at h
  split at h
  · exact ⟨_, _, _, ‹_›, (Option.some.inj h).symm⟩
  · cases h

theorem step_waitDalinkAckResponse (h : s.step (.waitDalinkAckResponse t) = some s') :
    ∃ call hdr i q, s.pc t = .waiting call hdr i ∧ s.acks.wait = some q ∧
      s' = { s with acks := q, pc := Function.update s.pc t (.fetching call hdr i) } := by
  simp only [step] at h
  split at h
  · obtain ⟨q, hq, rfl⟩ := Option.map_eq_some_iff.mp h
    exact ⟨_, _, _, q, ‹_›, hq, rfl⟩
  · cases h

theorem step_getDalinkAckData (h : s.step (.getDalinkAckData t) = some s') :
    ∃ call hdr i q, s.pc t = .fetching call hdr i ∧ takeAck s.acks = some q ∧ s' = { s with
      acks := q
      pc := Function.update s.pc t
        (afterFetch call hdr i (getDalinkAckData s.acks.buffer).1) } := by
  simp only [step] at h
  split at h
  · obtain ⟨q, hq, rfl⟩ := Option.map_eq_some_iff.mp h
    exact ⟨_, _, _, q, ‹_›, hq, rfl⟩
  · cases h

theorem step_timeout (h : s.step (.timeout t) = some s') :
    ∃ call hdr i, s.pc t = .waiting call hdr i ∧ s.acks.sem = 0 ∧
      s' = { s with pc := Function.update s.pc t (afterTimeout call hdr i) } := by
  simp only [step] at h
  split at h
  · split_ifs at h with hsem
    exact ⟨_, _, _, ‹_›, hsem, (Option.some.inj h).symm⟩
  · cases h

theorem step_release (h : s.step (.release t) = some s') :
    ∃ call hdr ret, s.pc t = .releasing call hdr ret ∧
      s' = { s.finish t with sppSendProctectMutex := none } := by
  simp only [step] at h
  split at h
  · exact ⟨_, _, _, ‹_›, (Option.some.inj h).symm⟩
  · cases h

theorem step_waitBtCommand (h : s.step .waitBtCommand = some s') :
    ∃ event events, s.bt = .waiting ∧ s.events = event :: events ∧
      s' = { s with bt := .dealing event, events := events } := by
  simp only [step] at h
  split at h
  · exact ⟨_, _, ‹_›, ‹_›, (Option.some.inj h).symm⟩
  · cases h

/-- The loop ends, goes on to a frame's `switch`, or first acknowledges the frame. -/
theorem step_dalinkSppPacketDeal (h : s.step .dalinkSppPacketDeal = some s') :
    (s.bt = .dealing [] ∧ s' = { s with bt := .waiting }) ∨
    (∃ f rest u, s.bt = .dealing (f :: rest) ∧ s.build .bt (.ack f.tranId f.cmd) = some u ∧
      s' = { u with bt := .acking f rest }) ∨
    ∃ f rest, s.bt = .dealing (f :: rest) ∧ s' = { s with bt := .switching f rest } := by
  simp only [step] at h
  split at h
  · exact .inl ⟨‹_›, (Option.some.inj h).symm⟩
  · split_ifs at h
    · obtain ⟨u, hu, rfl⟩ := Option.map_eq_some_iff.mp h
      exact .inr (.inl ⟨_, _, u, ‹_›, hu, rfl⟩)
    · exact .inr (.inr ⟨_, _, ‹_›, (Option.some.inj h).symm⟩)
  · cases h

/-- An ACK frame is written to the ring, a SIRI command is answered, any other frame
neither sends nor posts. -/
theorem step_dispatchCommand (h : s.step .dispatchCommand = some s') :
    (∃ f rest q, s.bt = .switching f rest ∧ f.ack? = some ⟨f.tranId, f.payload0⟩ ∧
      postBtSppAckWaitSem f.payload0 f.tranId s.acks = some q ∧
      s' = { s with
        acks := q
        bt := .posting f rest
        received := fun t => s.received t || (s.pc t).acknowledgedBy f }) ∨
    (∃ f rest u, s.bt = .switching f rest ∧ f.ack? = none ∧
      s.build .bt (.siriFeedback f.payload1 1) = some u ∧ s' = { u with bt := .feedback rest }) ∨
    ∃ f rest, s.bt = .switching f rest ∧ f.ack? = none ∧ s' = { s with bt := .dealing rest } := by
  simp only [step] at h
  split at h
  · split_ifs at h with hack hsiri
    · obtain ⟨q, hq, rfl⟩ := Option.map_eq_some_iff.mp h
      exact .inl ⟨_, _, q, ‹_›, if_pos hack, hq, rfl⟩
    · obtain ⟨u, hu, rfl⟩ := Option.map_eq_some_iff.mp h
      exact .inr (.inl ⟨_, _, u, ‹_›, if_neg hack, hu, rfl⟩)
    · exact .inr (.inr ⟨_, _, ‹_›, if_neg hack, (Option.some.inj h).symm⟩)
  · cases h

theorem step_semPost (h : s.step .semPost = some s') :
    ∃ f rest q, s.bt = .posting f rest ∧ s.acks.post = some q ∧
      s' = { s with acks := q, bt := .dealing rest } := by
  simp only [step] at h
  split at h
  · obtain ⟨q, hq, rfl⟩ := Option.map_eq_some_iff.mp h
    exact ⟨_, _, q, ‹_›, hq, rfl⟩
  · cases h

end SendSystem

end PhoneLink
