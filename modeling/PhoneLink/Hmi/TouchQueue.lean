import PhoneLink.CS.Pieces
import PhoneLink.CS.Run
import PhoneLink.CS.SemQueue

/-!
# The touch queue across reconnects

The HMI sends touch records over a socket of their own. The socket thread stores
each record it receives in one of a hundred slots and posts a semaphore; the touch
thread waits on it and reads the slot at the read point. After every attempt to
connect, successful or not, the socket thread sets both points to zero and zeroes
the slots. The semaphore keeps its value.

## Main results

* `TouchLink.Received.step`: the records stored are a prefix of those sent on each
  connection, in every run
* `touchRecords_inOrder`: so are the records delivered, along every run in which
  each reset finds no record stored and not delivered
-/

namespace PhoneLink

open CS CS.Transition

abbrev maxTouchMsgSize : ℕ := 100

/-- `PL_TOUCH_INFO`. -/
structure PlTouchInfo where
  x : UInt16
  y : UInt16
  flag : UInt8
  x1 : UInt16
  y1 : UInt16
  flag1 : UInt8
  serialNum : UInt8
  deriving DecidableEq, Repr

/-- A zeroed slot. -/
def PlTouchInfo.zero : PlTouchInfo := ⟨0, 0, 0, 0, 0, 0, 0⟩

/-- Where `communication_with_mainapp_touchmsg_thread` stands. `connected` is
whether the last `socket_conn` succeeded. -/
inductive SocketThread
  | connecting
  | resetReadPoint (connected : Bool)
  | resetWritePoint (connected : Bool)
  | memsetTouchmsg (connected : Bool)
  | receiving
  deriving DecidableEq, Repr

/-- The connection can be written to. -/
def SocketThread.isConnected : SocketThread → Bool
  | .connecting => false
  | .resetReadPoint connected => connected
  | .resetWritePoint connected => connected
  | .memsetTouchmsg connected => connected
  | .receiving => true

/-- The socket thread, the connection, and the slots with their semaphore. -/
structure TouchLink where
  thread : SocketThread
  /-- What the HMI sent on each connection that has ended, oldest first. -/
  sentBefore : List (List PlTouchInfo)
  /-- What the HMI has sent on the present connection. -/
  sent : List PlTouchInfo
  /-- Records sent on the present connection and not yet received. -/
  socket : List PlTouchInfo
  touchmsg : SemQueue PlTouchInfo PlTouchInfo

inductive TouchAction
  /-- `socket_conn` returns. -/
  | socketConn (connected : Bool)
  | resetReadPoint
  | resetWritePoint
  | memsetTouchmsg
  /-- The HMI sends a record. -/
  | send (record : PlTouchInfo)
  /-- `recv` returns a record and `write_touchmsg_sem_data` stores it. -/
  | recv
  | semPost
  /-- `recv` returns at most zero. What was in the socket is lost. -/
  | disconnect
  | semWait
  | readTouchmsgSemData
  deriving DecidableEq, Repr

def TouchLink.step (s : TouchLink) : TouchAction → Option TouchLink
  | .socketConn connected =>
    if s.thread = .connecting then some { s with thread := .resetReadPoint connected } else none
  | .resetReadPoint =>
    match s.thread with
    | .resetReadPoint connected =>
      some { s with
        thread := .resetWritePoint connected
        touchmsg := { s.touchmsg with buffer := { s.touchmsg.buffer with readPoint := 0 } } }
    | _ => none
  | .resetWritePoint =>
    match s.thread with
    | .resetWritePoint connected =>
      some { s with
        thread := .memsetTouchmsg connected
        touchmsg := { s.touchmsg with buffer := { s.touchmsg.buffer with writePoint := 0 } } }
    | _ => none
  | .memsetTouchmsg =>
    match s.thread with
    | .memsetTouchmsg connected =>
      some { s with
        thread := if connected then .receiving else .connecting
        touchmsg := { s.touchmsg with
          buffer := { s.touchmsg.buffer with slots := fun _ => .zero } } }
    | _ => none
  | .send record =>
    if s.thread.isConnected then
      some { s with sent := s.sent ++ [record], socket := s.socket ++ [record] }
    else none
  | .recv =>
    match s.thread, s.socket with
    | .receiving, record :: rest =>
      (s.touchmsg.put maxTouchMsgSize (fun _ => record) record).map fun q =>
        { s with socket := rest, touchmsg := q }
    | _, _ => none
  | .semPost => s.touchmsg.post.map fun q => { s with touchmsg := q }
  | .disconnect =>
    if s.thread = .receiving ∧ s.touchmsg.posting = false then
      some { s with
        thread := .connecting
        sentBefore := s.sentBefore ++ [s.sent]
        sent := []
        socket := [] }
    else none
  | .semWait => s.touchmsg.wait.map fun q => { s with touchmsg := q }
  | .readTouchmsgSemData =>
    (s.touchmsg.take maxTouchMsgSize id).map fun q => { s with touchmsg := q }

/-- Both threads started, no connection yet. -/
def touchStart : TouchLink := ⟨.connecting, [], [], [], .start (.clear .zero)⟩

/-- At most a hundred records are stored and not delivered at any time. -/
def atMostHundredUnread (s : TouchLink) : TouchAction → Prop
  | .recv => s.touchmsg.backlog < maxTouchMsgSize
  | _ => True

/-- When the reset begins, no post is outstanding and the touch thread is not
between its wait and its read: every stored record has been delivered. -/
def nothingOutstanding (s : TouchLink) : TouchAction → Prop
  | .resetReadPoint => s.touchmsg.sem = 0 ∧ s.touchmsg.taking = false
  | _ => True

instance : ∀ (s : TouchLink) (a : TouchAction), Decidable (atMostHundredUnread s a)
  | _, .recv => inferInstanceAs (Decidable (_ < _))
  | _, .socketConn _ | _, .resetReadPoint | _, .resetWritePoint | _, .memsetTouchmsg | _, .send _
  | _, .semPost | _, .disconnect | _, .semWait | _, .readTouchmsgSemData => isTrue trivial

instance : ∀ (s : TouchLink) (a : TouchAction), Decidable (nothingOutstanding s a)
  | _, .resetReadPoint => inferInstanceAs (Decidable (_ ∧ _))
  | _, .socketConn _ | _, .resetWritePoint | _, .memsetTouchmsg | _, .send _ | _, .recv
  | _, .semPost | _, .disconnect | _, .semWait | _, .readTouchmsgSemData => isTrue trivial

namespace TouchLink

variable {s t : TouchLink} {a : TouchAction}

/-! ### What a step does -/

theorem step_socketConn {connected : Bool} (h : s.step (.socketConn connected) = some t) :
    s.thread = .connecting ∧ t = { s with thread := .resetReadPoint connected } := by
  simp only [TouchLink.step] at h
  split_ifs at h with hthread
  exact ⟨hthread, (Option.some.inj h).symm⟩

theorem step_resetReadPoint (h : s.step .resetReadPoint = some t) :
    ∃ connected, s.thread = .resetReadPoint connected ∧ t = { s with
      thread := .resetWritePoint connected
      touchmsg := { s.touchmsg with buffer := { s.touchmsg.buffer with readPoint := 0 } } } := by
  simp only [TouchLink.step] at h
  split at h
  · next connected hthread => exact ⟨connected, hthread, (Option.some.inj h).symm⟩
  · cases h

theorem step_resetWritePoint (h : s.step .resetWritePoint = some t) :
    ∃ connected, s.thread = .resetWritePoint connected ∧ t = { s with
      thread := .memsetTouchmsg connected
      touchmsg := { s.touchmsg with buffer := { s.touchmsg.buffer with writePoint := 0 } } } := by
  simp only [TouchLink.step] at h
  split at h
  · next connected hthread => exact ⟨connected, hthread, (Option.some.inj h).symm⟩
  · cases h

theorem step_memsetTouchmsg (h : s.step .memsetTouchmsg = some t) :
    ∃ connected, s.thread = .memsetTouchmsg connected ∧ t = { s with
      thread := if connected then .receiving else .connecting
      touchmsg := { s.touchmsg with
        buffer := { s.touchmsg.buffer with slots := fun _ => .zero } } } := by
  simp only [TouchLink.step] at h
  split at h
  · next connected hthread => exact ⟨connected, hthread, (Option.some.inj h).symm⟩
  · cases h

theorem step_send {record : PlTouchInfo} (h : s.step (.send record) = some t) :
    t = { s with sent := s.sent ++ [record], socket := s.socket ++ [record] } := by
  simp only [TouchLink.step] at h
  split_ifs at h
  exact (Option.some.inj h).symm

theorem step_recv (h : s.step .recv = some t) :
    ∃ record rest q, s.thread = .receiving ∧ s.socket = record :: rest ∧
      s.touchmsg.put maxTouchMsgSize (fun _ => record) record = some q ∧
      t = { s with socket := rest, touchmsg := q } := by
  simp only [TouchLink.step] at h
  split at h
  · next record rest hthread hsocket =>
    obtain ⟨q, hq, rfl⟩ := Option.map_eq_some_iff.mp h
    exact ⟨record, rest, q, hthread, hsocket, hq, rfl⟩
  · cases h

theorem step_disconnect (h : s.step .disconnect = some t) :
    (s.thread = .receiving ∧ s.touchmsg.posting = false) ∧ t = { s with
      thread := .connecting
      sentBefore := s.sentBefore ++ [s.sent]
      sent := []
      socket := [] } := by
  simp only [TouchLink.step] at h
  split_ifs at h with hidle
  exact ⟨hidle, (Option.some.inj h).symm⟩

/-! ### What is stored was sent -/

/-- The records stored are those of the connections that have ended, each possibly
cut short, and what has been received on the present one. -/
def Received (s : TouchLink) : Prop :=
  ∃ before now, s.touchmsg.stored = before ++ now ∧ PrefixesOf before s.sentBefore ∧
    s.sent = now ++ s.socket

theorem touchStart_received : Received touchStart := ⟨[], [], rfl, prefixesOf_nil [], rfl⟩

theorem Received.prefixesOf (h : s.Received) :
    PrefixesOf s.touchmsg.stored (s.sentBefore ++ [s.sent]) := by
  obtain ⟨before, now, hstored, hbefore, hsent⟩ := h
  exact hstored ▸ hbefore.append ⟨s.socket, hsent.symm⟩

theorem Received.step (h : s.Received) (hstep : s.step a = some t) : t.Received := by
  obtain ⟨before, now, hstored, hbefore, hsent⟩ := id h
  cases a with
  | socketConn connected =>
    obtain ⟨-, rfl⟩ := step_socketConn hstep
    exact h
  | resetReadPoint =>
    obtain ⟨connected, -, rfl⟩ := step_resetReadPoint hstep
    exact h
  | resetWritePoint =>
    obtain ⟨connected, -, rfl⟩ := step_resetWritePoint hstep
    exact h
  | memsetTouchmsg =>
    obtain ⟨connected, -, rfl⟩ := step_memsetTouchmsg hstep
    exact h
  | send record =>
    obtain rfl := step_send hstep
    exact ⟨before, now, hstored, hbefore, by simp [hsent]⟩
  | recv =>
    obtain ⟨record, rest, q, -, hsocket, hq, rfl⟩ := step_recv hstep
    obtain ⟨-, rfl⟩ := SemQueue.put_eq_some.mp hq
    exact ⟨before, now ++ [record], by simp [hstored], hbefore, by simp [hsent, hsocket]⟩
  | semPost =>
    obtain ⟨q, hq, rfl⟩ := Option.map_eq_some_iff.mp hstep
    obtain ⟨-, rfl⟩ := SemQueue.post_eq_some.mp hq
    exact h
  | disconnect =>
    obtain ⟨-, rfl⟩ := step_disconnect hstep
    -- the present connection becomes the last of those that have ended
    exact ⟨s.touchmsg.stored, [], by simp, h.prefixesOf, rfl⟩
  | semWait =>
    obtain ⟨q, hq, rfl⟩ := Option.map_eq_some_iff.mp hstep
    obtain ⟨-, rfl⟩ := SemQueue.wait_eq_some.mp hq
    exact h
  | readTouchmsgSemData =>
    obtain ⟨q, hq, rfl⟩ := Option.map_eq_some_iff.mp hstep
    obtain ⟨-, rfl⟩ := SemQueue.take_eq_some.mp hq
    exact h

/-! ### The ring over a reset -/

/-- Everything stored has been taken, and nobody is at work on the ring. -/
structure Drained (q : SemQueue PlTouchInfo PlTouchInfo) : Prop where
  sem_eq : q.sem = 0
  posting_eq : q.posting = false
  taking_eq : q.taking = false
  stored_eq : q.stored = q.taken

/-- Between the steps of a reset the ring is drained; otherwise it is in order. -/
def RingInOrder (s : TouchLink) : Prop :=
  match s.thread with
  | .connecting | .resetReadPoint _ =>
    s.touchmsg.Fifo maxTouchMsgSize id ∧ s.touchmsg.posting = false
  | .resetWritePoint _ => Drained s.touchmsg ∧ s.touchmsg.buffer.readPoint = 0
  | .memsetTouchmsg _ =>
    Drained s.touchmsg ∧ s.touchmsg.buffer.readPoint = 0 ∧ s.touchmsg.buffer.writePoint = 0
  | .receiving => s.touchmsg.Fifo maxTouchMsgSize id

theorem touchStart_ringInOrder : RingInOrder touchStart :=
  ⟨SemQueue.fifo_start (CircularBuffer.represents_clear (by decide) _), rfl⟩

/-- With no post outstanding and no read under way a ring in order is drained. -/
theorem drained_of_fifo {q : SemQueue PlTouchInfo PlTouchInfo}
    (h : q.Fifo maxTouchMsgSize id) (hsem : q.sem = 0) (hposting : q.posting = false)
    (htaking : q.taking = false) : Drained q := by
  obtain ⟨l, hl⟩ := h
  have hlen : l.length = 0 := by
    rw [← hl.sem_eq, hsem, hposting, htaking]
    rfl
  obtain rfl := List.eq_nil_of_length_eq_zero hlen
  exact ⟨hsem, hposting, htaking, by rw [hl.stored_eq, List.append_nil]⟩

/-- A drained ring with both points at the start is in order again. -/
theorem Drained.fifo {q : SemQueue PlTouchInfo PlTouchInfo} (h : Drained q)
    (hread : q.buffer.readPoint = 0) (hwrite : q.buffer.writePoint = 0) :
    q.Fifo maxTouchMsgSize id := by
  refine ⟨[], CircularBuffer.represents_nil (by rw [hread]; decide) (hwrite.trans hread.symm),
    ?_, ?_⟩
  · rw [h.stored_eq, List.append_nil]
  · rw [h.sem_eq, h.posting_eq, h.taking_eq]
    rfl

theorem RingInOrder.step (h : s.RingInOrder)
    (hcond : nothingOutstanding s a ∧ atMostHundredUnread s a) (hstep : s.step a = some t) :
    t.RingInOrder := by
  unfold RingInOrder at h
  cases a with
  | socketConn connected =>
    obtain ⟨hthread, rfl⟩ := step_socketConn hstep
    rw [hthread] at h
    exact h
  | resetReadPoint =>
    obtain ⟨connected, hthread, rfl⟩ := step_resetReadPoint hstep
    rw [hthread] at h
    -- the condition is that nothing is outstanding when the reset begins
    have hdrained := drained_of_fifo h.1 hcond.1.1 h.2 hcond.1.2
    exact ⟨⟨hdrained.sem_eq, hdrained.posting_eq, hdrained.taking_eq, hdrained.stored_eq⟩, rfl⟩
  | resetWritePoint =>
    obtain ⟨connected, hthread, rfl⟩ := step_resetWritePoint hstep
    rw [hthread] at h
    exact ⟨⟨h.1.sem_eq, h.1.posting_eq, h.1.taking_eq, h.1.stored_eq⟩, h.2, rfl⟩
  | memsetTouchmsg =>
    obtain ⟨connected, hthread, rfl⟩ := step_memsetTouchmsg hstep
    rw [hthread] at h
    obtain ⟨hdrained, hread, hwrite⟩ := h
    have hcleared : Drained { s.touchmsg with
        buffer := { s.touchmsg.buffer with slots := fun _ => PlTouchInfo.zero } } :=
      ⟨hdrained.sem_eq, hdrained.posting_eq, hdrained.taking_eq, hdrained.stored_eq⟩
    -- the reset is complete: the ring is in order again, connected or not
    cases connected with
    | true => exact hcleared.fifo hread hwrite
    | false => exact ⟨hcleared.fifo hread hwrite, hdrained.posting_eq⟩
  | send record =>
    obtain rfl := step_send hstep
    exact h
  | recv =>
    obtain ⟨record, rest, q, hthread, -, hq, rfl⟩ := step_recv hstep
    rw [hthread] at h
    have hfifo : q.Fifo maxTouchMsgSize id := h.put hcond.2 rfl hq
    simpa only [RingInOrder, hthread] using hfifo
  | semPost =>
    obtain ⟨q, hq, rfl⟩ := Option.map_eq_some_iff.mp hstep
    -- a post is outstanding only while receiving
    have hposting := (SemQueue.post_eq_some.mp hq).1
    cases hthread : s.thread with
    | receiving =>
      simp only [hthread, RingInOrder] at h ⊢
      exact h.post hq
    | connecting | resetReadPoint _ =>
      simp only [hthread] at h
      exact absurd (hposting.symm.trans h.2) (by simp)
    | resetWritePoint _ | memsetTouchmsg _ =>
      simp only [hthread] at h
      exact absurd (hposting.symm.trans h.1.posting_eq) (by simp)
  | disconnect =>
    obtain ⟨hidle, rfl⟩ := step_disconnect hstep
    rw [hidle.1] at h
    exact ⟨h, hidle.2⟩
  | semWait =>
    obtain ⟨q, hq, rfl⟩ := Option.map_eq_some_iff.mp hstep
    -- the semaphore is zero during a reset
    obtain ⟨⟨_, hpos⟩, hwait⟩ := SemQueue.wait_eq_some.mp hq
    cases hthread : s.thread with
    | receiving =>
      simp only [hthread, RingInOrder] at h ⊢
      exact h.wait hq
    | connecting | resetReadPoint _ =>
      simp only [hthread, RingInOrder] at h ⊢
      exact ⟨h.1.wait hq, hwait ▸ h.2⟩
    | resetWritePoint _ | memsetTouchmsg _ =>
      simp only [hthread] at h
      exact absurd h.1.sem_eq hpos.ne'
  | readTouchmsgSemData =>
    obtain ⟨q, hq, rfl⟩ := Option.map_eq_some_iff.mp hstep
    obtain ⟨htaking, htake⟩ := SemQueue.take_eq_some.mp hq
    -- nobody is between wait and read during a reset
    cases hthread : s.thread with
    | receiving =>
      simp only [hthread, RingInOrder] at h ⊢
      exact h.take hq
    | connecting | resetReadPoint _ =>
      simp only [hthread, RingInOrder] at h ⊢
      exact ⟨h.1.take hq, htake ▸ h.2⟩
    | resetWritePoint _ | memsetTouchmsg _ =>
      simp only [hthread] at h
      exact absurd (htaking.symm.trans h.1.taking_eq) (by simp)

/-- What has been taken from the ring is a prefix of what was stored, during a
reset as well. -/
theorem RingInOrder.taken_isPrefix (h : s.RingInOrder) :
    s.touchmsg.taken <+: s.touchmsg.stored := by
  unfold RingInOrder at h
  cases hthread : s.thread with
  | receiving =>
    rw [hthread] at h
    exact h.taken_isPrefix
  | connecting | resetReadPoint _ =>
    rw [hthread] at h
    exact h.1.taken_isPrefix
  | resetWritePoint _ | memsetTouchmsg _ =>
    rw [hthread] at h
    rw [h.1.stored_eq]

end TouchLink

/-- **Touch records survive reconnects** along every run in which no more than a
hundred are unread and each reset finds every stored record delivered: the records
delivered are a prefix of those sent on the first connection, then a prefix of those
sent on the second, and so on to the present one. -/
theorem touchRecords_inOrder {s : TouchLink} {acts : List TouchAction}
    (hrun : exec TouchLink.step touchStart acts = some s)
    (hunread : Meets TouchLink.step atMostHundredUnread touchStart acts)
    (hcond : Meets TouchLink.step nothingOutstanding touchStart acts) :
    ∃ parts, s.touchmsg.taken = parts.flatten ∧
      List.Forall₂ (· <+: ·) parts (s.sentBefore ++ [s.sent]) := by
  have hring : s.RingInOrder :=
    exec_invariant_of_meets TouchLink.RingInOrder (fun _ _ _ h hc hstep => h.step hc hstep)
      TouchLink.touchStart_ringInOrder (hcond.and hunread) hrun
  have hreceived : s.Received :=
    exec_invariant TouchLink.Received (fun _ _ _ h hstep => h.step hstep)
      TouchLink.touchStart_received hrun
  exact hreceived.prefixesOf.of_isPrefix hring.taken_isPrefix

/-- Connect and reset. -/
def connectTouch : List TouchAction :=
  [.socketConn true, .resetReadPoint, .resetWritePoint, .memsetTouchmsg]

/-- A touch at `(7, 9)`. -/
def touchDown : PlTouchInfo := ⟨7, 9, 1, 0, 0, 0, 0⟩

theorem touchRecords_inOrder_reconnect :
    let s := (exec TouchLink.step touchStart
      (connectTouch ++ [.send touchDown, .recv, .semPost, .semWait, .readTouchmsgSemData,
        .disconnect] ++ connectTouch)).get (by decide)
    ∃ parts, s.touchmsg.taken = parts.flatten ∧
      List.Forall₂ (· <+: ·) parts (s.sentBefore ++ [s.sent]) :=
  touchRecords_inOrder (Option.some_get _).symm (by decide) (by decide)

/-- A record stored and not yet delivered when the connection is replaced: the touch
thread is woken and delivers a zeroed slot, which the HMI never sent. -/
theorem reconnect_delivers_zeroed_slot :
    Meets TouchLink.step atMostHundredUnread touchStart
        (connectTouch ++ [.send touchDown, .recv, .semPost, .disconnect] ++ connectTouch ++
          [.semWait, .readTouchmsgSemData]) ∧
      (exec TouchLink.step touchStart
          (connectTouch ++ [.send touchDown, .recv, .semPost, .disconnect] ++ connectTouch ++
            [.semWait, .readTouchmsgSemData])).map
        (fun s => (s.touchmsg.taken, s.sentBefore ++ [s.sent])) =
      some ([PlTouchInfo.zero], [[touchDown], []]) := by
  decide

end PhoneLink
