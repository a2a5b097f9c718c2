import PhoneLink.Bluetooth.EventQueue
import PhoneLink.HeadUnit.Acknowledgement
import PhoneLink.HeadUnit.Machine
import PhoneLink.Hmi.Reconnect
import PhoneLink.Hmi.TouchQueue

/-!
# The whole program

Events, messages and touches each reach the program through a ring of their own, with a
thread on either side of it; `main` wakes up now and then. The threads that deal with what
the rings deliver share the state of the head unit. Here all of them run together, but a
handler is one step: what comes of handlers that overlap while one of them waits for an ACK
is not covered, and for the sends in them is what `SendSystem` is about. Which inputs a thread
deals with, and in which order, does not depend on it.

With handlers done one at a time the head unit is where it would be after dealing with one
input after the other. This carries what is proved about runs of `HeadUnit.step` over to the
program.

## Main definitions

* `Input`: what one of the threads is given to deal with
* `Program.step`: the rings, their threads and the head unit

## Main results

* `Linear.step`, `Linear.of_idle`: the head unit has dealt with inputs one after the other,
  which are the first of those received, in order, and all of them when the program is idle
-/

namespace PhoneLink

open CS CS.Transition

/-! ### Inputs -/

/-- `MsgType`, the first four bytes of a message, lowest first. -/
def PlMsgInfo.code (msg : PlMsgInfo) : ℕ :=
  (msg.bytes.take 4).foldr (fun b code => b.toNat + 256 * code) 0

/-- The values of `PL_MsgType_t` that are sent or dealt with. -/
def PlMsgInfo.msgType (msg : PlMsgInfo) : PlMsgType :=
  match msg.code with
  | 0x02 => .wmPlinkParkPlay
  | 0x03 => .wmPlinkParkStop
  | 0x04 => .wmPlinkParkReq
  | 0x06 => .wmPlinkConnectStatusReq
  | 0x07 => .wmPlinkConnectStatus
  | 0x10 => .wmPlinkMiracastConnect
  | 0x11 => .wmPlinkMiracastDisconnect
  | 0x13 => .wmPlinkScreenDirection
  | 0x14 => .wmPlinkScreenDirectionReq
  | 0x15 => .wmPlinkScreenDirectionSet
  | 0x18 => .wmPlinkHardkeyHomeDown
  | 0x1C => .wmPlinkHardkeyBackDown
  | 0x32 => .wmPlinkDalinkStatus
  | 0x33 => .wmPlinkDalinkStatusReq
  | 0x34 => .wmPlinkStartDalink
  | 0x35 => .wmPlinkPhoneTimeReq
  | 0x36 => .wmPlinkPhoneTime
  | 0x37 => .wmPlinkPhoneSiriReq
  | 0x39 => .wmPlinkDalinkMainmenuStatus
  | 0x3A => .wmPlinkDalinkMainmenuStatusReq
  | _ => .other

/-- What a thread is given to deal with. -/
inductive Input
  /-- An event, with the answers of `check_Connect` while it is dealt with. -/
  | event (btMsg : BtCsMsg) (checkConnect : Profile → ℤ)
  | message (msg : PlMsgInfo)
  /-- A touch record, with what the clock reads. -/
  | touch (record : PlTouchInfo) (tick tickAfter : UInt32)
  | timer

namespace Input

/-- What the head unit does about an input. -/
def actions : Input → List HeadAction
  | event btMsg checkConnect =>
    if btMsg.eEventType = btMsgUpdatePairList then [.updatePairList checkConnect]
    else if btMsg.eEventType = btMsgSppReviceData then
      (handed btMsg.nDataLen btMsg.szData 0).map fun p =>
        .packet (btMsg.szData.shift p.packetHeader) btMsg.nDataLen
    else []
  | message msg => [.hmi msg.msgType]
  | touch record tick tickAfter =>
    if record.serialNum = 1 then
      [.doubleTouch record.x.toNat record.y.toNat record.flag record.x1.toNat record.y1.toNat
        record.flag1 tick tickAfter]
    else if record.serialNum = 0 then
      [.touch record.x.toNat record.y.toNat record.flag tick tickAfter]
    else []
  | timer => [.timer]

/-- An event as its thread sees it: the content, and all that the buffer holds. -/
def event? : Input → Option (EventContent × Memory)
  | event btMsg _ => some (btMsg.content, btMsg.szData)
  | _ => none

def message? : Input → Option PlMsgInfo
  | message msg => some msg
  | _ => none

def touch? : Input → Option PlTouchInfo
  | touch record _ _ => some record
  | _ => none

end Input

namespace HeadUnit

/-- The `switch` of `bt_msg_process_thread`. -/
def dealWithEvent (btMsg : BtCsMsg) (checkConnect : Profile → ℤ) (s : HeadUnit) : HeadUnit :=
  if btMsg.eEventType = btMsgUpdatePairList then s.step (.updatePairList checkConnect)
  else if btMsg.eEventType = btMsgSppReviceData then
    phoneAppMsgDeal (dispatch btMsg.szData) btMsg.nDataLen btMsg.szData s
  else s

/-- One pass of `deal_with_touchmsg_thread`. -/
def dealWithTouchmsg (record : PlTouchInfo) (tick tickAfter : UInt32) (s : HeadUnit) : HeadUnit :=
  if record.serialNum = 1 then
    s.step (.doubleTouch record.x.toNat record.y.toNat record.flag record.x1.toNat
      record.y1.toNat record.flag1 tick tickAfter)
  else if record.serialNum = 0 then
    s.step (.touch record.x.toNat record.y.toNat record.flag tick tickAfter)
  else s

theorem dealWithEvent_eq (btMsg : BtCsMsg) (checkConnect : Profile → ℤ) (s : HeadUnit) :
    s.dealWithEvent btMsg checkConnect = run step s (Input.event btMsg checkConnect).actions := by
  dsimp only [dealWithEvent, Input.actions]
  split_ifs
  · rfl
  · -- the loop calls the dispatcher once for every packet it finds
    rw [phoneAppMsgDeal_eq_foldl, run, List.foldl_map]
    rfl
  · rfl

theorem dealWithTouchmsg_eq (record : PlTouchInfo) (tick tickAfter : UInt32) (s : HeadUnit) :
    s.dealWithTouchmsg record tick tickAfter =
      run step s (Input.touch record tick tickAfter).actions := by
  dsimp only [dealWithTouchmsg, Input.actions]
  split_ifs <;> rfl

end HeadUnit

/-! ### The threads together -/

/-- The rings with the threads that fill them, the head unit, and what each of the other
threads has taken out of its ring and not yet dealt with. The handlers do not overlap. -/
structure Program where
  events : EventLink
  messages : MainappConnection
  touches : TouchLink
  unit : HeadUnit
  btMsg : Option BtCsMsg
  hmiMsg : Option PlMsgInfo
  touchMsg : Option PlTouchInfo
  /-- History: what has been dealt with, in order. -/
  handled : List Input

inductive ProgramAction
  | event (a : EventAction)
  | message (a : ConnectionAction)
  | touch (a : TouchAction)
  | dealWithEvent (checkConnect : Profile → ℤ)
  | dealWithHmiData
  | dealWithTouchmsg (tick tickAfter : UInt32)
  | timer

def EventAction.waits : EventAction → Bool
  | waitBtResponse => true
  | _ => false

def EventAction.takes : EventAction → Bool
  | waitBtCommand => true
  | _ => false

def ConnectionAction.waits : ConnectionAction → Bool
  | link .semWait => true
  | _ => false

def ConnectionAction.takes : ConnectionAction → Bool
  | link .readHmimsgSemData => true
  | _ => false

def TouchAction.waits : TouchAction → Bool
  | semWait => true
  | _ => false

def TouchAction.takes : TouchAction → Bool
  | readTouchmsgSemData => true
  | _ => false

namespace Program

/-- What a thread is working on after a step of its ring; none of its own steps comes
before it is done. -/
def fetch {α : Type} (current : Option α) (isWait isTake : Bool) (taken : α) :
    Option (Option α) :=
  if current.isSome ∧ (isWait ∨ isTake) then none
  else some (if isTake then some taken else current)

def step (s : Program) : ProgramAction → Option Program
  | .event a => (s.events.step a).bind fun events =>
    (fetch s.btMsg a.waits a.takes events.btMsg).map fun btMsg => { s with events, btMsg }
  | .message a => (s.messages.step a).bind fun messages =>
    (fetch s.hmiMsg a.waits a.takes s.messages.link.hmiMsg.buffer.front).map fun hmiMsg =>
      { s with messages, hmiMsg }
  | .touch a => (s.touches.step a).bind fun touches =>
    (fetch s.touchMsg a.waits a.takes s.touches.touchmsg.buffer.front).map fun touchMsg =>
      { s with touches, touchMsg }
  | .dealWithEvent checkConnect => s.btMsg.map fun btMsg =>
    { s with
      unit := s.unit.dealWithEvent btMsg checkConnect
      btMsg := none
      handled := s.handled ++ [.event btMsg checkConnect] }
  | .dealWithHmiData => s.hmiMsg.map fun msg =>
    { s with
      unit := s.unit.dealWithHmiData msg.msgType
      hmiMsg := none
      handled := s.handled ++ [.message msg] }
  | .dealWithTouchmsg tick tickAfter => s.touchMsg.map fun record =>
    { s with
      unit := s.unit.dealWithTouchmsg record tick tickAfter
      touchMsg := none
      handled := s.handled ++ [.touch record tick tickAfter] }
  | .timer => some { s with unit := s.unit.step .timer, handled := s.handled ++ [.timer] }

/-- After `init_phone_link`. -/
def start (files : Descriptors) (unit : HeadUnit) : Program where
  events := eventStart
  messages := .start files
  touches := touchStart
  unit
  btMsg := none
  hmiMsg := none
  touchMsg := none
  handled := []

/-- Every ring has room for what is stored, and no touch record is outstanding when the
touch connection is made anew. -/
def Orderly (s : Program) : ProgramAction → Prop
  | .event a => fewerThanTenQueued s.events a
  | .message a => s.messages.FewerThanTenUnread a
  | .touch a => nothingOutstanding s.touches a ∧ atMostHundredUnread s.touches a
  | .dealWithEvent _ | .dealWithHmiData | .dealWithTouchmsg _ _ | .timer => True

instance : ∀ (s : Program) (a : ProgramAction), Decidable (s.Orderly a)
  | s, .event a => inferInstanceAs (Decidable (fewerThanTenQueued s.events a))
  | s, .message a => inferInstanceAs (Decidable (s.messages.FewerThanTenUnread a))
  | s, .touch a => inferInstanceAs (Decidable (nothingOutstanding s.touches a ∧ _))
  | _, .dealWithEvent _ | _, .dealWithHmiData | _, .dealWithTouchmsg _ _ | _, .timer =>
    isTrue trivial

end Program

/-! ### What is taken out of the rings -/

/-- Contents copied one after the other over the same buffer: each, with all the buffer
holds then. -/
def overlaid (m : Memory) : List EventContent → List (EventContent × Memory)
  | [] => []
  | c :: cs => (c, .overlay c.data m) :: overlaid (.overlay c.data m) cs

/-- The buffer afterwards. -/
def buffered (m : Memory) (cs : List EventContent) : Memory :=
  cs.foldl (fun m c => .overlay c.data m) m

theorem overlaid_concat (m : Memory) (cs : List EventContent) (c : EventContent) :
    overlaid m (cs ++ [c]) = overlaid m cs ++ [(c, .overlay c.data (buffered m cs))] := by
  induction cs generalizing m with
  | nil => rfl
  | cons d cs ih => exact congrArg _ (ih _)

theorem take_overlaid (n : ℕ) (m : Memory) (cs : List EventContent) :
    (overlaid m cs).take n = overlaid m (cs.take n) := by
  induction cs generalizing m n with
  | nil => rw [overlaid, List.take_nil, List.take_nil, overlaid]
  | cons c cs ih =>
    cases n with
    | zero => rfl
    | succ n => rw [overlaid, List.take_succ_cons, List.take_succ_cons, overlaid, ih]

theorem buffered_concat (m : Memory) (cs : List EventContent) (c : EventContent) :
    buffered m (cs ++ [c]) = .overlay c.data (buffered m cs) :=
  List.foldl_concat _ _ _ _

/-- A copied event is its content over what the destination held. -/
theorem BtCsMsg.szData_copyTo (pMsg dst : BtCsMsg) :
    (pMsg.copyTo dst).szData = .overlay pMsg.content.data dst.szData :=
  Memory.copy_overlay [] dst.szData pMsg.szData pMsg.nDataLen

theorem EventLink.returned_step {s t : EventLink} {a : EventAction} (h : s.step a = some t) :
    (t.returned = if a.takes then s.returned ++ [t.btMsg.content] else s.returned) ∧
      t.btMsg.szData =
        if a.takes then .overlay t.btMsg.content.data s.btMsg.szData else s.btMsg.szData := by
  cases a with
  | bluetoothSppDataProc pMsg =>
    simp only [EventLink.step] at h
    split_ifs at h
    · obtain ⟨q, -, rfl⟩ := Option.map_eq_some_iff.mp h
      exact ⟨rfl, rfl⟩
    · obtain rfl := Option.some.inj h
      exact ⟨rfl, rfl⟩
  | semPost | waitBtResponse =>
    obtain ⟨q, -, rfl⟩ := Option.map_eq_some_iff.mp h
    exact ⟨rfl, rfl⟩
  | setPhoneType var =>
    obtain rfl := Option.some.inj h
    exact ⟨rfl, rfl⟩
  | waitBtCommand =>
    obtain ⟨q, -, rfl⟩ := Option.map_eq_some_iff.mp h
    have hszData := s.phonestateSem.buffer.front.szData_copyTo s.btMsg
    exact ⟨rfl, BtCsMsg.content_copyTo s.phonestateSem.buffer.front s.btMsg ▸ hszData⟩

theorem MainappConnection.taken_step {s t : MainappConnection} {a : ConnectionAction}
    (h : s.step a = some t) :
    t.link.hmiMsg.taken = if a.takes then
      s.link.hmiMsg.taken ++ [s.link.hmiMsg.buffer.front] else s.link.hmiMsg.taken := by
  cases a with
  | socketConn result =>
    obtain ⟨-, fd, files, -, rfl⟩ := step_socketConn h
    rfl
  | link b =>
    obtain ⟨-, link, hlink, rfl⟩ := step_link h
    cases b with
    | send msg =>
      obtain rfl := Option.some.inj hlink
      rfl
    | recv ret =>
      obtain ⟨-, rfl⟩ := HmiLink.step_recv hlink
      rfl
    | writeHmimsgSemData =>
      obtain ⟨msg, -, -, q, hq, rfl⟩ := HmiLink.step_writeHmimsgSemData hlink
      obtain ⟨-, rfl⟩ := SemQueue.put_eq_some.mp hq
      rfl
    | semPost =>
      obtain ⟨q, hq, rfl⟩ := Option.map_eq_some_iff.mp hlink
      obtain ⟨-, rfl⟩ := SemQueue.post_eq_some.mp hq
      rfl
    | semWait =>
      obtain ⟨q, hq, rfl⟩ := Option.map_eq_some_iff.mp hlink
      obtain ⟨-, rfl⟩ := SemQueue.wait_eq_some.mp hq
      rfl
    | readHmimsgSemData =>
      obtain ⟨q, hq, rfl⟩ := Option.map_eq_some_iff.mp hlink
      obtain ⟨-, rfl⟩ := SemQueue.take_eq_some.mp hq
      rfl
  | disconnect =>
    obtain ⟨-, rfl⟩ := step_disconnect h
    rfl
  | openOther fd =>
    obtain ⟨files, -, rfl⟩ := Option.map_eq_some_iff.mp h
    rfl
  | closeOther fd =>
    obtain ⟨-, rfl⟩ := step_closeOther h
    rfl

theorem TouchLink.taken_step {s t : TouchLink} {a : TouchAction} (h : s.step a = some t) :
    t.touchmsg.taken = if a.takes then s.touchmsg.taken ++ [s.touchmsg.buffer.front]
      else s.touchmsg.taken := by
  cases a with
  | socketConn connected =>
    obtain ⟨-, rfl⟩ := step_socketConn h
    rfl
  | resetReadPoint =>
    obtain ⟨connected, -, rfl⟩ := step_resetReadPoint h
    rfl
  | resetWritePoint =>
    obtain ⟨connected, -, rfl⟩ := step_resetWritePoint h
    rfl
  | memsetTouchmsg =>
    obtain ⟨connected, -, rfl⟩ := step_memsetTouchmsg h
    rfl
  | send record =>
    obtain rfl := step_send h
    rfl
  | recv =>
    obtain ⟨record, rest, q, -, -, hq, rfl⟩ := step_recv h
    obtain ⟨-, rfl⟩ := SemQueue.put_eq_some.mp hq
    rfl
  | semPost =>
    obtain ⟨q, hq, rfl⟩ := Option.map_eq_some_iff.mp h
    obtain ⟨-, rfl⟩ := SemQueue.post_eq_some.mp hq
    rfl
  | disconnect =>
    obtain ⟨-, rfl⟩ := step_disconnect h
    rfl
  | semWait =>
    obtain ⟨q, hq, rfl⟩ := Option.map_eq_some_iff.mp h
    obtain ⟨-, rfl⟩ := SemQueue.wait_eq_some.mp hq
    rfl
  | readTouchmsgSemData =>
    obtain ⟨q, hq, rfl⟩ := Option.map_eq_some_iff.mp h
    obtain ⟨-, rfl⟩ := SemQueue.take_eq_some.mp hq
    rfl

/-! ### One input after the other -/

namespace Program

variable {s t : Program} {a : ProgramAction} {unit : HeadUnit}

theorem fetch_toList {α : Type} {current next : Option α} {isWait isTake : Bool} {taken : α}
    (h : fetch current isWait isTake taken = some next) :
    next.toList = if isTake then current.toList ++ [taken] else current.toList := by
  unfold fetch at h
  split_ifs at h with hbusy htake
  · obtain rfl := Option.some.inj h
    -- a thread that takes something has dealt with what it took before
    have hidle : current = none := by
      rw [← Option.not_isSome_iff_eq_none]
      exact fun hsome => hbusy ⟨hsome, .inr htake⟩
    rw [if_pos htake, hidle]
    rfl
  · obtain rfl := Option.some.inj h
    rw [if_neg htake]

/-- A thread that sees part of what it takes. -/
theorem fetch_map {α β : Type} {current next : Option α} {isWait isTake : Bool} {taken : α}
    (f : α → β) (h : fetch current isWait isTake taken = some next) :
    fetch (current.map f) isWait isTake (f taken) = some (next.map f) := by
  unfold fetch at h ⊢
  rw [Option.isSome_map]
  split_ifs at h ⊢
  · obtain rfl := Option.some.inj h
    rfl
  · obtain rfl := Option.some.inj h
    rfl

/-- What a thread has dealt with, and what it is working on, is what it has taken out of its
ring. -/
theorem fetched_of_fetch {α : Type} {done taken taken' : List α} {current next : Option α}
    {isWait isTake : Bool} {x : α} (hdone : done ++ current.toList = taken)
    (hfetch : fetch current isWait isTake x = some next)
    (htaken : taken' = if isTake then taken ++ [x] else taken) : done ++ next.toList = taken' := by
  rw [fetch_toList hfetch, htaken, ← hdone]
  split_ifs
  · exact (List.append_assoc _ _ _).symm
  · rfl

/-- An event as its thread sees it. -/
def seen (btMsg : BtCsMsg) : EventContent × Memory := (btMsg.content, btMsg.szData)

/-- What each thread has dealt with, and what it is working on, is what has been taken out of
its ring; and the events are seen with what the buffer held. -/
structure Fetched (s : Program) : Prop where
  events : s.handled.filterMap Input.event? ++ (s.btMsg.map seen).toList =
    overlaid .zero s.events.returned
  szData_eq : s.events.btMsg.szData = buffered .zero s.events.returned
  messages : s.handled.filterMap Input.message? ++ s.hmiMsg.toList = s.messages.link.hmiMsg.taken
  touches : s.handled.filterMap Input.touch? ++ s.touchMsg.toList = s.touches.touchmsg.taken

theorem fetched_start (files : Descriptors) (unit : HeadUnit) : (start files unit).Fetched :=
  ⟨rfl, rfl, rfl, rfl⟩

theorem step_event {b : EventAction} (h : s.step (.event b) = some t) :
    ∃ events btMsg, s.events.step b = some events ∧
      fetch s.btMsg b.waits b.takes events.btMsg = some btMsg ∧ t = { s with events, btMsg } := by
  obtain ⟨events, hevents, hfetched⟩ := Option.bind_eq_some_iff.mp h
  obtain ⟨btMsg, hfetch, rfl⟩ := Option.map_eq_some_iff.mp hfetched
  exact ⟨events, btMsg, hevents, hfetch, rfl⟩

theorem step_message {b : ConnectionAction} (h : s.step (.message b) = some t) :
    ∃ messages hmiMsg, s.messages.step b = some messages ∧
      fetch s.hmiMsg b.waits b.takes s.messages.link.hmiMsg.buffer.front = some hmiMsg ∧
      t = { s with messages, hmiMsg } := by
  obtain ⟨messages, hmessages, hfetched⟩ := Option.bind_eq_some_iff.mp h
  obtain ⟨hmiMsg, hfetch, rfl⟩ := Option.map_eq_some_iff.mp hfetched
  exact ⟨messages, hmiMsg, hmessages, hfetch, rfl⟩

theorem step_touch {b : TouchAction} (h : s.step (.touch b) = some t) :
    ∃ touches touchMsg, s.touches.step b = some touches ∧
      fetch s.touchMsg b.waits b.takes s.touches.touchmsg.buffer.front = some touchMsg ∧
      t = { s with touches, touchMsg } := by
  obtain ⟨touches, htouches, hfetched⟩ := Option.bind_eq_some_iff.mp h
  obtain ⟨touchMsg, hfetch, rfl⟩ := Option.map_eq_some_iff.mp hfetched
  exact ⟨touches, touchMsg, htouches, hfetch, rfl⟩

/-- What has been dealt with is no longer worked on. -/
theorem fetched_of_dealt {α : Type} {f : Input → Option α} {done : List Input} {input : Input}
    {x : α} {taken : List α} (h : done.filterMap f ++ (some x).toList = taken)
    (hf : f input = some x) :
    (done ++ [input]).filterMap f ++ (none : Option α).toList = taken := by
  rw [filterMap_concat_of_some hf, ← h]
  exact List.append_nil _

/-- The other threads go on with what they have. -/
theorem fetched_of_other {α : Type} {f : Input → Option α} {done : List Input} {input : Input}
    {current : Option α} {taken : List α} (h : done.filterMap f ++ current.toList = taken)
    (hf : f input = none) : (done ++ [input]).filterMap f ++ current.toList = taken := by
  rw [filterMap_concat_of_none hf, h]

theorem Fetched.step (h : s.Fetched) (hstep : s.step a = some t) : t.Fetched := by
  cases a with
  | event b =>
    obtain ⟨events, btMsg, hevents, hfetch, rfl⟩ := step_event hstep
    obtain ⟨hreturned, hszData⟩ := EventLink.returned_step hevents
    refine { h with
      events := fetched_of_fetch h.events (fetch_map seen hfetch) ?_
      szData_eq := ?_ }
    · dsimp only
      rw [hreturned]
      split_ifs with htake
      · rw [if_pos htake] at hszData
        rw [overlaid_concat, ← h.szData_eq, ← hszData]
        rfl
      · rfl
    · dsimp only
      rw [hreturned, hszData]
      split_ifs
      · rw [buffered_concat, h.szData_eq]
      · exact h.szData_eq
  | message b =>
    obtain ⟨messages, hmiMsg, hmessages, hfetch, rfl⟩ := step_message hstep
    exact { h with
      messages := fetched_of_fetch h.messages hfetch (MainappConnection.taken_step hmessages) }
  | touch b =>
    obtain ⟨touches, touchMsg, htouches, hfetch, rfl⟩ := step_touch hstep
    exact { h with
      touches := fetched_of_fetch h.touches hfetch (TouchLink.taken_step htouches) }
  | dealWithEvent checkConnect =>
    obtain ⟨btMsg, hbtMsg, rfl⟩ := Option.map_eq_some_iff.mp hstep
    have hevents := h.events
    rw [hbtMsg] at hevents
    exact { h with
      events := fetched_of_dealt hevents rfl
      messages := fetched_of_other h.messages rfl
      touches := fetched_of_other h.touches rfl }
  | dealWithHmiData =>
    obtain ⟨msg, hmsg, rfl⟩ := Option.map_eq_some_iff.mp hstep
    have hmessages := h.messages
    rw [hmsg] at hmessages
    exact { h with
      events := fetched_of_other h.events rfl
      messages := fetched_of_dealt hmessages rfl
      touches := fetched_of_other h.touches rfl }
  | dealWithTouchmsg tick tickAfter =>
    obtain ⟨record, hrecord, rfl⟩ := Option.map_eq_some_iff.mp hstep
    have htouches := h.touches
    rw [hrecord] at htouches
    exact { h with
      events := fetched_of_other h.events rfl
      messages := fetched_of_other h.messages rfl
      touches := fetched_of_dealt htouches rfl }
  | timer =>
    obtain rfl := Option.some.inj hstep
    exact { h with
      events := fetched_of_other h.events rfl
      messages := fetched_of_other h.messages rfl
      touches := fetched_of_other h.touches rfl }

/-- The head unit has dealt with the inputs one after the other, and they are those taken out
of the rings, which are in order. -/
structure Linear (unit : HeadUnit) (s : Program) : Prop where
  unit_eq : s.unit = run HeadUnit.step unit (s.handled.flatMap Input.actions)
  fetched : s.Fetched
  events : s.events.InOrder
  messages : s.messages.Deframed
  touches : s.touches.RingInOrder ∧ s.touches.Received

theorem linear_start (files : Descriptors) (unit : HeadUnit) : Linear unit (start files unit) where
  unit_eq := rfl
  fetched := fetched_start files unit
  events := eventStart_inOrder
  messages := MainappConnection.start_deframed files
  touches := ⟨TouchLink.touchStart_ringInOrder, TouchLink.touchStart_received⟩

/-- The head unit has dealt with the inputs so far, one after the other. -/
theorem unit_eq_step (h : s.unit = run HeadUnit.step unit (s.handled.flatMap Input.actions))
    (hstep : s.step a = some t) :
    t.unit = run HeadUnit.step unit (t.handled.flatMap Input.actions) := by
  have hone (input : Input) : run HeadUnit.step s.unit input.actions =
      run HeadUnit.step unit ((s.handled ++ [input]).flatMap Input.actions) := by
    rw [List.flatMap_append, List.flatMap_singleton, run_append, ← h]
  cases a with
  -- the rings do not touch the head unit
  | event b =>
    obtain ⟨events, btMsg, -, -, rfl⟩ := step_event hstep
    exact h
  | message b =>
    obtain ⟨messages, hmiMsg, -, -, rfl⟩ := step_message hstep
    exact h
  | touch b =>
    obtain ⟨touches, touchMsg, -, -, rfl⟩ := step_touch hstep
    exact h
  -- each handler is one more input
  | dealWithEvent checkConnect =>
    obtain ⟨btMsg, -, rfl⟩ := Option.map_eq_some_iff.mp hstep
    exact (HeadUnit.dealWithEvent_eq _ _ _).trans (hone _)
  | dealWithHmiData =>
    obtain ⟨msg, -, rfl⟩ := Option.map_eq_some_iff.mp hstep
    exact hone (.message msg)
  | dealWithTouchmsg tick tickAfter =>
    obtain ⟨record, -, rfl⟩ := Option.map_eq_some_iff.mp hstep
    exact (HeadUnit.dealWithTouchmsg_eq _ _ _ _).trans (hone _)
  | timer =>
    obtain rfl := Option.some.inj hstep
    exact hone .timer

theorem Linear.step (h : Linear unit s) (horderly : s.Orderly a) (hstep : s.step a = some t) :
    Linear unit t := by
  have hunit := unit_eq_step h.unit_eq hstep
  have hfetched := h.fetched.step hstep
  cases a with
  | event b =>
    obtain ⟨events, btMsg, hevents, -, rfl⟩ := step_event hstep
    exact { h with fetched := hfetched, events := h.events.step horderly hevents }
  | message b =>
    obtain ⟨messages, hmiMsg, hmessages, -, rfl⟩ := step_message hstep
    exact { h with fetched := hfetched, messages := h.messages.step horderly hmessages }
  | touch b =>
    obtain ⟨touches, touchMsg, htouches, -, rfl⟩ := step_touch hstep
    exact { h with
      fetched := hfetched
      touches := ⟨h.touches.1.step horderly htouches, h.touches.2.step htouches⟩ }
  | dealWithEvent checkConnect | dealWithHmiData | dealWithTouchmsg tick tickAfter =>
    obtain ⟨x, -, rfl⟩ := Option.map_eq_some_iff.mp hstep
    exact { h with unit_eq := hunit, fetched := hfetched }
  | timer =>
    obtain rfl := Option.some.inj hstep
    exact { h with unit_eq := hunit, fetched := hfetched }

/-- Every ring is empty, and every thread has dealt with what it took. -/
structure Idle (s : Program) : Prop where
  events : s.events.phonestateSem.backlog = 0 ∧ s.btMsg = none
  messages : s.messages.AllRead ∧ s.hmiMsg = none
  touches : s.touches.touchmsg.backlog = 0 ∧ s.touchMsg = none

/-- The events dealt with are the first of those queued. -/
theorem Linear.exists_contents (h : Linear unit s) :
    ∃ contents, contents <+: s.events.phonestateSem.stored ∧
      s.handled.filterMap Input.event? = overlaid .zero contents := by
  have hreturned := h.events.returned_eq ▸ h.events.fifo.taken_isPrefix
  refine ⟨s.events.returned.take (s.handled.filterMap Input.event?).length,
    (List.take_prefix _ _).trans hreturned, ?_⟩
  rw [← take_overlaid, ← h.fetched.events, List.take_left]

/-- With no backlog all touch records stored have been taken, between the steps of a reset as
well. -/
theorem taken_eq_stored_of_ringInOrder {l : TouchLink} (h : l.RingInOrder)
    (hbacklog : l.touchmsg.backlog = 0) : l.touchmsg.taken = l.touchmsg.stored := by
  unfold TouchLink.RingInOrder at h
  cases hthread : l.thread with
  | receiving =>
    rw [hthread] at h
    exact h.taken_eq_stored hbacklog
  | connecting | resetReadPoint _ =>
    rw [hthread] at h
    exact h.1.taken_eq_stored hbacklog
  | resetWritePoint _ | memsetTouchmsg _ =>
    rw [hthread] at h
    exact h.1.stored_eq.symm

/-- When the program is idle everything received has been dealt with. -/
theorem Linear.of_idle (h : Linear unit s) (hidle : s.Idle) :
    s.handled.filterMap Input.event? = overlaid .zero s.events.phonestateSem.stored ∧
      s.handled.filterMap Input.message? = s.messages.chunks.flatMap wholeMessages ∧
      s.handled.filterMap Input.touch? = s.touches.touchmsg.stored := by
  obtain ⟨⟨hevents, hbtMsg⟩, ⟨⟨hdone, hmessages⟩, hhmiMsg⟩, htouches, htouchMsg⟩ := hidle
  obtain ⟨heventsFetched, -, hmessagesFetched, htouchesFetched⟩ := h.fetched
  rw [hbtMsg, h.events.returned_eq, h.events.fifo.taken_eq_stored hevents] at heventsFetched
  rw [hhmiMsg, h.messages.fifo.taken_eq_stored hmessages] at hmessagesFetched
  rw [htouchMsg, taken_eq_stored_of_ringInOrder h.touches.1 htouches] at htouchesFetched
  have hstored := h.messages.cutUp
  unfold MainappConnection.CutUp at hstored
  rw [hdone.wholeMessages_eq, List.append_nil] at hstored
  rw [hstored] at hmessagesFetched
  exact ⟨(List.append_nil _).symm.trans heventsFetched,
    (List.append_nil _).symm.trans hmessagesFetched,
    (List.append_nil _).symm.trans htouchesFetched⟩

/-- With room in the rings or without. -/
theorem unit_eq_of_exec {files : Descriptors} {acts : List ProgramAction}
    (hrun : exec step (start files unit) acts = some s) :
    s.unit = run HeadUnit.step unit (s.handled.flatMap Input.actions) :=
  exec_invariant (fun s => s.unit = run HeadUnit.step unit (s.handled.flatMap Input.actions))
    (fun _ _ _ h hstep => unit_eq_step h hstep) rfl hrun

theorem linear_of_exec {files : Descriptors} {acts : List ProgramAction}
    (hrun : exec step (start files unit) acts = some s)
    (horderly : Meets step Orderly (start files unit) acts) : Linear unit s :=
  exec_invariant_of_meets (Linear unit) (fun _ _ _ h hc hstep => h.step hc hstep)
    (linear_start files unit) horderly hrun

end Program

/-- The message `WM_PLINK_PARK_PLAY`. -/
def parkPlayMsg : PlMsgInfo where
  bytes := [2, 0, 0, 0] ++ List.replicate 256 0
  length_bytes := by
    rw [List.length_append, List.length_replicate]
    rfl

/-- A message of the HMI, a touch and an event, dealt with in another order than they came. -/
def threeInputs : List ProgramAction :=
  [.message (.socketConn (.connected 3)), .message (.link (.send parkPlayMsg)),
    .touch (.socketConn true), .touch .resetReadPoint, .touch .resetWritePoint,
    .touch .memsetTouchmsg, .touch (.send touchDown),
    .message (.link (.recv 260)), .message (.link .writeHmimsgSemData), .message (.link .semPost),
    .touch .recv, .touch .semPost,
    .event (.bluetoothSppDataProc (hardKeyEvent 1)), .event .semPost,
    .event .waitBtResponse, .event .waitBtCommand, .timer, .dealWithEvent fun _ => 0,
    .touch .semWait, .touch .readTouchmsgSemData, .message (.link .semWait),
    .dealWithTouchmsg 1000 1001, .message (.link .readHmimsgSemData), .dealWithHmiData]

end PhoneLink
