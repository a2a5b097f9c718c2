import PhoneLink.CS.Drain
import PhoneLink.CS.Rest
import PhoneLink.HeadUnit.Program

/-!
# The program comes to rest

What comes in is brought about from outside, and so is the fate of the connections. Whatever
else the threads do they do by themselves, and that ends: a byte is received once, a message is
cut from a chunk once, and what is stored is posted, waited for, taken and dealt with once. So
the program can always be left alone until it has dealt with everything; and even where a ring
had no room, it deals with as many inputs as were stored.

## Main definitions

* `ProgramAction.Own`: the steps that are not brought about from outside
* `Program.AtRest`: nothing is left on a socket, in a ring or with a thread
* `Program.work`: an upper bound for the own steps

## Main results

* `work_lowers`: every own step lowers the work left
* `program_comes_to_rest`: own steps end, and where they end the program is at rest
* `inputs_all_dealt_with`: the program can deal with all that has come in, in order
-/

namespace PhoneLink

open CS CS.Transition

/-! ### What the threads do by themselves -/

def EventAction.Own : EventAction → Prop
  | bluetoothSppDataProc _ | setPhoneType _ => False
  | semPost | waitBtResponse | waitBtCommand => True

def HmiAction.Own : HmiAction → Prop
  | send _ => False
  | recv _ | writeHmimsgSemData | semPost | semWait | readHmimsgSemData => True

def ConnectionAction.Own : ConnectionAction → Prop
  | link a => a.Own
  | socketConn _ | disconnect | openOther _ | closeOther _ => False

def TouchAction.Own : TouchAction → Prop
  | socketConn _ | send _ | disconnect => False
  | resetReadPoint | resetWritePoint | memsetTouchmsg | recv | semPost | semWait
  | readTouchmsgSemData => True

/-- The step is not brought about from outside. -/
def ProgramAction.Own : ProgramAction → Prop
  | event a => a.Own
  | message a => a.Own
  | touch a => a.Own
  | dealWithEvent _ | dealWithHmiData | dealWithTouchmsg _ _ => True
  | timer => False

/-- Nothing is left on a socket, in a ring or with a thread, and no reset is under way. -/
structure Program.AtRest (s : Program) : Prop where
  idle : s.Idle
  messages : s.messages.receiving → s.messages.link.socket = []
  touches : s.touches.thread = .connecting ∨
    s.touches.thread = .receiving ∧ s.touches.socket = []

/-! ### The work left -/

/-- A byte is received, and a byte received is looked at. -/
def HmiLink.work (s : HmiLink) : ℕ :=
  2 * s.socket.length + (s.recBuf.length - s.i) + s.hmiMsg.work

def SocketThread.work : SocketThread → ℕ
  | connecting | receiving => 0
  | memsetTouchmsg _ => 1
  | resetWritePoint _ => 2
  | resetReadPoint _ => 3

def TouchLink.work (s : TouchLink) : ℕ :=
  5 * s.socket.length + s.thread.work + s.touchmsg.work

/-- Each thread that has something to deal with has one step more. -/
def Program.work (s : Program) : ℕ :=
  s.events.phonestateSem.work + s.btMsg.toList.length +
    (s.messages.link.work + s.hmiMsg.toList.length) +
    (s.touches.work + s.touchMsg.toList.length)

theorem EventLink.work_lowers {s t : EventLink} {a : EventAction} (hown : a.Own)
    (h : s.step a = some t) :
    t.phonestateSem.work + a.takes.toNat < s.phonestateSem.work := by
  cases a with
  | bluetoothSppDataProc pMsg | setPhoneType var => exact hown.elim
  | semPost =>
    obtain ⟨q, hq, rfl⟩ := Option.map_eq_some_iff.mp h
    exact (SemQueue.work_post hq).le
  | waitBtResponse =>
    obtain ⟨q, hq, rfl⟩ := Option.map_eq_some_iff.mp h
    exact (SemQueue.work_wait hq).le
  | waitBtCommand =>
    obtain ⟨q, hq, rfl⟩ := Option.map_eq_some_iff.mp h
    exact (SemQueue.work_take hq).le

theorem HmiLink.work_lowers {s t : HmiLink} {a : HmiAction} (hown : a.Own)
    (h : s.step a = some t) :
    t.work + (ConnectionAction.link a).takes.toNat < s.work := by
  unfold work
  cases a with
  | send msg => exact hown.elim
  | recv ret =>
    simp only [HmiLink.step] at h
    split_ifs at h with hbusy hret
    obtain rfl := Option.some.inj h
    -- what was left of the last chunk is not looked at any more
    simp only [ConnectionAction.takes, Bool.toNat_false, List.length_drop, List.length_take]
    omega
  | writeHmimsgSemData =>
    obtain ⟨msg, hwhole, -, q, hq, rfl⟩ := step_writeHmimsgSemData h
    have hwork := SemQueue.work_put hq
    have hsize : sizeofPlMsgInfo = 260 := rfl
    rw [List.length_drop] at hwhole
    simp only [ConnectionAction.takes, Bool.toNat_false]
    omega
  | semPost =>
    obtain ⟨q, hq, rfl⟩ := Option.map_eq_some_iff.mp h
    have hwork := SemQueue.work_post hq
    simp only [ConnectionAction.takes, Bool.toNat_false]
    omega
  | semWait =>
    obtain ⟨q, hq, rfl⟩ := Option.map_eq_some_iff.mp h
    have hwork := SemQueue.work_wait hq
    simp only [ConnectionAction.takes, Bool.toNat_false]
    omega
  | readHmimsgSemData =>
    obtain ⟨q, hq, rfl⟩ := Option.map_eq_some_iff.mp h
    have hwork := SemQueue.work_take hq
    simp only [ConnectionAction.takes, Bool.toNat_true]
    omega

theorem TouchLink.work_lowers {s t : TouchLink} {a : TouchAction} (hown : a.Own)
    (h : s.step a = some t) : t.work + a.takes.toNat < s.work := by
  unfold work
  cases a with
  | socketConn connected | send record | disconnect => exact hown.elim
  | resetReadPoint =>
    obtain ⟨connected, hthread, rfl⟩ := step_resetReadPoint h
    simp only [hthread, SemQueue.work, SocketThread.work, TouchAction.takes, Bool.toNat_false]
    omega
  | resetWritePoint =>
    obtain ⟨connected, hthread, rfl⟩ := step_resetWritePoint h
    simp only [hthread, SemQueue.work, SocketThread.work, TouchAction.takes, Bool.toNat_false]
    omega
  | memsetTouchmsg =>
    obtain ⟨connected, hthread, rfl⟩ := step_memsetTouchmsg h
    have hwork : (if connected then SocketThread.receiving else .connecting).work = 0 := by
      cases connected <;> rfl
    have hmemset : (SocketThread.memsetTouchmsg connected).work = 1 := rfl
    simp only [hthread, hwork, hmemset, SemQueue.work, TouchAction.takes, Bool.toNat_false]
    omega
  | recv =>
    obtain ⟨record, rest, q, -, hsocket, hq, rfl⟩ := step_recv h
    have hwork := SemQueue.work_put hq
    rw [hsocket, List.length_cons]
    simp only [TouchAction.takes, Bool.toNat_false]
    omega
  | semPost =>
    obtain ⟨q, hq, rfl⟩ := Option.map_eq_some_iff.mp h
    have hwork := SemQueue.work_post hq
    simp only [TouchAction.takes, Bool.toNat_false]
    omega
  | semWait =>
    obtain ⟨q, hq, rfl⟩ := Option.map_eq_some_iff.mp h
    have hwork := SemQueue.work_wait hq
    simp only [TouchAction.takes, Bool.toNat_false]
    omega
  | readTouchmsgSemData =>
    obtain ⟨q, hq, rfl⟩ := Option.map_eq_some_iff.mp h
    have hwork := SemQueue.work_take hq
    simp only [TouchAction.takes, Bool.toNat_true]
    omega

namespace Program

variable {s t : Program} {a : ProgramAction}

/-- A thread that takes something has one thing more to deal with. -/
theorem length_fetch {α : Type} {current next : Option α} {isWait isTake : Bool} {taken : α}
    (h : fetch current isWait isTake taken = some next) :
    next.toList.length = current.toList.length + isTake.toNat := by
  rw [fetch_toList h]
  cases isTake with
  | true => exact List.length_append
  | false => rfl

/-- **Every own step lowers the work left.** -/
theorem work_lowers : Lowers step ProgramAction.Own work := by
  intro s a t hown hstep
  unfold work
  cases a with
  | event b =>
    obtain ⟨events, btMsg, hevents, hfetch, rfl⟩ := step_event hstep
    have hwork := EventLink.work_lowers hown hevents
    have hlength := length_fetch hfetch
    dsimp only
    omega
  | message b =>
    obtain ⟨messages, hmiMsg, hmessages, hfetch, rfl⟩ := step_message hstep
    cases b with
    | socketConn result | disconnect | openOther fd | closeOther fd => exact hown.elim
    | link c =>
      obtain ⟨-, link, hlink, rfl⟩ := MainappConnection.step_link hmessages
      have hwork := HmiLink.work_lowers hown hlink
      have hlength := length_fetch hfetch
      dsimp only
      omega
  | touch b =>
    obtain ⟨touches, touchMsg, htouches, hfetch, rfl⟩ := step_touch hstep
    have hwork := TouchLink.work_lowers hown htouches
    have hlength := length_fetch hfetch
    dsimp only
    omega
  | dealWithEvent checkConnect =>
    obtain ⟨btMsg, hbtMsg, rfl⟩ := Option.map_eq_some_iff.mp hstep
    dsimp only
    rw [hbtMsg, Option.toList_none, Option.toList_some, List.length_nil, List.length_singleton]
    omega
  | dealWithHmiData =>
    obtain ⟨msg, hmsg, rfl⟩ := Option.map_eq_some_iff.mp hstep
    dsimp only
    rw [hmsg, Option.toList_none, Option.toList_some, List.length_nil, List.length_singleton]
    omega
  | dealWithTouchmsg tick tickAfter =>
    obtain ⟨record, hrecord, rfl⟩ := Option.map_eq_some_iff.mp hstep
    dsimp only
    rw [hrecord, Option.toList_none, Option.toList_some, List.length_nil, List.length_singleton]
    omega
  | timer => exact hown.elim

end Program

/-! ### What is stored is counted -/

/-- What is queued is counted, and what has been returned was taken. -/
structure EventLink.Counts (s : EventLink) : Prop where
  counted : s.phonestateSem.Counted
  returned_eq : s.returned = s.phonestateSem.taken

theorem EventLink.Counts.step {s t : EventLink} {a : EventAction} (h : s.Counts)
    (hstep : s.step a = some t) : t.Counts := by
  obtain ⟨hcounted, hreturned⟩ := h
  cases a with
  | bluetoothSppDataProc pMsg =>
    simp only [EventLink.step] at hstep
    split_ifs at hstep
    · obtain ⟨q, hq, rfl⟩ := Option.map_eq_some_iff.mp hstep
      refine ⟨hcounted.put hq, ?_⟩
      obtain ⟨-, rfl⟩ := SemQueue.put_eq_some.mp hq
      exact hreturned
    · -- an event that the callback does not let through
      obtain rfl := Option.some.inj hstep
      exact ⟨hcounted, hreturned⟩
  | semPost =>
    obtain ⟨q, hq, rfl⟩ := Option.map_eq_some_iff.mp hstep
    refine ⟨hcounted.post hq, ?_⟩
    obtain ⟨-, rfl⟩ := SemQueue.post_eq_some.mp hq
    exact hreturned
  | setPhoneType var =>
    obtain rfl := Option.some.inj hstep
    exact ⟨hcounted, hreturned⟩
  | waitBtResponse =>
    obtain ⟨q, hq, rfl⟩ := Option.map_eq_some_iff.mp hstep
    refine ⟨hcounted.wait hq, ?_⟩
    obtain ⟨-, rfl⟩ := SemQueue.wait_eq_some.mp hq
    exact hreturned
  | waitBtCommand =>
    obtain ⟨q, hq, rfl⟩ := Option.map_eq_some_iff.mp hstep
    refine ⟨hcounted.take hq, ?_⟩
    obtain ⟨-, rfl⟩ := SemQueue.take_eq_some.mp hq
    dsimp only
    rw [hreturned, BtCsMsg.content_copyTo]

/-- What is cut from the chunks is counted. -/
def MainappConnection.Counts (s : MainappConnection) : Prop := s.link.hmiMsg.Counted

theorem MainappConnection.Counts.step {s t : MainappConnection} {a : ConnectionAction}
    (h : s.Counts) (hstep : s.step a = some t) : t.Counts := by
  cases a with
  | socketConn result =>
    obtain ⟨-, fd, files, -, rfl⟩ := step_socketConn hstep
    exact h
  | link b =>
    obtain ⟨-, link, hlink, rfl⟩ := step_link hstep
    cases b with
    | send msg =>
      obtain rfl := Option.some.inj hlink
      exact h
    | recv ret =>
      obtain ⟨-, rfl⟩ := HmiLink.step_recv hlink
      exact h
    | writeHmimsgSemData =>
      obtain ⟨msg, -, -, q, hq, rfl⟩ := HmiLink.step_writeHmimsgSemData hlink
      exact SemQueue.Counted.put h hq
    | semPost =>
      obtain ⟨q, hq, rfl⟩ := Option.map_eq_some_iff.mp hlink
      exact SemQueue.Counted.post h hq
    | semWait =>
      obtain ⟨q, hq, rfl⟩ := Option.map_eq_some_iff.mp hlink
      exact SemQueue.Counted.wait h hq
    | readHmimsgSemData =>
      obtain ⟨q, hq, rfl⟩ := Option.map_eq_some_iff.mp hlink
      exact SemQueue.Counted.take h hq
  | disconnect =>
    obtain ⟨-, rfl⟩ := step_disconnect hstep
    exact h
  | openOther fd =>
    obtain ⟨files, -, rfl⟩ := Option.map_eq_some_iff.mp hstep
    exact h
  | closeOther fd =>
    obtain ⟨-, rfl⟩ := step_closeOther hstep
    exact h

/-- What is stored is counted, and without a connection nothing is on the socket. -/
structure TouchLink.Counts (s : TouchLink) : Prop where
  counted : s.touchmsg.Counted
  offline : s.thread.isConnected = false → s.socket = []

theorem TouchLink.Counts.step {s t : TouchLink} {a : TouchAction} (h : s.Counts)
    (hstep : s.step a = some t) : t.Counts := by
  obtain ⟨hcounted, hoffline⟩ := h
  cases a with
  | socketConn connected =>
    obtain ⟨hthread, rfl⟩ := step_socketConn hstep
    exact ⟨hcounted, fun _ => hoffline (by rw [hthread]; rfl)⟩
  | resetReadPoint =>
    obtain ⟨connected, hthread, rfl⟩ := step_resetReadPoint hstep
    rw [hthread] at hoffline
    exact ⟨hcounted, hoffline⟩
  | resetWritePoint =>
    obtain ⟨connected, hthread, rfl⟩ := step_resetWritePoint hstep
    rw [hthread] at hoffline
    exact ⟨hcounted, hoffline⟩
  | memsetTouchmsg =>
    obtain ⟨connected, hthread, rfl⟩ := step_memsetTouchmsg hstep
    rw [hthread] at hoffline
    refine ⟨hcounted, fun hconnected => hoffline ?_⟩
    cases connected with
    | true => cases hconnected
    | false => rfl
  | send record =>
    simp only [TouchLink.step] at hstep
    split_ifs at hstep with hconnected
    obtain rfl := Option.some.inj hstep
    exact ⟨hcounted, fun hnot => absurd hconnected (Bool.eq_false_iff.mp hnot)⟩
  | recv =>
    obtain ⟨record, rest, q, hthread, -, hq, rfl⟩ := step_recv hstep
    exact ⟨hcounted.put hq, fun hnot => absurd hnot (by rw [hthread]; exact Bool.noConfusion)⟩
  | semPost =>
    obtain ⟨q, hq, rfl⟩ := Option.map_eq_some_iff.mp hstep
    exact ⟨hcounted.post hq, hoffline⟩
  | disconnect =>
    obtain ⟨-, rfl⟩ := step_disconnect hstep
    exact ⟨hcounted, fun _ => rfl⟩
  | semWait =>
    obtain ⟨q, hq, rfl⟩ := Option.map_eq_some_iff.mp hstep
    exact ⟨hcounted.wait hq, hoffline⟩
  | readTouchmsgSemData =>
    obtain ⟨q, hq, rfl⟩ := Option.map_eq_some_iff.mp hstep
    exact ⟨hcounted.take hq, hoffline⟩

namespace Program

variable {s t : Program} {a : ProgramAction}

/-- What holds in every run, with or without room in the rings. -/
structure Counts (s : Program) : Prop where
  events : s.events.Counts
  messages : s.messages.Counts
  touches : s.touches.Counts
  fetched : s.Fetched

theorem counts_start (files : Descriptors) (unit : HeadUnit) : (start files unit).Counts where
  events := ⟨SemQueue.counted_start _, rfl⟩
  messages := SemQueue.counted_start _
  touches := ⟨SemQueue.counted_start _, fun _ => rfl⟩
  fetched := fetched_start files unit

theorem Counts.step (h : s.Counts) (hstep : s.step a = some t) : t.Counts := by
  have hfetched := h.fetched.step hstep
  cases a with
  | event b =>
    obtain ⟨events, btMsg, hevents, -, rfl⟩ := step_event hstep
    exact { h with events := h.events.step hevents, fetched := hfetched }
  | message b =>
    obtain ⟨messages, hmiMsg, hmessages, -, rfl⟩ := step_message hstep
    exact { h with messages := h.messages.step hmessages, fetched := hfetched }
  | touch b =>
    obtain ⟨touches, touchMsg, htouches, -, rfl⟩ := step_touch hstep
    exact { h with touches := h.touches.step htouches, fetched := hfetched }
  | dealWithEvent checkConnect | dealWithHmiData | dealWithTouchmsg tick tickAfter =>
    obtain ⟨x, -, rfl⟩ := Option.map_eq_some_iff.mp hstep
    exact { h with fetched := hfetched }
  | timer =>
    obtain rfl := Option.some.inj hstep
    exact { h with fetched := hfetched }

theorem Counts.of_exec {files : Descriptors} {unit : HeadUnit} {acts : List ProgramAction}
    (hrun : exec Program.step (start files unit) acts = some s) : s.Counts :=
  exec_invariant Counts (fun _ _ _ h hstep => h.step hstep) (counts_start files unit) hrun

end Program

/-! ### Where no own step is left -/

theorem EventLink.step_eq_none {s : EventLink} {a : EventAction} (h : s.phonestateSem.Quiet)
    (hown : a.Own) : s.step a = none := by
  cases a with
  | bluetoothSppDataProc pMsg | setPhoneType var => exact hown.elim
  | semPost => exact Option.map_eq_none_iff.mpr h.post_eq
  | waitBtResponse => exact Option.map_eq_none_iff.mpr h.wait_eq
  | waitBtCommand => exact Option.map_eq_none_iff.mpr h.take_eq

/-- A thread with no whole message in its chunk that is not connected, or finds nothing on the
socket. -/
theorem MainappConnection.step_eq_none {s : MainappConnection} {a : ConnectionAction}
    (h : s.link.hmiMsg.Quiet) (hdone : s.link.ChunkDone)
    (hsocket : s.receiving → s.link.socket = []) (hown : a.Own) : s.step a = none := by
  by_contra hne
  obtain ⟨t, hstep⟩ := Option.ne_none_iff_exists'.mp hne
  cases a with
  | socketConn result | disconnect | openOther fd | closeOther fd => exact hown
  | link b =>
    obtain ⟨hallows, link, hlink, -⟩ := step_link hstep
    cases b with
    | send msg => exact hown
    | recv ret =>
      simp only [HmiLink.step] at hlink
      split_ifs at hlink with hbusy hret
      rw [hsocket hallows, List.length_nil] at hret
      omega
    | writeHmimsgSemData =>
      obtain ⟨msg, hwhole, -⟩ := HmiLink.step_writeHmimsgSemData hlink
      rw [List.length_drop] at hwhole
      have hsize : sizeofPlMsgInfo = 260 := rfl
      exact hdone (.inl (by omega))
    | semPost => simp [HmiLink.step, h.post_eq] at hlink
    | semWait => simp [HmiLink.step, h.wait_eq] at hlink
    | readHmimsgSemData => simp [HmiLink.step, h.take_eq] at hlink

/-- A thread that waits for a connection, or finds nothing on it. -/
theorem TouchLink.step_eq_none {s : TouchLink} {a : TouchAction} (h : s.touchmsg.Quiet)
    (hthread : s.thread = .connecting ∨ s.thread = .receiving ∧ s.socket = []) (hown : a.Own) :
    s.step a = none := by
  by_contra hne
  obtain ⟨t, hstep⟩ := Option.ne_none_iff_exists'.mp hne
  cases a with
  | socketConn connected | send record | disconnect => exact hown
  | resetReadPoint =>
    obtain ⟨connected, hreset, -⟩ := step_resetReadPoint hstep
    simp [hreset] at hthread
  | resetWritePoint =>
    obtain ⟨connected, hreset, -⟩ := step_resetWritePoint hstep
    simp [hreset] at hthread
  | memsetTouchmsg =>
    obtain ⟨connected, hreset, -⟩ := step_memsetTouchmsg hstep
    simp [hreset] at hthread
  | recv =>
    obtain ⟨record, rest, q, hreceiving, hsocket, -⟩ := step_recv hstep
    simp [hreceiving, hsocket] at hthread
  | semPost => simp [TouchLink.step, h.post_eq] at hstep
  | semWait => simp [TouchLink.step, h.wait_eq] at hstep
  | readTouchmsgSemData => simp [TouchLink.step, h.take_eq] at hstep

namespace Program

variable {s t : Program} {a : ProgramAction}


/-- A thread with nothing to deal with does not hold up its ring. -/
theorem eq_none_of_fetch {σ α β : Type} {next : Option σ} {current : Option α}
    {isWait isTake : Bool} {taken : σ → α} {f : σ → Option α → β} (hidle : current = none)
    (h : (next.bind fun x => (fetch current isWait isTake (taken x)).map (f x)) = none) :
    next = none := by
  subst hidle
  cases next with
  | none => rfl
  | some x => simp [fetch] at h

/-- No own step that meets the conditions on the schedule is enabled. -/
def Blocked (s : Program) : Prop := ∀ a : ProgramAction, a.Own → s.Orderly a → s.step a = none

theorem blocked_of_stuck (h : Stuck step ProgramAction.Own s) : s.Blocked :=
  fun a hown _ => h a hown

/-- Every thread has dealt with what it took. -/
theorem Blocked.dealt (h : s.Blocked) : s.btMsg = none ∧ s.hmiMsg = none ∧ s.touchMsg = none :=
  ⟨Option.map_eq_none_iff.mp (h (.dealWithEvent fun _ => 0) trivial trivial),
    Option.map_eq_none_iff.mp (h .dealWithHmiData trivial trivial),
    Option.map_eq_none_iff.mp (h (.dealWithTouchmsg 0 0) trivial trivial)⟩

theorem Blocked.events (h : s.Blocked) : s.events.phonestateSem.Quiet := by
  have hblocked (b : EventAction) (hown : b.Own) (horderly : fewerThanTenQueued s.events b) :
      s.events.step b = none :=
    eq_none_of_fetch h.dealt.1 (h (.event b) hown horderly)
  exact SemQueue.quiet_of_blocked
    (Option.map_eq_none_iff.mp (hblocked .semPost trivial trivial))
    (Option.map_eq_none_iff.mp (hblocked .waitBtResponse trivial trivial))
    (Option.map_eq_none_iff.mp (hblocked .waitBtCommand trivial trivial))

theorem Blocked.link {b : HmiAction} (h : s.Blocked) (hown : b.Own)
    (horderly : s.messages.FewerThanTenUnread (.link b)) (hallows : s.messages.allows b) :
    s.messages.link.step b = none := by
  have hstep : s.messages.step (.link b) = none :=
    eq_none_of_fetch h.dealt.2.1 (h (.message (.link b)) hown horderly)
  simp only [MainappConnection.step] at hstep
  rw [if_pos hallows] at hstep
  exact Option.map_eq_none_iff.mp hstep

theorem Blocked.messages (h : s.Blocked) : s.messages.link.hmiMsg.Quiet :=
  SemQueue.quiet_of_blocked
    (Option.map_eq_none_iff.mp (h.link (b := .semPost) trivial trivial rfl))
    (Option.map_eq_none_iff.mp (h.link (b := .semWait) trivial trivial rfl))
    (Option.map_eq_none_iff.mp (h.link (b := .readHmimsgSemData) trivial trivial rfl))

theorem Blocked.touch {b : TouchAction} (h : s.Blocked) (hown : b.Own)
    (horderly : nothingOutstanding s.touches b ∧ atMostHundredUnread s.touches b) :
    s.touches.step b = none :=
  eq_none_of_fetch h.dealt.2.2 (h (.touch b) hown horderly)

theorem Blocked.touches (h : s.Blocked) : s.touches.touchmsg.Quiet :=
  SemQueue.quiet_of_blocked
    (Option.map_eq_none_iff.mp (h.touch (b := .semPost) trivial ⟨trivial, trivial⟩))
    (Option.map_eq_none_iff.mp (h.touch (b := .semWait) trivial ⟨trivial, trivial⟩))
    (Option.map_eq_none_iff.mp (h.touch (b := .readTouchmsgSemData) trivial ⟨trivial, trivial⟩))

/-- The last chunk holds no message: there would be room for it. -/
theorem Blocked.chunkDone (h : s.Blocked) (hbacklog : s.messages.link.hmiMsg.backlog = 0) :
    s.messages.link.ChunkDone := by
  rintro (hwhole | hposting)
  · have hwrite := h.link (b := .writeHmimsgSemData) trivial
      (hbacklog.trans_lt (by decide)) rfl
    simp only [HmiLink.step] at hwrite
    rw [dif_pos hwhole] at hwrite
    simp [SemQueue.put, h.messages.posting_eq] at hwrite
  · rw [h.messages.posting_eq] at hposting
    cases hposting

theorem Blocked.socket_eq (h : s.Blocked) (hdone : s.messages.link.ChunkDone)
    (hreceiving : s.messages.receiving) : s.messages.link.socket = [] := by
  by_contra hne
  have hlength := List.length_pos_iff.mpr hne
  have hrecv := h.link (b := .recv 1) trivial trivial hreceiving
  simp only [HmiLink.step] at hrecv
  rw [if_neg hdone, if_pos ⟨Nat.one_pos, by decide, hlength⟩] at hrecv
  cases hrecv

/-- The socket thread is not in the middle of a reset, and has received what there is. -/
theorem Blocked.thread (h : s.Blocked) (hbacklog : s.touches.touchmsg.backlog = 0) :
    s.touches.thread = .connecting ∨ s.touches.thread = .receiving ∧ s.touches.socket = [] := by
  have hquiet := h.touches
  cases hthread : s.touches.thread with
  | connecting => exact .inl rfl
  | resetReadPoint connected =>
    have hreset := h.touch (b := .resetReadPoint) trivial
      ⟨⟨hquiet.sem_eq, hquiet.taking_eq⟩, trivial⟩
    simp [TouchLink.step, hthread] at hreset
  | resetWritePoint connected =>
    have hreset := h.touch (b := .resetWritePoint) trivial ⟨trivial, trivial⟩
    simp [TouchLink.step, hthread] at hreset
  | memsetTouchmsg connected =>
    have hreset := h.touch (b := .memsetTouchmsg) trivial ⟨trivial, trivial⟩
    simp [TouchLink.step, hthread] at hreset
  | receiving =>
    refine .inr ⟨rfl, ?_⟩
    cases hsocket : s.touches.socket with
    | nil => rfl
    | cons record rest =>
      have hrecv := h.touch (b := .recv) trivial ⟨trivial, hbacklog.trans_lt (by decide)⟩
      simp [TouchLink.step, hthread, hsocket, SemQueue.put, hquiet.posting_eq] at hrecv

theorem Counts.atRest_of_blocked (h : s.Counts) (hblocked : s.Blocked) : s.AtRest := by
  obtain ⟨hbtMsg, hhmiMsg, htouchMsg⟩ := hblocked.dealt
  have hevents := h.events.counted.backlog_eq_zero_iff.mpr hblocked.events
  have hmessages := SemQueue.Counted.backlog_eq_zero_iff h.messages |>.mpr hblocked.messages
  have htouches := h.touches.counted.backlog_eq_zero_iff.mpr hblocked.touches
  have hdone := hblocked.chunkDone hmessages
  exact {
    idle := ⟨⟨hevents, hbtMsg⟩, ⟨⟨hdone, hmessages⟩, hhmiMsg⟩, htouches, htouchMsg⟩
    messages := hblocked.socket_eq hdone
    touches := hblocked.thread htouches }

/-- At rest no own step is enabled. -/
theorem AtRest.stuck (h : s.AtRest) (hcounts : s.Counts) :
    Stuck Program.step ProgramAction.Own s := by
  obtain ⟨⟨hevents, hbtMsg⟩, ⟨⟨hdone, hmessages⟩, hhmiMsg⟩, htouches, htouchMsg⟩ := h.idle
  intro a hown
  by_contra hne
  obtain ⟨t, hstep⟩ := Option.ne_none_iff_exists'.mp hne
  cases a with
  | event b =>
    obtain ⟨events, btMsg, hb, -⟩ := step_event hstep
    have hquiet := hcounts.events.counted.backlog_eq_zero_iff.mp hevents
    exact nomatch (EventLink.step_eq_none hquiet hown).symm.trans hb
  | message b =>
    obtain ⟨messages, hmiMsg, hb, -⟩ := step_message hstep
    have hquiet := SemQueue.Counted.backlog_eq_zero_iff hcounts.messages |>.mp hmessages
    exact nomatch (MainappConnection.step_eq_none hquiet hdone h.messages hown).symm.trans hb
  | touch b =>
    obtain ⟨touches, touchMsg, hb, -⟩ := step_touch hstep
    have hquiet := hcounts.touches.counted.backlog_eq_zero_iff.mp htouches
    exact nomatch (TouchLink.step_eq_none hquiet h.touches hown).symm.trans hb
  | dealWithEvent checkConnect =>
    obtain ⟨btMsg, hsome, -⟩ := Option.map_eq_some_iff.mp hstep
    exact nomatch hbtMsg.symm.trans hsome
  | dealWithHmiData =>
    obtain ⟨msg, hsome, -⟩ := Option.map_eq_some_iff.mp hstep
    exact nomatch hhmiMsg.symm.trans hsome
  | dealWithTouchmsg tick tickAfter =>
    obtain ⟨record, hsome, -⟩ := Option.map_eq_some_iff.mp hstep
    exact nomatch htouchMsg.symm.trans hsome
  | timer => exact hown

/-- Nothing holds the threads up but the lack of something to do. -/
theorem Counts.stuck_iff (h : s.Counts) :
    Stuck Program.step ProgramAction.Own s ↔ s.AtRest :=
  ⟨fun hstuck => h.atRest_of_blocked (blocked_of_stuck hstuck), fun hrest => hrest.stuck h⟩

/-- As many inputs have been dealt with as were stored in each ring. -/
structure Balanced (s : Program) : Prop where
  events : (s.handled.filterMap Input.event?).length = s.events.phonestateSem.stored.length
  messages : (s.handled.filterMap Input.message?).length = s.messages.link.hmiMsg.stored.length
  touches : (s.handled.filterMap Input.touch?).length = s.touches.touchmsg.stored.length

theorem length_overlaid (m : Memory) (cs : List EventContent) :
    (overlaid m cs).length = cs.length := by
  induction cs generalizing m with
  | nil => rfl
  | cons c cs ih => exact congrArg (· + 1) (ih _)

theorem Counts.balanced (h : s.Counts) (hidle : s.Idle) : s.Balanced := by
  obtain ⟨⟨hevents, hbtMsg⟩, ⟨⟨-, hmessages⟩, hhmiMsg⟩, htouches, htouchMsg⟩ := hidle
  obtain ⟨hevents', -, hmessages', htouches'⟩ := h.fetched
  rw [hbtMsg, h.events.returned_eq] at hevents'
  rw [hhmiMsg] at hmessages'
  rw [htouchMsg] at htouches'
  refine ⟨?_, ?_, ?_⟩
  · have hlength := congrArg List.length hevents'
    rw [length_overlaid, Option.map_none, Option.toList_none, List.append_nil] at hlength
    exact hlength.trans (h.events.counted.length_taken hevents)
  · have hlength := congrArg List.length hmessages'
    rw [Option.toList_none, List.append_nil] at hlength
    exact hlength.trans (SemQueue.Counted.length_taken h.messages hmessages)
  · have hlength := congrArg List.length htouches'
    rw [Option.toList_none, List.append_nil] at hlength
    exact hlength.trans (h.touches.counted.length_taken htouches)

end Program

/-- **The program comes to rest.** From every state that a run reaches, with or without room in
the rings, a run of own steps has no more of them than the work left in that state; it can go
on unless the program is at rest, and then as many inputs have been dealt with as were stored;
and some run of own steps leads there. With the handlers done one at a time, the head unit is
where the inputs dealt with lead it. What a ring without room hands over when both sides copy
the same slot is not looked at here, only how often it does. -/
theorem program_comes_to_rest {files : Descriptors} {unit : HeadUnit} {s : Program}
    {acts : List ProgramAction} (hrun : exec Program.step (.start files unit) acts = some s) :
    (∀ more t, (∀ a ∈ more, a.Own) → exec Program.step s more = some t →
      more.length ≤ s.work ∧ (Stuck Program.step ProgramAction.Own t ↔ t.AtRest) ∧
        (t.AtRest → t.Balanced) ∧
        t.unit = run HeadUnit.step unit (t.handled.flatMap Input.actions)) ∧
    ∃ more t, (∀ a ∈ more, a.Own) ∧ exec Program.step s more = some t ∧ t.AtRest := by
  have hreached : ∀ more t, exec Program.step s more = some t → t.Counts := by
    intro more t hmore
    exact .of_exec ((exec_append_of_eq_some hrun more).trans hmore)
  constructor
  · intro more t hown hmore
    have hlength := length_add_le_of_lowers Program.work_lowers hown hmore
    have hcounts := hreached more t hmore
    exact ⟨Nat.le_of_add_right_le hlength, hcounts.stuck_iff,
      fun hrest => hcounts.balanced hrest.idle,
      Program.unit_eq_of_exec ((exec_append_of_eq_some hrun more).trans hmore)⟩
  · obtain ⟨more, t, hown, hmore, hstuck⟩ := exists_stuck_of_lowers Program.work_lowers s
    exact ⟨more, t, hown, hmore, (hreached more t hmore).stuck_iff.mp hstuck⟩

set_option maxRecDepth 20000 in
/-- With an event, a message and a touch in the rings. -/
theorem program_comes_to_rest_three_inputs :
    let unit := HeadUnit.start (.quiet .exact)
    let s := (exec Program.step (.start (.allClosed 16) unit) (threeInputs.take 14)).get
      (by decide +kernel)
    (∀ more t, (∀ a ∈ more, a.Own) → exec Program.step s more = some t →
      more.length ≤ s.work ∧ (Stuck Program.step ProgramAction.Own t ↔ t.AtRest) ∧
        (t.AtRest → t.Balanced) ∧
        t.unit = run HeadUnit.step unit (t.handled.flatMap Input.actions)) ∧
    ∃ more t, (∀ a ∈ more, a.Own) ∧ exec Program.step s more = some t ∧ t.AtRest :=
  program_comes_to_rest (Option.some_get _).symm

/-! ### Everything that has come in -/

theorem EventLink.stored_step_of_own {s t : EventLink} {a : EventAction} (hown : a.Own)
    (hstep : s.step a = some t) : t.phonestateSem.stored = s.phonestateSem.stored := by
  cases a with
  | bluetoothSppDataProc pMsg | setPhoneType var => exact hown.elim
  | semPost =>
    obtain ⟨q, hq, rfl⟩ := Option.map_eq_some_iff.mp hstep
    obtain ⟨-, rfl⟩ := SemQueue.post_eq_some.mp hq
    rfl
  | waitBtResponse =>
    obtain ⟨q, hq, rfl⟩ := Option.map_eq_some_iff.mp hstep
    obtain ⟨-, rfl⟩ := SemQueue.wait_eq_some.mp hq
    rfl
  | waitBtCommand =>
    obtain ⟨q, hq, rfl⟩ := Option.map_eq_some_iff.mp hstep
    obtain ⟨-, rfl⟩ := SemQueue.take_eq_some.mp hq
    rfl

theorem TouchLink.sent_step_of_own {s t : TouchLink} {a : TouchAction} (hown : a.Own)
    (hstep : s.step a = some t) : t.sent = s.sent ∧ t.sentBefore = s.sentBefore := by
  cases a with
  | socketConn connected | send record | disconnect => exact hown.elim
  | resetReadPoint =>
    obtain ⟨connected, -, rfl⟩ := step_resetReadPoint hstep
    exact ⟨rfl, rfl⟩
  | resetWritePoint =>
    obtain ⟨connected, -, rfl⟩ := step_resetWritePoint hstep
    exact ⟨rfl, rfl⟩
  | memsetTouchmsg =>
    obtain ⟨connected, -, rfl⟩ := step_memsetTouchmsg hstep
    exact ⟨rfl, rfl⟩
  | recv =>
    obtain ⟨record, rest, q, -, -, -, rfl⟩ := step_recv hstep
    exact ⟨rfl, rfl⟩
  | semPost | semWait | readTouchmsgSemData =>
    obtain ⟨q, -, rfl⟩ := Option.map_eq_some_iff.mp hstep
    exact ⟨rfl, rfl⟩

namespace Program

variable {s t u : Program} {a : ProgramAction}

/-- Nothing has come in between. -/
structure SameInput (s t : Program) : Prop where
  events : t.events.phonestateSem.stored = s.events.phonestateSem.stored
  sent : t.touches.sent = s.touches.sent
  sentBefore : t.touches.sentBefore = s.touches.sentBefore

theorem SameInput.step (h : s.SameInput t) (hown : a.Own) (hstep : t.step a = some u) :
    s.SameInput u := by
  cases a with
  | event b =>
    obtain ⟨events, btMsg, hevents, -, rfl⟩ := step_event hstep
    exact ⟨(EventLink.stored_step_of_own hown hevents).trans h.events, h.sent, h.sentBefore⟩
  | message b =>
    obtain ⟨messages, hmiMsg, -, -, rfl⟩ := step_message hstep
    exact ⟨h.events, h.sent, h.sentBefore⟩
  | touch b =>
    obtain ⟨touches, touchMsg, htouches, -, rfl⟩ := step_touch hstep
    obtain ⟨hsent, hbefore⟩ := TouchLink.sent_step_of_own hown htouches
    exact ⟨h.events, hsent.trans h.sent, hbefore.trans h.sentBefore⟩
  | dealWithEvent checkConnect | dealWithHmiData | dealWithTouchmsg tick tickAfter =>
    obtain ⟨x, -, rfl⟩ := Option.map_eq_some_iff.mp hstep
    exact ⟨h.events, h.sent, h.sentBefore⟩
  | timer => exact hown.elim

/-- At rest all touches of the present connection have been stored. -/
theorem AtRest.touches_stored (h : s.AtRest) (hcounts : s.Counts) (hreceived : s.touches.Received) :
    ∃ before, PrefixesOf before s.touches.sentBefore ∧
      s.touches.touchmsg.stored = before ++ s.touches.sent := by
  obtain ⟨before, now, hstored, hbefore, hsent⟩ := hreceived
  have hsocket : s.touches.socket = [] := by
    obtain hconnecting | ⟨-, hsocket⟩ := h.touches
    · exact hcounts.touches.offline (by rw [hconnecting]; rfl)
    · exact hsocket
  rw [hsocket, List.append_nil] at hsent
  exact ⟨before, hbefore, by rw [hstored, hsent]⟩

end Program

/-- **Everything that has come in is dealt with.** From every state that an orderly run reaches,
the program can go on by own steps, orderly as before, until it is at rest; it has then dealt
with all the events queued, each with what earlier ones have left in the buffer, with all the
messages cut from the chunks, and with all the touches sent on the present connection, after
those received of earlier ones; each once and in order. With the handlers done one at a time,
the head unit is where these inputs lead it. -/
theorem inputs_all_dealt_with {files : Descriptors} {unit : HeadUnit} {s : Program}
    {acts : List ProgramAction} (hrun : exec Program.step (.start files unit) acts = some s)
    (horderly : Meets Program.step Program.Orderly (.start files unit) acts) :
    ∃ more t, (∀ a ∈ more, a.Own) ∧ exec Program.step s more = some t ∧
      Meets Program.step Program.Orderly s more ∧ t.AtRest ∧
      t.handled.filterMap Input.event? = overlaid .zero s.events.phonestateSem.stored ∧
      t.handled.filterMap Input.message? = t.messages.chunks.flatMap wholeMessages ∧
      (∃ before, PrefixesOf before s.touches.sentBefore ∧
        t.handled.filterMap Input.touch? = before ++ s.touches.sent) ∧
      t.unit = run HeadUnit.step unit (t.handled.flatMap Input.actions) := by
  have hs : Program.Linear unit s ∧ s.Counts ∧ s.SameInput s :=
    ⟨Program.linear_of_exec hrun horderly, .of_exec hrun, rfl, rfl, rfl⟩
  have hkeep : ∀ t a u, (Program.Linear unit t ∧ t.Counts ∧ s.SameInput t) → a.Own →
      t.Orderly a → t.step a = some u → Program.Linear unit u ∧ u.Counts ∧ s.SameInput u :=
    fun _ _ _ ⟨hlinear, hcounts, hsame⟩ hown hc hstep =>
      ⟨hlinear.step hc hstep, hcounts.step hstep, hsame.step hown hstep⟩
  have hprogress : ∀ t, (Program.Linear unit t ∧ t.Counts ∧ s.SameInput t) → ¬ t.AtRest →
      ∃ a u, ProgramAction.Own a ∧ t.Orderly a ∧ t.step a = some u := by
    rintro t ⟨-, hcounts, -⟩ hnot
    -- if no orderly step were left the program would be at rest
    by_contra hnone
    push Not at hnone
    refine hnot (hcounts.atRest_of_blocked fun a hown hc => ?_)
    exact Option.eq_none_iff_forall_ne_some.mpr fun u => hnone a u hown hc
  obtain ⟨more, t, hown, hmore, hmeets, ⟨hlinear, hcounts, hsame⟩, hrest⟩ :=
    exists_of_lowers Program.work_lowers hkeep hprogress hs
  obtain ⟨hevents, hmessages, htouches⟩ := hlinear.of_idle hrest.idle
  obtain ⟨before, hbefore, hstored⟩ := hrest.touches_stored hcounts hlinear.touches.2
  refine ⟨more, t, hown, hmore, hmeets, hrest, hsame.events ▸ hevents, hmessages,
    ⟨before, hsame.sentBefore ▸ hbefore, ?_⟩, hlinear.unit_eq⟩
  rw [htouches, hstored, hsame.sent]

set_option maxRecDepth 20000 in
theorem inputs_all_dealt_with_three_inputs :
    let unit := HeadUnit.start (.quiet .exact)
    let s := (exec Program.step (.start (.allClosed 16) unit) (threeInputs.take 14)).get
      (by decide +kernel)
    ∃ more t, (∀ a ∈ more, a.Own) ∧ exec Program.step s more = some t ∧
      Meets Program.step Program.Orderly s more ∧ t.AtRest ∧
      t.handled.filterMap Input.event? = overlaid .zero s.events.phonestateSem.stored ∧
      t.handled.filterMap Input.message? = t.messages.chunks.flatMap wholeMessages ∧
      (∃ before, PrefixesOf before s.touches.sentBefore ∧
        t.handled.filterMap Input.touch? = before ++ s.touches.sent) ∧
      t.unit = run HeadUnit.step unit (t.handled.flatMap Input.actions) :=
  inputs_all_dealt_with (Option.some_get _).symm (by decide +kernel)

end PhoneLink
