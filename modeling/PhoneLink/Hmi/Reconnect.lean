import PhoneLink.CS.Descriptors
import PhoneLink.Hmi.CommandStream

/-!
# Commands over many connections

When the connection to the HMI is lost, `communication_with_mainapp_thread` connects again.
The ring of messages, its semaphore and the thread that deals with the messages are not
touched by this. Nor is the old descriptor: it is never closed, so every connection uses
one up for good.

## Main definitions

* `socketConn`: the ways in which `socket_conn` returns
* `wholeMessages`: the messages cut from the front of a chunk
* `MainappConnection.step`: the receiving thread over all its connections

## Main results

* `commands_deframed`: the messages dequeued are the whole messages of the chunks, in
  order, over all connections
* `connections_bounded`: how often the program can connect
-/

namespace PhoneLink

open CS CS.Transition

/-! ### Connecting -/

/-- How `socket_conn` comes to its result. -/
inductive SocketConn
  /-- `socket` fails. -/
  | noSocket
  /-- `connect` fails, and the socket is closed. -/
  | refused (fd : ℕ)
  | connected (fd : ℕ)
  deriving DecidableEq, Repr

/-- What `socket_conn` returns, and the table of descriptors afterwards. -/
def socketConn (files : Descriptors) : SocketConn → Option (ℤ × Descriptors)
  | .noSocket => some (-1, files)
  | .refused fd => (files.acquire fd).map fun files => (-1, files.close fd)
  | .connected fd => (files.acquire fd).map fun files => (fd, files)

/-- An attempt that fails leaves the table as it was. -/
theorem socketConn_refused {files files' : Descriptors} {fd : ℕ} {ret : ℤ}
    (h : socketConn files (.refused fd) = some (ret, files')) : ret = -1 ∧ files' = files := by
  obtain ⟨e, he, heq⟩ := Option.map_eq_some_iff.mp h
  obtain ⟨rfl, rfl⟩ := Prod.mk.inj heq
  exact ⟨rfl, Descriptors.close_of_acquire he⟩

/-! ### Cutting a chunk into messages -/

/-- The messages cut from the front of a chunk; what is left is too short for one. -/
def wholeMessages (chunk : List UInt8) : List PlMsgInfo :=
  if h : sizeofPlMsgInfo ≤ chunk.length then
    ⟨chunk.take sizeofPlMsgInfo, List.length_take_of_le h⟩ ::
      wholeMessages (chunk.drop sizeofPlMsgInfo)
  else []
termination_by chunk.length
decreasing_by
  rw [List.length_drop]
  exact Nat.sub_lt (Nat.lt_of_lt_of_le (by decide) h) (by decide)

theorem wholeMessages_of_lt {chunk : List UInt8} (h : chunk.length < sizeofPlMsgInfo) :
    wholeMessages chunk = [] := by
  rw [wholeMessages, dif_neg (Nat.not_le.mpr h)]

theorem wholeMessages_nil : wholeMessages [] = [] := wholeMessages_of_lt (by decide)

theorem wholeMessages_of_le {chunk : List UInt8} (h : sizeofPlMsgInfo ≤ chunk.length) :
    wholeMessages chunk = ⟨chunk.take sizeofPlMsgInfo, List.length_take_of_le h⟩ ::
      wholeMessages (chunk.drop sizeofPlMsgInfo) := by
  rw [wholeMessages, dif_pos h]

/-! ### The receiving thread -/

/-- `communication_with_mainapp_thread`, with the ring it fills. `link` is the present
connection. -/
structure MainappConnection where
  files : Descriptors
  connectMainappFd : ℤ
  /-- The thread is in its inner loop. -/
  receiving : Bool
  link : HmiLink
  /-- The descriptors `socket_conn` has returned, oldest first. -/
  returned : List ℕ
  /-- What the HMI wrote on each connection that has ended, oldest first. -/
  sentBefore : List (List UInt8)
  /-- The chunks received, over all connections. -/
  chunks : List (List UInt8)

inductive ConnectionAction
  /-- `socket_conn` returns. -/
  | socketConn (result : SocketConn)
  /-- A step of the present connection. -/
  | link (a : HmiAction)
  /-- `recv` returns at most zero. What was in the socket is lost. -/
  | disconnect
  /-- The rest of the program opens or closes a descriptor of its own. -/
  | openOther (fd : ℕ)
  | closeOther (fd : ℕ)
  deriving DecidableEq

/-- The inner loop has ended, and the call in its last pass has returned. -/
def HmiLink.ChunkDone (s : HmiLink) : Prop :=
  ¬ (s.i + sizeofPlMsgInfo ≤ s.recBuf.length ∨ s.hmiMsg.posting)

instance (s : HmiLink) : Decidable s.ChunkDone := inferInstanceAs (Decidable (¬ (_ ∨ _)))

/-- What a step of the connection adds to the chunks. -/
def HmiLink.chunkOf (s : HmiLink) : HmiAction → List (List UInt8)
  | .recv ret => [s.socket.take ret]
  | .send _ | .writeHmimsgSemData | .semPost | .semWait | .readHmimsgSemData => []

namespace MainappConnection

/-- The steps of the connection that the thread's state allows. -/
def allows (s : MainappConnection) : HmiAction → Bool
  | .send _ | .recv _ => s.receiving
  | .writeHmimsgSemData | .semPost | .semWait | .readHmimsgSemData => true

def step (s : MainappConnection) : ConnectionAction → Option MainappConnection
  | .socketConn result =>
    if s.receiving then none
    else
      (PhoneLink.socketConn s.files result).map fun (fd, files) =>
        -- a negative result: the thread sleeps and tries again
        { s with
          files
          connectMainappFd := fd
          receiving := !(fd < 0)
          returned := if fd < 0 then s.returned else s.returned ++ [fd.toNat] }
  | .link a =>
    if s.allows a then
      (s.link.step a).map fun link => { s with link, chunks := s.chunks ++ s.link.chunkOf a }
    else none
  | .disconnect =>
    if s.receiving ∧ s.link.ChunkDone then
      -- `goto connect_mainapp`, without a `close`
      some { s with
        receiving := false
        link := { s.link with sent := [], socket := [], recBuf := [], i := 0 }
        sentBefore := s.sentBefore ++ [s.link.sent.flatMap PlMsgInfo.bytes] }
    else none
  | .openOther fd => (s.files.acquire fd).map fun files => { s with files }
  | .closeOther fd =>
    if fd ∈ s.returned then none else some { s with files := s.files.close fd }

/-- Not connected yet. -/
def start (files : Descriptors) : MainappConnection where
  files
  connectMainappFd := 0
  receiving := false
  link := hmiStart
  returned := []
  sentBefore := []
  chunks := []

/-- A message is stored only while fewer than ten are unread. -/
def FewerThanTenUnread (s : MainappConnection) : ConnectionAction → Prop
  | .link .writeHmimsgSemData => s.link.hmiMsg.backlog < maxHmiMsgSize
  | _ => True

instance : ∀ (s : MainappConnection) (a : ConnectionAction), Decidable (s.FewerThanTenUnread a)
  | _, .link .writeHmimsgSemData => inferInstanceAs (Decidable (_ < _))
  | _, .link (.send _) | _, .link (.recv _) | _, .link .semPost | _, .link .semWait
  | _, .link .readHmimsgSemData | _, .socketConn _ | _, .disconnect | _, .openOther _
  | _, .closeOther _ => isTrue trivial

end MainappConnection

/-! ### One step of a connection -/

namespace HmiLink

variable {s t : HmiLink} {a : HmiAction}

theorem step_recv {ret : ℕ} (h : s.step (.recv ret) = some t) :
    s.ChunkDone ∧ t = { s with
      socket := s.socket.drop ret, recBuf := s.socket.take ret, i := 0 } := by
  simp only [HmiLink.step] at h
  split_ifs at h with hbusy
  exact ⟨hbusy, (Option.some.inj h).symm⟩

theorem step_writeHmimsgSemData (h : s.step .writeHmimsgSemData = some t) :
    ∃ msg : PlMsgInfo, sizeofPlMsgInfo ≤ (s.recBuf.drop s.i).length ∧
      msg.bytes = (s.recBuf.drop s.i).take sizeofPlMsgInfo ∧
      ∃ q, s.hmiMsg.put maxHmiMsgSize (fun _ => msg) msg = some q ∧
        t = { s with hmiMsg := q, i := s.i + sizeofPlMsgInfo } := by
  simp only [HmiLink.step] at h
  split_ifs at h with hwhole
  obtain ⟨q, hq, rfl⟩ := Option.map_eq_some_iff.mp h
  exact ⟨_, by rw [List.length_drop]; omega, rfl, q, hq, rfl⟩

/-- A chunk that is done has no message left. -/
theorem ChunkDone.wholeMessages_eq (h : s.ChunkDone) :
    wholeMessages (s.recBuf.drop s.i) = [] := by
  refine wholeMessages_of_lt ?_
  rw [List.length_drop]
  have hdone := not_or.mp h
  have hsize : sizeofPlMsgInfo = 260 := rfl
  omega

theorem fifo_step (h : s.hmiMsg.Fifo maxHmiMsgSize id)
    (hspace : a = .writeHmimsgSemData → s.hmiMsg.backlog < maxHmiMsgSize)
    (hstep : s.step a = some t) : t.hmiMsg.Fifo maxHmiMsgSize id := by
  cases a with
  | send msg =>
    obtain rfl := Option.some.inj hstep
    exact h
  | recv ret =>
    obtain ⟨-, rfl⟩ := step_recv hstep
    exact h
  | writeHmimsgSemData =>
    obtain ⟨msg, -, -, q, hq, rfl⟩ := step_writeHmimsgSemData hstep
    exact h.put (hspace rfl) rfl hq
  | semPost =>
    obtain ⟨q, hq, rfl⟩ := Option.map_eq_some_iff.mp hstep
    exact h.post hq
  | semWait =>
    obtain ⟨q, hq, rfl⟩ := Option.map_eq_some_iff.mp hstep
    exact h.wait hq
  | readHmimsgSemData =>
    obtain ⟨q, hq, rfl⟩ := Option.map_eq_some_iff.mp hstep
    exact h.take hq

/-- What is stored, with what the chunk still holds, grows by the messages of the chunks
received. -/
theorem stored_step (hstep : s.step a = some t) :
    t.hmiMsg.stored ++ wholeMessages (t.recBuf.drop t.i) =
      s.hmiMsg.stored ++ wholeMessages (s.recBuf.drop s.i) ++
        (s.chunkOf a).flatMap wholeMessages := by
  cases a with
  | send msg =>
    obtain rfl := Option.some.inj hstep
    exact (List.append_nil _).symm
  | recv ret =>
    obtain ⟨hdone, rfl⟩ := step_recv hstep
    rw [hdone.wholeMessages_eq, List.append_nil, chunkOf, List.flatMap_singleton, List.drop_zero]
  | writeHmimsgSemData =>
    obtain ⟨msg, hlen, hmsg, q, hq, rfl⟩ := step_writeHmimsgSemData hstep
    obtain ⟨-, rfl⟩ := SemQueue.put_eq_some.mp hq
    obtain rfl : msg = ⟨_, List.length_take_of_le hlen⟩ := PlMsgInfo.bytes_injective hmsg
    -- the message stored is the first that the chunk holds
    rw [wholeMessages_of_le hlen, List.drop_drop, chunkOf, List.flatMap_nil, List.append_nil,
      List.append_assoc, List.singleton_append]
  | semPost =>
    obtain ⟨q, hq, rfl⟩ := Option.map_eq_some_iff.mp hstep
    obtain ⟨-, rfl⟩ := SemQueue.post_eq_some.mp hq
    exact (List.append_nil _).symm
  | semWait =>
    obtain ⟨q, hq, rfl⟩ := Option.map_eq_some_iff.mp hstep
    obtain ⟨-, rfl⟩ := SemQueue.wait_eq_some.mp hq
    exact (List.append_nil _).symm
  | readHmimsgSemData =>
    obtain ⟨q, hq, rfl⟩ := Option.map_eq_some_iff.mp hstep
    obtain ⟨-, rfl⟩ := SemQueue.take_eq_some.mp hq
    exact (List.append_nil _).symm

/-- The bytes the HMI has written are those received and those in the socket. -/
theorem socket_step {received : List UInt8}
    (h : s.sent.flatMap PlMsgInfo.bytes = received ++ s.socket) (hstep : s.step a = some t) :
    t.sent.flatMap PlMsgInfo.bytes = received ++ (s.chunkOf a).flatten ++ t.socket := by
  cases a with
  | send msg =>
    obtain rfl := Option.some.inj hstep
    rw [List.flatMap_append, List.flatMap_singleton, h, chunkOf, List.flatten_nil,
      List.append_nil, List.append_assoc]
  | recv ret =>
    obtain ⟨-, rfl⟩ := step_recv hstep
    rw [h, chunkOf, List.flatten_singleton, List.append_assoc, List.take_append_drop]
  | writeHmimsgSemData =>
    obtain ⟨msg, -, -, q, hq, rfl⟩ := step_writeHmimsgSemData hstep
    rw [chunkOf, List.flatten_nil, List.append_nil]
    exact h
  | semPost | semWait | readHmimsgSemData =>
    obtain ⟨q, hq, rfl⟩ := Option.map_eq_some_iff.mp hstep
    rw [chunkOf, List.flatten_nil, List.append_nil]
    exact h

end HmiLink

/-! ### The chunks over all connections -/

namespace MainappConnection

variable {s t : MainappConnection} {a : ConnectionAction}

theorem step_socketConn {result : SocketConn} (h : s.step (.socketConn result) = some t) :
    s.receiving = false ∧ ∃ fd files, PhoneLink.socketConn s.files result = some (fd, files) ∧
      t = { s with
        files
        connectMainappFd := fd
        receiving := !(fd < 0)
        returned := if fd < 0 then s.returned else s.returned ++ [fd.toNat] } := by
  simp only [step] at h
  split_ifs at h with hreceiving
  obtain ⟨⟨fd, files⟩, hconn, rfl⟩ := Option.map_eq_some_iff.mp h
  exact ⟨Bool.eq_false_iff.mpr hreceiving, fd, files, hconn, rfl⟩

theorem step_link {b : HmiAction} (h : s.step (.link b) = some t) :
    s.allows b ∧ ∃ link, s.link.step b = some link ∧
      t = { s with link, chunks := s.chunks ++ s.link.chunkOf b } := by
  simp only [step] at h
  split_ifs at h with hallows
  obtain ⟨link, hlink, rfl⟩ := Option.map_eq_some_iff.mp h
  exact ⟨hallows, link, hlink, rfl⟩

theorem step_disconnect (h : s.step .disconnect = some t) :
    (s.receiving ∧ s.link.ChunkDone) ∧ t = { s with
      receiving := false
      link := { s.link with sent := [], socket := [], recBuf := [], i := 0 }
      sentBefore := s.sentBefore ++ [s.link.sent.flatMap PlMsgInfo.bytes] } := by
  simp only [step] at h
  split_ifs at h with hidle
  exact ⟨hidle, (Option.some.inj h).symm⟩

theorem step_closeOther {fd : ℕ} (h : s.step (.closeOther fd) = some t) :
    fd ∉ s.returned ∧ t = { s with files := s.files.close fd } := by
  simp only [step] at h
  split_ifs at h with hown
  exact ⟨hown, (Option.some.inj h).symm⟩

/-- The messages stored, and those the last chunk still holds, are the whole messages of all
chunks. -/
def CutUp (s : MainappConnection) : Prop :=
  s.link.hmiMsg.stored ++ wholeMessages (s.link.recBuf.drop s.link.i) =
    s.chunks.flatMap wholeMessages

theorem start_cutUp (files : Descriptors) : (start files).CutUp := wholeMessages_nil

theorem CutUp.step (h : s.CutUp) (hstep : s.step a = some t) : t.CutUp := by
  cases a with
  | socketConn result =>
    obtain ⟨-, fd, files, -, rfl⟩ := step_socketConn hstep
    exact h
  | link b =>
    obtain ⟨-, link, hlink, rfl⟩ := step_link hstep
    exact (HmiLink.stored_step hlink).trans
      ((congrArg (· ++ _) h).trans List.flatMap_append.symm)
  | disconnect =>
    obtain ⟨⟨-, hdone⟩, rfl⟩ := step_disconnect hstep
    have hstored : s.CutUp := h
    unfold CutUp at hstored ⊢
    rw [hdone.wholeMessages_eq] at hstored
    rw [List.drop_zero, wholeMessages_nil]
    exact hstored
  | openOther fd =>
    obtain ⟨files, -, rfl⟩ := Option.map_eq_some_iff.mp hstep
    exact h
  | closeOther fd =>
    obtain ⟨-, rfl⟩ := step_closeOther hstep
    exact h

/-- The messages are cut from the chunks; the chunks are what was received of each
connection; and the ring is in order. -/
structure Deframed (s : MainappConnection) : Prop where
  cutUp : s.CutUp
  received : ∃ before now, s.chunks = before ++ now ∧ PrefixesOf before.flatten s.sentBefore ∧
    s.link.sent.flatMap PlMsgInfo.bytes = now.flatten ++ s.link.socket
  fifo : s.link.hmiMsg.Fifo maxHmiMsgSize id

theorem start_deframed (files : Descriptors) : (start files).Deframed where
  cutUp := start_cutUp files
  received := ⟨[], [], rfl, prefixesOf_nil [], rfl⟩
  fifo := SemQueue.fifo_start (CircularBuffer.represents_clear (by decide) _)

/-- What was received of each connection, the present one included. -/
theorem Deframed.prefixesOf (h : s.Deframed) : PrefixesOf s.chunks.flatten
    (s.sentBefore ++ [s.link.sent.flatMap PlMsgInfo.bytes]) := by
  obtain ⟨before, now, hchunks, hbefore, hsent⟩ := h.received
  rw [hchunks, List.flatten_append]
  exact hbefore.append ⟨s.link.socket, hsent.symm⟩

theorem Deframed.step (h : s.Deframed) (hspace : s.FewerThanTenUnread a)
    (hstep : s.step a = some t) : t.Deframed := by
  have hcut := h.cutUp.step hstep
  cases a with
  | socketConn result =>
    obtain ⟨-, fd, files, -, rfl⟩ := step_socketConn hstep
    exact ⟨hcut, h.received, h.fifo⟩
  | link b =>
    obtain ⟨-, link, hlink, rfl⟩ := step_link hstep
    obtain ⟨before, now, hchunks, hbefore, hsent⟩ := h.received
    refine ⟨hcut, ⟨before, now ++ s.link.chunkOf b, ?_, hbefore, ?_⟩, ?_⟩
    · rw [hchunks, List.append_assoc]
    · rw [HmiLink.socket_step hsent hlink, List.flatten_append]
    · exact HmiLink.fifo_step h.fifo (fun heq => by subst heq; exact hspace) hlink
  | disconnect =>
    obtain ⟨-, rfl⟩ := step_disconnect hstep
    exact ⟨hcut, ⟨s.chunks, [], (List.append_nil _).symm, h.prefixesOf, rfl⟩, h.fifo⟩
  | openOther fd =>
    obtain ⟨files, -, rfl⟩ := Option.map_eq_some_iff.mp hstep
    exact ⟨hcut, h.received, h.fifo⟩
  | closeOther fd =>
    obtain ⟨-, rfl⟩ := step_closeOther hstep
    exact ⟨hcut, h.received, h.fifo⟩

/-- Every chunk has been cut up, and every message stored has been read. -/
def AllRead (s : MainappConnection) : Prop := s.link.ChunkDone ∧ s.link.hmiMsg.backlog = 0

end MainappConnection

/-- **Commands over many connections.** However often the connection is lost and however the
bytes are split into chunks, the messages dequeued are a prefix of the whole messages cut
from the fronts of the chunks, in order, and all of them when everything has been read; the
chunks are what was received of each connection, possibly cut short. The ring must have room
for every message stored. -/
theorem commands_deframed {files : Descriptors} {s : MainappConnection}
    {acts : List ConnectionAction}
    (hrun : exec MainappConnection.step (.start files) acts = some s)
    (hspace : Meets MainappConnection.step MainappConnection.FewerThanTenUnread (.start files)
      acts) :
    s.link.hmiMsg.taken <+: s.chunks.flatMap wholeMessages ∧
      (s.AllRead → s.link.hmiMsg.taken = s.chunks.flatMap wholeMessages) ∧
      PrefixesOf s.chunks.flatten (s.sentBefore ++ [s.link.sent.flatMap PlMsgInfo.bytes]) := by
  have hdeframed : s.Deframed :=
    exec_invariant_of_meets MainappConnection.Deframed
      (fun _ _ _ h hc hstep => h.step hc hstep) (MainappConnection.start_deframed files) hspace
      hrun
  refine ⟨?_, fun ⟨hdone, hbacklog⟩ => ?_, hdeframed.prefixesOf⟩
  · rw [← hdeframed.cutUp]
    exact hdeframed.fifo.taken_isPrefix.trans (List.prefix_append _ _)
  · rw [hdeframed.fifo.taken_eq_stored hbacklog, ← hdeframed.cutUp, hdone.wholeMessages_eq,
      List.append_nil]

/-- A connection lost in the middle of a message, and one message on the next. -/
def lostAndRegained : List ConnectionAction :=
  [.socketConn (.connected 3), .link (.send (.fill 1)), .link (.recv 200), .disconnect,
    .socketConn .noSocket, .socketConn (.connected 4), .link (.send (.fill 2)),
    .link (.recv 260), .link .writeHmimsgSemData, .link .semPost, .link .semWait,
    .link .readHmimsgSemData]

set_option maxRecDepth 8000 in
theorem commands_deframed_lost_and_regained :
    let s := (exec MainappConnection.step (.start (.allClosed 16)) lostAndRegained).get
      (by decide)
    s.link.hmiMsg.taken <+: s.chunks.flatMap wholeMessages ∧
      (s.AllRead → s.link.hmiMsg.taken = s.chunks.flatMap wholeMessages) ∧
      PrefixesOf s.chunks.flatten (s.sentBefore ++ [s.link.sent.flatMap PlMsgInfo.bytes]) :=
  commands_deframed (Option.some_get _).symm (by decide)

/-! ### How often the program can connect -/

namespace MainappConnection

variable {s t : MainappConnection} {a : ConnectionAction}

/-- The descriptors of all connections are open, the number of descriptors is as at the
start, and every connection has one. -/
structure KeepsOpen (limit : ℕ) (s : MainappConnection) : Prop where
  owned : s.files.Owned s.returned
  limit_eq : s.files.limit = limit
  length_eq : s.returned.length = s.sentBefore.length + s.receiving.toNat

theorem KeepsOpen.socketConn {limit : ℕ} {result : SocketConn} (h : s.KeepsOpen limit)
    (hstep : s.step (.socketConn result) = some t) : t.KeepsOpen limit := by
  obtain ⟨hreceiving, fd, files, hconn, rfl⟩ := step_socketConn hstep
  have hlength := h.length_eq
  rw [hreceiving] at hlength
  cases result with
  | noSocket =>
    obtain ⟨rfl, rfl⟩ := Prod.mk.inj (Option.some.inj hconn)
    exact ⟨h.owned, h.limit_eq, hlength⟩
  | refused k =>
    obtain ⟨rfl, rfl⟩ := socketConn_refused hconn
    exact ⟨h.owned, h.limit_eq, hlength⟩
  | connected k =>
    obtain ⟨files', hfiles, heq⟩ := Option.map_eq_some_iff.mp hconn
    obtain ⟨rfl, rfl⟩ := Prod.mk.inj heq
    have hnonneg : ¬ ((k : ℤ) < 0) := by omega
    refine ⟨?_, ?_, ?_⟩
    · rw [if_neg hnonneg, Int.toNat_natCast]
      exact h.owned.acquire hfiles
    · exact (Descriptors.acquire_eq_some hfiles).2.1.trans h.limit_eq
    · rw [if_neg hnonneg, List.length_append, hlength, decide_eq_false hnonneg]
      rfl

theorem KeepsOpen.step {limit : ℕ} (h : s.KeepsOpen limit) (hstep : s.step a = some t) :
    t.KeepsOpen limit := by
  cases a with
  | socketConn result => exact h.socketConn hstep
  | link b =>
    obtain ⟨-, link, -, rfl⟩ := step_link hstep
    exact ⟨h.owned, h.limit_eq, h.length_eq⟩
  | disconnect =>
    obtain ⟨⟨hreceiving, -⟩, rfl⟩ := step_disconnect hstep
    refine ⟨h.owned, h.limit_eq, ?_⟩
    rw [h.length_eq, hreceiving, List.length_append]
    rfl
  | openOther fd =>
    obtain ⟨files, hfiles, rfl⟩ := Option.map_eq_some_iff.mp hstep
    exact ⟨h.owned.of_acquire hfiles, (Descriptors.acquire_eq_some hfiles).2.1.trans h.limit_eq,
      h.length_eq⟩
  | closeOther fd =>
    obtain ⟨hown, rfl⟩ := step_closeOther hstep
    exact ⟨h.owned.close hown, h.limit_eq, h.length_eq⟩

/-- Every descriptor is in use, none of them for a connection that still is, and nothing more
has come in. -/
structure CutOff (chunks : List (List UInt8)) (s : MainappConnection) : Prop where
  full : s.files.Full
  receiving_eq : s.receiving = false
  chunks_eq : s.chunks = chunks

theorem CutOff.step {chunks : List (List UInt8)} (h : s.CutOff chunks)
    (hclose : ∀ fd, a = .closeOther fd → fd ∉ s.files.opened) (hstep : s.step a = some t) :
    t.CutOff chunks := by
  cases a with
  | socketConn result =>
    obtain ⟨-, fd, files, hconn, rfl⟩ := step_socketConn hstep
    cases result with
    | noSocket =>
      obtain ⟨rfl, rfl⟩ := Prod.mk.inj (Option.some.inj hconn)
      exact ⟨h.full, rfl, h.chunks_eq⟩
    | refused k =>
      obtain ⟨rfl, rfl⟩ := socketConn_refused hconn
      exact ⟨h.full, rfl, h.chunks_eq⟩
    | connected k =>
      -- there is no descriptor left
      obtain ⟨files', hfiles, -⟩ := Option.map_eq_some_iff.mp hconn
      rw [h.full.acquire_eq_none] at hfiles
      cases hfiles
  | link b =>
    obtain ⟨hallows, link, -, rfl⟩ := step_link hstep
    refine ⟨h.full, h.receiving_eq, ?_⟩
    cases b with
    | recv ret => exact absurd (hallows.symm.trans h.receiving_eq) (by decide)
    | _ => exact (List.append_nil _).trans h.chunks_eq
  | disconnect =>
    obtain ⟨⟨hreceiving, -⟩, -⟩ := step_disconnect hstep
    exact absurd (hreceiving.symm.trans h.receiving_eq) (by decide)
  | openOther fd =>
    obtain ⟨files, hfiles, rfl⟩ := Option.map_eq_some_iff.mp hstep
    rw [h.full.acquire_eq_none] at hfiles
    cases hfiles
  | closeOther fd =>
    obtain ⟨-, rfl⟩ := step_closeOther hstep
    exact ⟨h.full.close (hclose fd rfl), h.receiving_eq, h.chunks_eq⟩

theorem length_returned_step (hstep : s.step a = some t) :
    s.returned.length ≤ t.returned.length := by
  cases a with
  | socketConn result =>
    obtain ⟨-, fd, files, -, rfl⟩ := step_socketConn hstep
    dsimp only
    split_ifs
    · exact le_rfl
    · exact (List.prefix_append s.returned [fd.toNat]).length_le
  | link b =>
    obtain ⟨-, link, -, rfl⟩ := step_link hstep
    exact le_rfl
  | disconnect =>
    obtain ⟨-, rfl⟩ := step_disconnect hstep
    exact le_rfl
  | openOther fd =>
    obtain ⟨files, -, rfl⟩ := Option.map_eq_some_iff.mp hstep
    exact le_rfl
  | closeOther fd =>
    obtain ⟨-, rfl⟩ := step_closeOther hstep
    exact le_rfl

/-- As many connections have been lost as there may be descriptors. -/
structure UsedUp (limit : ℕ) (chunks : List (List UInt8)) (s : MainappConnection) : Prop where
  keepsOpen : s.KeepsOpen limit
  limit_le : limit ≤ s.returned.length
  cutOff : s.CutOff chunks

theorem UsedUp.step {limit : ℕ} {chunks : List (List UInt8)} (h : s.UsedUp limit chunks)
    (hstep : s.step a = some t) : t.UsedUp limit chunks where
  keepsOpen := h.keepsOpen.step hstep
  limit_le := h.limit_le.trans (length_returned_step hstep)
  cutOff := by
    refine h.cutOff.step (fun fd haction hopen => ?_) hstep
    -- the connections have all descriptors, so no other is there to be closed
    subst haction
    obtain ⟨hother, -⟩ := step_closeOther hstep
    have hall : s.returned.length = s.files.limit :=
      Nat.le_antisymm h.keepsOpen.owned.length_le (h.keepsOpen.limit_eq ▸ h.limit_le)
    exact hother (h.keepsOpen.owned.mem_of_length_eq hall (s.files.lt_limit fd hopen))

end MainappConnection

/-- **No connection gives its descriptor back.** In every run all descriptors `socket_conn`
has returned are open and different, so there are never more connections than the process
may have descriptors. When every descriptor is in use and the connection is lost, the program
never connects or receives anything again unless a descriptor is closed elsewhere; and it never
does when as many connections have been made and lost as there may be descriptors. -/
theorem connections_bounded {files : Descriptors} {s : MainappConnection}
    {acts : List ConnectionAction}
    (hrun : exec MainappConnection.step (.start files) acts = some s) :
    s.files.Owned s.returned ∧
      s.sentBefore.length + s.receiving.toNat ≤ files.limit ∧
      (s.files.Full → s.receiving = false → ∀ later t,
        (∀ fd ∈ s.files.opened, .closeOther fd ∉ later) →
          exec MainappConnection.step s later = some t →
            t.receiving = false ∧ t.chunks = s.chunks) ∧
      (s.sentBefore.length = files.limit → ∀ later t,
        exec MainappConnection.step s later = some t →
          t.receiving = false ∧ t.chunks = s.chunks) := by
  have hkeeps : s.KeepsOpen files.limit :=
    exec_invariant (MainappConnection.KeepsOpen files.limit) (fun _ _ _ h hstep => h.step hstep)
      ⟨Descriptors.owned_nil files, rfl, rfl⟩ hrun
  have hle := hkeeps.owned.length_le
  rw [hkeeps.length_eq, hkeeps.limit_eq] at hle
  have hcutOff : s.files.Full → s.receiving = false → ∀ later t,
      (∀ fd ∈ s.files.opened, .closeOther fd ∉ later) →
        exec MainappConnection.step s later = some t →
          t.receiving = false ∧ t.chunks = s.chunks := by
    intro hfull hreceiving later t hlater hexec
    -- all descriptors are open now, so what is not closed later is all of them
    have hmeets : Meets MainappConnection.step
        (fun _ a => ∀ fd < files.limit, a ≠ .closeOther fd) s later := by
      refine meets_of_forall_mem fun a ha _ fd hfd haction => hlater fd ?_ (haction ▸ ha)
      exact hfull fd (hkeeps.limit_eq ▸ hfd)
    have hinv : t.KeepsOpen files.limit ∧ t.CutOff s.chunks :=
      exec_invariant_of_meets
        (fun u => u.KeepsOpen files.limit ∧ MainappConnection.CutOff s.chunks u)
        (fun u _ _ h hc hstep => ⟨h.1.step hstep, h.2.step
          (fun fd haction hopen => hc fd (h.1.limit_eq ▸ u.files.lt_limit fd hopen) haction)
          hstep⟩)
        ⟨hkeeps, hfull, hreceiving, rfl⟩ hmeets hexec
    exact ⟨hinv.2.receiving_eq, hinv.2.chunks_eq⟩
  refine ⟨hkeeps.owned, hle, hcutOff, fun hall later t hexec => ?_⟩
  -- with the present connection there would be one too many
  have hreceiving : s.receiving = false := by
    cases hs : s.receiving with
    | false => rfl
    | true =>
      rw [hs, Bool.toNat_true] at hle
      omega
  have hlength := hkeeps.length_eq
  rw [hreceiving, Bool.toNat_false, Nat.add_zero, hall] at hlength
  have hfull := hkeeps.owned.full (hlength.trans hkeeps.limit_eq.symm)
  have hused : t.UsedUp files.limit s.chunks :=
    exec_invariant (MainappConnection.UsedUp files.limit s.chunks)
      (fun _ _ _ h hstep => h.step hstep)
      ⟨hkeeps, hlength.ge, hfull, hreceiving, rfl⟩ hexec
  exact ⟨hused.cutOff.receiving_eq, hused.cutOff.chunks_eq⟩

/-- With four descriptors, two of them in use elsewhere, after two connections are lost. -/
def twoConnectionsLost : List ConnectionAction :=
  [.openOther 0, .openOther 1, .socketConn (.connected 2), .disconnect,
    .socketConn (.connected 3), .disconnect]

theorem connections_bounded_two :
    let s := (exec MainappConnection.step (.start (.allClosed 4)) twoConnectionsLost).get
      (by decide)
    s.files.Owned [2, 3] ∧ ∀ later t, .closeOther 0 ∉ later → .closeOther 1 ∉ later →
      .closeOther 2 ∉ later → .closeOther 3 ∉ later →
        exec MainappConnection.step s later = some t → t.receiving = false ∧ t.chunks = [] := by
  obtain ⟨howned, -, hfull, -⟩ := connections_bounded
    (Option.some_get (show (exec MainappConnection.step (.start (.allClosed 4))
      twoConnectionsLost).isSome by decide)).symm
  refine ⟨howned, fun later t h₀ h₁ h₂ h₃ => hfull (by decide) rfl later t ?_⟩
  intro fd hfd
  have hlt := Descriptors.lt_limit _ fd hfd
  have hcases : fd = 0 ∨ fd = 1 ∨ fd = 2 ∨ fd = 3 := by
    have hfour : fd < 4 := hlt
    omega
  rcases hcases with rfl | rfl | rfl | rfl <;> assumption

end PhoneLink
