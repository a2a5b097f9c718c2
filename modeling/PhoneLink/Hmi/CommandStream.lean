import PhoneLink.CS.Pieces
import PhoneLink.CS.Run
import PhoneLink.CS.SemQueue

/-!
# The HMI command stream

The HMI writes messages of 260 bytes to a stream socket. The receiving thread
takes the bytes out in chunks of whatever size `recv` returns, cuts whole messages
off the front of each chunk and throws the rest of the chunk away; the messages go
through a ring of ten slots to the thread that deals with them.

## Main results

* `HmiLink.Framed.step`: as long as no chunk leaves a rest, the bytes written are
  those of the messages stored, of the chunk and of the socket
* `hmiCommands_reassembled`: the messages dequeued are a prefix of those sent, along
  every run in which no `recv` follows a chunk with a rest and every message is
  stored while fewer than ten are unread
-/

namespace PhoneLink

open CS CS.Transition

abbrev sizeofPlMsgInfo : ℕ := 260
abbrev sizeofRecBuf : ℕ := 4096
abbrev maxHmiMsgSize : ℕ := 10

/-- The bytes of one `PL_MsgInfo_t`: the message type and the 256 bytes of `MsgBuf`. -/
structure PlMsgInfo where
  bytes : List UInt8
  length_bytes : bytes.length = sizeofPlMsgInfo
  deriving DecidableEq

theorem PlMsgInfo.bytes_injective : Function.Injective PlMsgInfo.bytes := by
  rintro ⟨bytes, _⟩ ⟨_, _⟩ rfl
  rfl

/-- A message whose bytes are all `b`. -/
def PlMsgInfo.fill (b : UInt8) : PlMsgInfo :=
  ⟨List.replicate sizeofPlMsgInfo b, List.length_replicate⟩

/-- The connection, the receiving thread's buffer and loop index, and the ring of
messages with its semaphore. -/
structure HmiLink where
  /-- The messages the HMI has written. -/
  sent : List PlMsgInfo
  /-- Bytes written and not yet received. -/
  socket : List UInt8
  /-- The `ret` bytes of the last chunk. -/
  recBuf : List UInt8
  i : ℕ
  hmiMsg : SemQueue PlMsgInfo PlMsgInfo

inductive HmiAction
  /-- The HMI writes a message. -/
  | send (msg : PlMsgInfo)
  /-- `recv` returns `ret` bytes. -/
  | recv (ret : ℕ)
  /-- A pass of the inner loop up to the `sem_post` of `write_hmimsg_sem_data`. -/
  | writeHmimsgSemData
  | semPost
  | semWait
  | readHmimsgSemData
  deriving DecidableEq

def HmiLink.step (s : HmiLink) : HmiAction → Option HmiLink
  | .send msg => some { s with sent := s.sent ++ [msg], socket := s.socket ++ msg.bytes }
  | .recv ret =>
    -- the inner loop has ended, and the call in its last pass has returned
    if s.i + sizeofPlMsgInfo ≤ s.recBuf.length ∨ s.hmiMsg.posting then none
    else if 0 < ret ∧ ret ≤ sizeofRecBuf ∧ ret ≤ s.socket.length then
      -- what was left of the last chunk is gone
      some { s with socket := s.socket.drop ret, recBuf := s.socket.take ret, i := 0 }
    else none
  | .writeHmimsgSemData =>
    if h : s.i + sizeofPlMsgInfo ≤ s.recBuf.length then
      let msg : PlMsgInfo := ⟨(s.recBuf.drop s.i).take sizeofPlMsgInfo, by simp; omega⟩
      (s.hmiMsg.put maxHmiMsgSize (fun _ => msg) msg).map fun q =>
        { s with hmiMsg := q, i := s.i + sizeofPlMsgInfo }
    else none
  | .semPost => s.hmiMsg.post.map fun q => { s with hmiMsg := q }
  | .semWait => s.hmiMsg.wait.map fun q => { s with hmiMsg := q }
  | .readHmimsgSemData => (s.hmiMsg.take maxHmiMsgSize id).map fun q => { s with hmiMsg := q }

/-- Connected, nothing written yet. -/
def hmiStart : HmiLink := ⟨[], [], [], 0, .start (.clear (.fill 0))⟩

/-- No `recv` follows a chunk with a rest, and a message is stored only while fewer
than ten are unread. -/
def wholeMessagesAndSpace (s : HmiLink) : HmiAction → Prop
  | .recv _ => s.i = s.recBuf.length
  | .writeHmimsgSemData => s.hmiMsg.backlog < maxHmiMsgSize
  | _ => True

instance : ∀ (s : HmiLink) (a : HmiAction), Decidable (wholeMessagesAndSpace s a)
  | _, .recv _ => inferInstanceAs (Decidable (_ = _))
  | _, .writeHmimsgSemData => inferInstanceAs (Decidable (_ < _))
  | _, .send _ | _, .semPost | _, .semWait | _, .readHmimsgSemData => isTrue trivial

namespace HmiLink

/-- The bytes written are those of the messages stored, what is left of the chunk
and what is still in the socket; and the ring is in order. -/
structure Framed (s : HmiLink) : Prop where
  sent_eq : s.sent.flatMap PlMsgInfo.bytes =
    s.hmiMsg.stored.flatMap PlMsgInfo.bytes ++ (s.recBuf.drop s.i ++ s.socket)
  fifo : s.hmiMsg.Fifo maxHmiMsgSize id

theorem hmiStart_framed : Framed hmiStart where
  sent_eq := rfl
  fifo := SemQueue.fifo_start (CircularBuffer.represents_clear (by decide) _)

variable {s t : HmiLink} {a : HmiAction}

theorem Framed.step (h : s.Framed) (hcond : wholeMessagesAndSpace s a)
    (hstep : s.step a = some t) : t.Framed := by
  cases a with
  | send msg =>
    obtain rfl := Option.some.inj hstep
    refine ⟨?_, h.fifo⟩
    simp only [List.flatMap_append, List.flatMap_cons, List.flatMap_nil, List.append_nil,
      h.sent_eq, List.append_assoc]
  | recv ret =>
    simp only [HmiLink.step] at hstep
    split_ifs at hstep
    obtain rfl := Option.some.inj hstep
    -- the chunk thrown away is used up
    have hrest : s.recBuf.drop s.i = [] := List.drop_eq_nil_of_le (Nat.le_of_eq hcond.symm)
    refine ⟨?_, h.fifo⟩
    rw [h.sent_eq, hrest, List.nil_append, List.drop_zero, List.take_append_drop]
  | writeHmimsgSemData =>
    simp only [HmiLink.step] at hstep
    split_ifs at hstep
    obtain ⟨q, hq, rfl⟩ := Option.map_eq_some_iff.mp hstep
    refine ⟨?_, h.fifo.put hcond rfl hq⟩
    obtain ⟨-, rfl⟩ := SemQueue.put_eq_some.mp hq
    -- the chunk is split where the message ends
    rw [h.sent_eq, List.flatMap_append, List.flatMap_singleton,
      ← List.drop_drop, List.append_assoc, ← List.append_assoc (List.take _ _),
      List.take_append_drop]
  | semPost =>
    obtain ⟨q, hq, rfl⟩ := Option.map_eq_some_iff.mp hstep
    refine ⟨?_, h.fifo.post hq⟩
    obtain ⟨-, rfl⟩ := SemQueue.post_eq_some.mp hq
    exact h.sent_eq
  | semWait =>
    obtain ⟨q, hq, rfl⟩ := Option.map_eq_some_iff.mp hstep
    refine ⟨?_, h.fifo.wait hq⟩
    obtain ⟨-, rfl⟩ := SemQueue.wait_eq_some.mp hq
    exact h.sent_eq
  | readHmimsgSemData =>
    obtain ⟨q, hq, rfl⟩ := Option.map_eq_some_iff.mp hstep
    refine ⟨?_, h.fifo.take hq⟩
    obtain ⟨-, rfl⟩ := SemQueue.take_eq_some.mp hq
    exact h.sent_eq

/-- The messages stored are a prefix of those sent. -/
theorem Framed.stored_isPrefix (h : s.Framed) : s.hmiMsg.stored <+: s.sent :=
  prefix_of_flatMap_append PlMsgInfo.bytes_injective PlMsgInfo.length_bytes (by decide) h.sent_eq

end HmiLink

/-- **The command stream is reassembled** along every run in which chunks end where
messages end and the ring has room for every message stored: the messages dequeued
are a prefix of the messages sent. -/
theorem hmiCommands_reassembled {s : HmiLink} {acts : List HmiAction}
    (hrun : exec HmiLink.step hmiStart acts = some s)
    (hcond : Meets HmiLink.step wholeMessagesAndSpace hmiStart acts) :
    s.hmiMsg.taken <+: s.sent := by
  have hframed : s.Framed :=
    exec_invariant_of_meets HmiLink.Framed (fun _ _ _ h hc hstep => h.step hc hstep)
      HmiLink.hmiStart_framed hcond hrun
  exact hframed.fifo.taken_isPrefix.trans hframed.stored_isPrefix

/-- Three messages in two chunks, of two and of one. The first is read while the second waits
in the ring. -/
def threeHmiMessages : List HmiAction :=
  [.send (.fill 1), .send (.fill 2), .recv 520, .writeHmimsgSemData, .semPost,
    .writeHmimsgSemData, .semPost, .send (.fill 3), .semWait, .readHmimsgSemData, .recv 260,
    .writeHmimsgSemData, .semWait, .readHmimsgSemData, .semPost]

theorem hmiCommands_reassembled_two_chunks :
    let s := (exec HmiLink.step hmiStart threeHmiMessages).get (by decide +kernel)
    s.hmiMsg.taken <+: s.sent :=
  hmiCommands_reassembled (Option.some_get _).symm (by decide +kernel)

/-- Two messages that `recv` splits one byte before the end of the first. -/
def splitHmiMessages : List HmiAction :=
  [.send (.fill 1), .send (.fill 2), .recv 259, .recv 261, .writeHmimsgSemData, .semPost,
    .semWait, .readHmimsgSemData]

set_option maxRecDepth 8000 in
/-- The message dequeued is made of the last byte of the first and all but one byte
of the second. -/
theorem split_chunk_mixes_messages :
    (exec HmiLink.step hmiStart splitHmiMessages).map
        (fun s => (s.hmiMsg.taken.map PlMsgInfo.bytes, s.sent)) =
      some ([1 :: List.replicate 259 2], [.fill 1, .fill 2]) := by
  decide

end PhoneLink
