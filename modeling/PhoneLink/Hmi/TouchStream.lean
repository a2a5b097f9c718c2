import PhoneLink.CS.Simulation
import PhoneLink.Hmi.TouchQueue

/-!
# The touch socket as a stream of bytes

The HMI writes touch records of twelve bytes to a stream socket, and `recv` is asked for as
many. What it returns may be less than a record: it then lies over the beginning of a zeroed
one, and the next `recv` goes on in the middle of what the HMI wrote.

## Main definitions

* `PlTouchInfo.bytes`, `PlTouchInfo.ofBytes`: a record in memory
* `TouchSocket.step`: the touch queue on a stream of bytes

## Main results

* `touches_deframed`: the touches delivered are the pieces that `recv` returned, and these
  are what the HMI wrote
* `whole_records_refine`: if no `recv` returns a part of a record, every run is one of
  `TouchLink.step`
-/

namespace PhoneLink

open CS CS.Transition

/-! ### Records in memory -/

abbrev sizeofPlTouchInfo : ℕ := 12

/-- An `unsigned short`, of which the lower byte comes first. -/
def shortOfBytes (low high : UInt8) : UInt16 := .ofNat (low.toNat + 256 * high.toNat)

theorem shortOfBytes_bytes (n : UInt16) : shortOfBytes n.toUInt8 (n >>> 8).toUInt8 = n := by
  apply UInt16.toNat_inj.mp
  have hlt := n.toNat_lt
  simp only [shortOfBytes, UInt16.toNat_ofNat', UInt16.toNat_toUInt8, UInt16.toNat_shiftRight,
    UInt16.reduceToNat, Nat.reduceMod, Nat.shiftRight_eq_div_pow]
  omega

namespace PlTouchInfo

/-- The bytes of a record. The one behind `flag` aligns `x1` and may hold anything. -/
def bytes (record : PlTouchInfo) (padding : UInt8) : List UInt8 :=
  [record.x.toUInt8, (record.x >>> 8).toUInt8, record.y.toUInt8, (record.y >>> 8).toUInt8,
    record.flag, padding,
    record.x1.toUInt8, (record.x1 >>> 8).toUInt8, record.y1.toUInt8, (record.y1 >>> 8).toUInt8,
    record.flag1, record.serialNum]

/-- A zeroed record with the bytes of the piece laid over its beginning. -/
def ofBytes (piece : List UInt8) : PlTouchInfo where
  x := shortOfBytes (piece.getD 0 0) (piece.getD 1 0)
  y := shortOfBytes (piece.getD 2 0) (piece.getD 3 0)
  flag := piece.getD 4 0
  x1 := shortOfBytes (piece.getD 6 0) (piece.getD 7 0)
  y1 := shortOfBytes (piece.getD 8 0) (piece.getD 9 0)
  flag1 := piece.getD 10 0
  serialNum := piece.getD 11 0

@[simp] theorem length_bytes (record : PlTouchInfo) (padding : UInt8) :
    (record.bytes padding).length = sizeofPlTouchInfo := rfl

/-- A record is read as it was written, whatever the padding. -/
theorem ofBytes_bytes (record : PlTouchInfo) (padding : UInt8) :
    ofBytes (record.bytes padding) = record := by
  simp only [ofBytes, bytes, List.getD_cons_zero, List.getD_cons_succ, shortOfBytes_bytes]

end PlTouchInfo

/-- The bytes of records written one after the other, each with its padding. -/
def touchBytes (sent : List (PlTouchInfo × UInt8)) : List UInt8 :=
  sent.flatMap fun written => written.1.bytes written.2

theorem touchBytes_concat (sent : List (PlTouchInfo × UInt8)) (record : PlTouchInfo)
    (padding : UInt8) :
    touchBytes (sent ++ [(record, padding)]) = touchBytes sent ++ record.bytes padding := by
  rw [touchBytes, touchBytes, List.flatMap_append, List.flatMap_singleton]

/-! ### The socket -/

/-- The touch queue on a stream of bytes. To `link` every piece received is a record sent
and received. -/
structure TouchSocket where
  link : TouchLink
  /-- What the HMI wrote on each connection that has ended, and has written on the present
  one. -/
  sentBefore : List (List (PlTouchInfo × UInt8))
  sent : List (PlTouchInfo × UInt8)
  /-- Bytes written and not yet received. -/
  socket : List UInt8
  /-- What `recv` returned on each connection that has ended, and on the present one. -/
  piecesBefore : List (List (List UInt8))
  pieces : List (List UInt8)

inductive SocketAction
  /-- The HMI writes a record. -/
  | write (record : PlTouchInfo) (padding : UInt8)
  /-- `recv` returns `ret` bytes, and `write_touchmsg_sem_data` stores the record. -/
  | recv (ret : ℕ)
  /-- `recv` returns at most zero. What was in the socket is lost. -/
  | disconnect
  /-- A step that has nothing to do with what is on the socket. -/
  | link (a : TouchAction)

/-- The steps of the touch queue that put something on the socket or take it out. -/
def TouchAction.onSocket : TouchAction → Bool
  | send _ | recv | disconnect => true
  | socketConn _ | resetReadPoint | resetWritePoint | memsetTouchmsg | semPost | semWait
  | readTouchmsgSemData => false

namespace TouchSocket

def step (s : TouchSocket) : SocketAction → Option TouchSocket
  | .write record padding =>
    if s.link.thread.isConnected then
      some { s with
        sent := s.sent ++ [(record, padding)]
        socket := s.socket ++ record.bytes padding }
    else none
  | .recv ret =>
    if 0 < ret ∧ ret ≤ sizeofPlTouchInfo ∧ ret ≤ s.socket.length then
      let piece := s.socket.take ret
      (exec TouchLink.step s.link [.send (.ofBytes piece), .recv]).map fun link =>
        { s with link, socket := s.socket.drop ret, pieces := s.pieces ++ [piece] }
    else none
  | .disconnect => (s.link.step .disconnect).map fun link =>
    { s with
      link
      sentBefore := s.sentBefore ++ [s.sent]
      sent := []
      socket := []
      piecesBefore := s.piecesBefore ++ [s.pieces]
      pieces := [] }
  | .link a => if a.onSocket then none else (s.link.step a).map fun link => { s with link }

/-- What the HMI wrote on each connection. -/
def allSent (s : TouchSocket) : List (List (PlTouchInfo × UInt8)) := s.sentBefore ++ [s.sent]

/-- What `recv` returned on each connection. -/
def allPieces (s : TouchSocket) : List (List (List UInt8)) := s.piecesBefore ++ [s.pieces]

/-- No connection yet. -/
def start : TouchSocket := ⟨touchStart, [], [], [], [], []⟩

/-- The ring has room for what is stored, and no record is outstanding when the connection
is made anew. -/
def Orderly (s : TouchSocket) : SocketAction → Prop
  | .recv _ => s.link.touchmsg.backlog < maxTouchMsgSize
  | .link a => nothingOutstanding s.link a
  | .write .. | .disconnect => True

instance : ∀ (s : TouchSocket) (a : SocketAction), Decidable (s.Orderly a)
  | _, .recv _ => inferInstanceAs (Decidable (_ < _))
  | s, .link a => inferInstanceAs (Decidable (nothingOutstanding s.link a))
  | _, .write .. | _, .disconnect => isTrue trivial

/-- No `recv` returns a part of a record. -/
def WholeRecords (_ : TouchSocket) : SocketAction → Prop
  | .recv ret => ret = sizeofPlTouchInfo
  | .link _ | .write .. | .disconnect => True

instance : ∀ (s : TouchSocket) (a : SocketAction), Decidable (s.WholeRecords a)
  | _, .recv _ => inferInstanceAs (Decidable (_ = _))
  | _, .link _ | _, .write .. | _, .disconnect => isTrue trivial

end TouchSocket

namespace TouchLink

variable {s t : TouchLink} {a : TouchAction}

/-- Steps that leave the socket alone. -/
theorem sent_step_of_not_onSocket (ha : a.onSocket = false) (hstep : s.step a = some t) :
    t.socket = s.socket ∧ t.sent = s.sent ∧ t.sentBefore = s.sentBefore := by
  cases a with
  | send _ | recv | disconnect => cases ha
  | socketConn connected =>
    obtain ⟨-, rfl⟩ := step_socketConn hstep
    exact ⟨rfl, rfl, rfl⟩
  | resetReadPoint =>
    obtain ⟨connected, -, rfl⟩ := step_resetReadPoint hstep
    exact ⟨rfl, rfl, rfl⟩
  | resetWritePoint =>
    obtain ⟨connected, -, rfl⟩ := step_resetWritePoint hstep
    exact ⟨rfl, rfl, rfl⟩
  | memsetTouchmsg =>
    obtain ⟨connected, -, rfl⟩ := step_memsetTouchmsg hstep
    exact ⟨rfl, rfl, rfl⟩
  | semPost | semWait | readTouchmsgSemData =>
    obtain ⟨q, -, rfl⟩ := Option.map_eq_some_iff.mp hstep
    exact ⟨rfl, rfl, rfl⟩

theorem orderly_send_recv {record : PlTouchInfo} (h : s.touchmsg.backlog < maxTouchMsgSize) :
    Meets TouchLink.step (fun s a => nothingOutstanding s a ∧ atMostHundredUnread s a) s
      [.send record, .recv] := by
  refine ⟨⟨trivial, trivial⟩, fun u hu => ⟨⟨trivial, ?_⟩, fun _ _ => trivial⟩⟩
  obtain rfl := step_send hu
  exact h

/-- A record sent when the socket is empty is the one received. -/
theorem exec_send_recv {record : PlTouchInfo} (hsocket : s.socket = [])
    (h : exec TouchLink.step s [.send record, .recv] = some t) :
    s.thread = .receiving ∧ ∃ q, s.touchmsg.put maxTouchMsgSize (fun _ => record) record = some q ∧
      t = { s with sent := s.sent ++ [record], socket := [], touchmsg := q } := by
  obtain ⟨u, hu, hrest⟩ := exec_cons_eq_some.mp h
  obtain ⟨v, hv, hnil⟩ := exec_cons_eq_some.mp hrest
  obtain rfl := step_send hu
  obtain ⟨first, rest, q, hthread, hfirst, hq, rfl⟩ := step_recv hv
  obtain rfl := Option.some.inj hnil
  rw [hsocket] at hfirst
  obtain ⟨rfl, rfl⟩ := List.cons.inj hfirst
  exact ⟨hthread, q, hq, rfl⟩

end TouchLink

/-! ### What is received was written -/

namespace TouchSocket

variable {s t : TouchSocket} {a : SocketAction}

theorem step_recv {ret : ℕ} (h : s.step (.recv ret) = some t) :
    ret ≤ s.socket.length ∧ ∃ link,
      exec TouchLink.step s.link [.send (.ofBytes (s.socket.take ret)), .recv] = some link ∧
        t = { s with
          link, socket := s.socket.drop ret, pieces := s.pieces ++ [s.socket.take ret] } := by
  simp only [step] at h
  split_ifs at h with hret
  obtain ⟨link, hlink, rfl⟩ := Option.map_eq_some_iff.mp h
  exact ⟨hret.2.2, link, hlink, rfl⟩

theorem step_link {b : TouchAction} (h : s.step (.link b) = some t) :
    b.onSocket = false ∧ ∃ link, s.link.step b = some link ∧ t = { s with link } := by
  simp only [step] at h
  split_ifs at h with hsocket
  obtain ⟨link, hlink, rfl⟩ := Option.map_eq_some_iff.mp h
  exact ⟨Bool.eq_false_iff.mpr hsocket, link, hlink, rfl⟩

/-- The pieces are what the HMI wrote, and to the queue they are the records sent. -/
structure Fed (s : TouchSocket) : Prop where
  socket_eq : s.link.socket = []
  sent_eq : s.link.sent = s.pieces.map .ofBytes
  sentBefore_eq : s.link.sentBefore = s.piecesBefore.map (List.map .ofBytes)
  bytes_eq : touchBytes s.sent = s.pieces.flatten ++ s.socket
  bytesBefore : List.Forall₂ (fun pieces sent => pieces.flatten <+: touchBytes sent)
    s.piecesBefore s.sentBefore

theorem start_fed : start.Fed := ⟨rfl, rfl, rfl, rfl, .nil⟩

/-- What was received of each connection, the present one included. -/
theorem Fed.forall₂ (h : s.Fed) :
    List.Forall₂ (fun pieces sent => pieces.flatten <+: touchBytes sent) s.allPieces s.allSent :=
  List.rel_append h.bytesBefore (.cons ⟨s.socket, h.bytes_eq.symm⟩ .nil)

/-- To the queue the pieces of each connection are the records sent on it. -/
theorem Fed.allSent_eq (h : s.Fed) :
    s.link.sentBefore ++ [s.link.sent] = s.allPieces.map (List.map .ofBytes) := by
  rw [h.sentBefore_eq, h.sent_eq, allPieces, List.map_append, List.map_singleton]

theorem Fed.step (h : s.Fed) (hstep : s.step a = some t) : t.Fed := by
  cases a with
  | write record padding =>
    simp only [TouchSocket.step] at hstep
    split_ifs at hstep
    obtain rfl := Option.some.inj hstep
    refine ⟨h.socket_eq, h.sent_eq, h.sentBefore_eq, ?_, h.bytesBefore⟩
    rw [touchBytes_concat, h.bytes_eq, List.append_assoc]
  | recv ret =>
    obtain ⟨-, link, hlink, rfl⟩ := step_recv hstep
    obtain ⟨-, q, -, rfl⟩ := TouchLink.exec_send_recv h.socket_eq hlink
    refine ⟨rfl, ?_, h.sentBefore_eq, ?_, h.bytesBefore⟩
    · rw [List.map_append, List.map_singleton, ← h.sent_eq]
    · rw [List.flatten_append, List.flatten_singleton, List.append_assoc, List.take_append_drop]
      exact h.bytes_eq
  | disconnect =>
    obtain ⟨link, hlink, rfl⟩ := Option.map_eq_some_iff.mp hstep
    obtain ⟨-, rfl⟩ := TouchLink.step_disconnect hlink
    exact ⟨rfl, rfl, h.allSent_eq, rfl, h.forall₂⟩
  | link b =>
    obtain ⟨hb, link, hlink, rfl⟩ := step_link hstep
    obtain ⟨hsocket, hsent, hbefore⟩ := TouchLink.sent_step_of_not_onSocket hb hlink
    exact ⟨hsocket.trans h.socket_eq, hsent.trans h.sent_eq, hbefore.trans h.sentBefore_eq,
      h.bytes_eq, h.bytesBefore⟩

/-- What is stored was sent to the queue, and the ring is in order. -/
def Queued (s : TouchSocket) : Prop := s.link.Received ∧ s.link.RingInOrder

theorem start_queued : start.Queued :=
  ⟨TouchLink.touchStart_received, TouchLink.touchStart_ringInOrder⟩

theorem Queued.step (h : s.Queued) (horderly : s.Orderly a) (hstep : s.step a = some t) :
    t.Queued := by
  cases a with
  | write record padding =>
    simp only [TouchSocket.step] at hstep
    split_ifs at hstep
    obtain rfl := Option.some.inj hstep
    exact h
  | recv ret =>
    obtain ⟨-, link, hlink, rfl⟩ := step_recv hstep
    exact ⟨exec_invariant TouchLink.Received (fun _ _ _ h hstep => h.step hstep) h.1 hlink,
      exec_invariant_of_meets TouchLink.RingInOrder (fun _ _ _ h hc hstep => h.step hc hstep)
        h.2 (TouchLink.orderly_send_recv horderly) hlink⟩
  | disconnect =>
    obtain ⟨link, hlink, rfl⟩ := Option.map_eq_some_iff.mp hstep
    exact ⟨h.1.step hlink, h.2.step (a := .disconnect) ⟨trivial, trivial⟩ hlink⟩
  | link b =>
    obtain ⟨hb, link, hlink, rfl⟩ := step_link hstep
    have hunread : atMostHundredUnread s.link b := by
      cases b with
      | recv => cases hb
      | _ => trivial
    exact ⟨h.1.step hlink, h.2.step ⟨horderly, hunread⟩ hlink⟩

end TouchSocket

/-- **Touches over a stream.** However `recv` splits what the HMI writes and however often the
connection is lost, the touches delivered are, in order, the pieces that `recv` returned, each
made up to a record with zeros; and the pieces of a connection, put together, are what the HMI
wrote on it, possibly cut short. The ring must have room, and nothing may be outstanding when
the connection is made anew. -/
theorem touches_deframed {s : TouchSocket} {acts : List SocketAction}
    (hrun : exec TouchSocket.step .start acts = some s)
    (horderly : Meets TouchSocket.step TouchSocket.Orderly .start acts) :
    (∃ delivered, s.link.touchmsg.taken = delivered.map .ofBytes ∧
        PrefixesOf delivered s.allPieces) ∧
      List.Forall₂ (fun pieces sent => pieces.flatten <+: touchBytes sent)
        s.allPieces s.allSent := by
  have hfed : s.Fed := exec_invariant TouchSocket.Fed (fun _ _ _ h hstep => h.step hstep)
    TouchSocket.start_fed hrun
  have hqueued : s.Queued :=
    exec_invariant_of_meets TouchSocket.Queued (fun _ _ _ h hc hstep => h.step hc hstep)
      TouchSocket.start_queued horderly hrun
  have htaken : PrefixesOf s.link.touchmsg.taken (s.allPieces.map (List.map .ofBytes)) :=
    hfed.allSent_eq ▸ hqueued.1.prefixesOf.of_isPrefix hqueued.2.taken_isPrefix
  exact ⟨htaken.of_map, hfed.forall₂⟩

/-- A piece is received, stored and delivered. -/
def deliverPiece (ret : ℕ) : List SocketAction :=
  [.recv ret, .link .semPost, .link .semWait, .link .readTouchmsgSemData]

/-- One record in two pieces, and after a new connection one in a single piece. -/
def cutTouch : List SocketAction :=
  connectTouch.map .link ++ [.write touchDown 0] ++ deliverPiece 1 ++ deliverPiece 11 ++
    [.disconnect] ++ connectTouch.map .link ++ [.write touchDown 0] ++ deliverPiece 12

/-- The two pieces are two touches, neither of which the HMI sent. -/
theorem touches_deframed_cutTouch :
    let s := (exec TouchSocket.step .start cutTouch).get (by decide)
    ((∃ delivered, s.link.touchmsg.taken = delivered.map .ofBytes ∧
        PrefixesOf delivered s.allPieces) ∧
      List.Forall₂ (fun pieces sent => pieces.flatten <+: touchBytes sent)
        s.allPieces s.allSent) ∧
      s.link.touchmsg.taken = [⟨7, 0, 0, 0, 0, 0, 0⟩, ⟨2304, 256, 0, 0, 0, 0, 0⟩, touchDown] :=
  ⟨touches_deframed (Option.some_get _).symm (by decide), by decide⟩

/-! ### Whole records -/

/-- A touch queue with something else on its socket. -/
def TouchLink.withSocket (s : TouchLink) (sentBefore : List (List PlTouchInfo))
    (sent socket : List PlTouchInfo) : TouchLink :=
  { s with sentBefore, sent, socket }

theorem TouchLink.step_withSocket {s t : TouchLink} {a : TouchAction}
    (ha : a.onSocket = false) (hstep : s.step a = some t)
    (sentBefore : List (List PlTouchInfo)) (sent socket : List PlTouchInfo) :
    (s.withSocket sentBefore sent socket).step a = some (t.withSocket sentBefore sent socket) := by
  cases a with
  | send _ | recv | disconnect => cases ha
  | socketConn connected =>
    obtain ⟨hthread, rfl⟩ := step_socketConn hstep
    exact if_pos hthread
  | resetReadPoint =>
    obtain ⟨connected, hthread, rfl⟩ := step_resetReadPoint hstep
    simp only [TouchLink.step, withSocket, hthread]
  | resetWritePoint =>
    obtain ⟨connected, hthread, rfl⟩ := step_resetWritePoint hstep
    simp only [TouchLink.step, withSocket, hthread]
  | memsetTouchmsg =>
    obtain ⟨connected, hthread, rfl⟩ := step_memsetTouchmsg hstep
    simp only [TouchLink.step, withSocket, hthread]
  | semPost | semWait | readTouchmsgSemData =>
    obtain ⟨q, hq, rfl⟩ := Option.map_eq_some_iff.mp hstep
    exact Option.map_eq_some_iff.mpr ⟨q, hq, rfl⟩

namespace TouchSocket

/-- What a step is to the touch queue if no `recv` returns a part of a record. -/
def shows (_ : TouchSocket) : SocketAction → List TouchAction
  | .write record _ => [.send record]
  | .recv _ => [.recv]
  | .disconnect => [.disconnect]
  | .link a => [a]

/-- The touch queue with the records that the HMI wrote, of which `rest` is on the socket. -/
def onRecords (s : TouchSocket) (rest : List (PlTouchInfo × UInt8)) : TouchLink :=
  s.link.withSocket (s.sentBefore.map (List.map Prod.fst)) (s.sent.map Prod.fst)
    (rest.map Prod.fst)

/-- What is on the socket are whole records, and the touch queue has them. -/
def Matches (s : TouchSocket) (t : TouchLink) : Prop :=
  s.link.socket = [] ∧ ∃ rest, s.socket = touchBytes rest ∧ t = s.onRecords rest

theorem start_matches : start.Matches touchStart := ⟨rfl, [], rfl, rfl⟩

theorem simulates_touchLink : Simulates TouchSocket.step TouchSocket.WholeRecords shows
    TouchLink.step Matches := by
  rintro s t a s' ⟨hsocket, rest, hrest, rfl⟩ hwhole hstep
  cases a with
  | write record padding =>
    simp only [step] at hstep
    split_ifs at hstep with hconnected
    obtain rfl := Option.some.inj hstep
    refine ⟨_, exec_singleton (if_pos hconnected), hsocket, rest ++ [(record, padding)], ?_, ?_⟩
    · rw [touchBytes_concat, ← hrest]
    · simp only [onRecords, TouchLink.withSocket, List.map_append, List.map_singleton]
  | recv ret =>
    obtain rfl : ret = sizeofPlTouchInfo := hwhole
    obtain ⟨hret, link, hlink, rfl⟩ := step_recv hstep
    cases rest with
    | nil =>
      rw [hrest] at hret
      exact absurd hret (by decide)
    | cons written rest =>
      have hcut : s.socket = written.1.bytes written.2 ++ touchBytes rest := hrest
      have htake : s.socket.take sizeofPlTouchInfo = written.1.bytes written.2 := by
        rw [hcut, List.take_left' (written.1.length_bytes written.2)]
      have hdrop : s.socket.drop sizeofPlTouchInfo = touchBytes rest := by
        rw [hcut, List.drop_left' (written.1.length_bytes written.2)]
      rw [htake, PlTouchInfo.ofBytes_bytes] at hlink
      obtain ⟨hthread, q, hq, rfl⟩ := TouchLink.exec_send_recv hsocket hlink
      refine ⟨_, exec_singleton ?_, rfl, rest, hdrop, rfl⟩
      simp only [TouchLink.step, onRecords, TouchLink.withSocket, hthread, List.map_cons, hq,
        Option.map_some]
  | disconnect =>
    obtain ⟨link, hlink, rfl⟩ := Option.map_eq_some_iff.mp hstep
    obtain ⟨hidle, rfl⟩ := TouchLink.step_disconnect hlink
    refine ⟨_, exec_singleton (if_pos hidle), rfl, [], rfl, ?_⟩
    simp only [onRecords, TouchLink.withSocket, List.map_append, List.map_singleton, List.map_nil]
  | link b =>
    obtain ⟨hb, link, hlink, rfl⟩ := step_link hstep
    obtain ⟨hsame, -, -⟩ := TouchLink.sent_step_of_not_onSocket hb hlink
    exact ⟨_, exec_singleton (TouchLink.step_withSocket hb hlink _ _ _), hsame.trans hsocket,
      rest, hrest, rfl⟩

end TouchSocket

/-- **Whole records.** If no `recv` returns a part of a record, the threads do what they do in
the run of the touch queue in which the HMI sends the records, and `recv` returns them. -/
theorem whole_records_refine {s : TouchSocket} {acts : List SocketAction}
    (hrun : exec TouchSocket.step .start acts = some s)
    (hwhole : Meets TouchSocket.step TouchSocket.WholeRecords .start acts) :
    ∃ rest, s.socket = touchBytes rest ∧
      exec TouchLink.step touchStart (shown TouchSocket.step TouchSocket.shows .start acts) =
        some (s.onRecords rest) := by
  obtain ⟨t, hrun', -, rest, hrest, rfl⟩ :=
    TouchSocket.simulates_touchLink.exec_shown TouchSocket.start_matches hwhole hrun
  exact ⟨rest, hrest, hrun'⟩

/-- Of two records the first is delivered, and the second is still on the socket. -/
theorem whole_records_refine_second_waiting :
    let second : PlTouchInfo := { touchDown with x := 300, flag := 2 }
    let acts := connectTouch.map .link ++ [.write touchDown 0xFF, .write second 0] ++
      deliverPiece 12
    let s := (exec TouchSocket.step .start acts).get (by decide)
    (∃ rest, s.socket = touchBytes rest ∧
      exec TouchLink.step touchStart (shown TouchSocket.step TouchSocket.shows .start acts) =
        some (s.onRecords rest)) ∧
      s.link.touchmsg.taken = [touchDown] ∧ s.socket = second.bytes 0 :=
  ⟨whole_records_refine (Option.some_get _).symm (by decide), by decide, by decide⟩

end PhoneLink
