import PhoneLink.CS.Simulation
import PhoneLink.Send.Protected
import PhoneLink.Send.System

/-!
# The timed sender is a schedule of the threads

The program's sends are described twice: by one sender with a clock, to which ACKs come
at given times, and by four threads that take atomic steps in any order. The first leaves
out the other threads, the second leaves out time. Both are about the same code: whatever
the timed sender does the threads can do, with every wait that ends at its deadline a
time-out and every ACK that comes an event of its own. What holds in every run of the
threads therefore holds of the timed sender.

## Main definitions

* `Mirrors`: the threads are where the timed sender is, in one thread's call

## Main results

* `reaches_waitDalinkAck`, `reaches_resend`: the two loops, as steps of the threads
* `timed_sends_are_runs`: a sequence of sends in time is a run of the threads
-/

namespace PhoneLink

open CS CS.Transition

/-- Buffer, counter and ACK ring are the same in both, the same was transmitted, and
nothing is under way but the call of thread `t`. -/
structure Mirrors (s : SppSender) (S : SendSystem) (t : Thread) (p : Pc) : Prop where
  buf : S.dalinkSppSendBuf = s.dalinkSppSendBuf
  tranID : S.tranID = s.tranID
  ring : S.acks.buffer = s.ackRing
  sem : S.acks.sem = s.dalinkAckSem
  sent : S.transmitted.map Prod.snd = s.sent
  posting : S.acks.posting = false
  taking : S.acks.taking = false
  bt : S.bt = .waiting
  events : S.events = []
  pc : S.pc = Function.update (fun _ => .idle) t p
  mutex : S.sppSendProctectMutex = if p.locked then some t else none

theorem mirrors_start (arrivals : List (ℕ × BtSppDalinkAck)) (t : Thread) :
    Mirrors (.start arrivals) sendStart t .idle where
  buf := rfl
  tranID := rfl
  ring := rfl
  sem := rfl
  sent := rfl
  posting := rfl
  taking := rfl
  bt := rfl
  events := rfl
  pc := (Function.update_eq_self t fun _ => Pc.idle).symm
  mutex := rfl

section Mirrors

variable {s : SppSender} {S : SendSystem} {t u : Thread} {p : Pc} {call : Call} {hdr : Header}
  {i : ℕ}

theorem Mirrors.at (h : Mirrors s S t p) : S.pc t = p := by
  rw [h.pc, Function.update_self]

/-- The clock and the ACKs to come are the timed sender's own. -/
theorem Mirrors.clock (h : Mirrors s S t p) (now : ℕ) (arrivals : List (ℕ × BtSppDalinkAck)) :
    Mirrors { s with now := now, arrivals := arrivals } S t p :=
  ⟨h.buf, h.tranID, h.ring, h.sem, h.sent, h.posting, h.taking, h.bt, h.events, h.pc, h.mutex⟩

/-- Between calls no thread is distinguished. -/
theorem Mirrors.thread (h : Mirrors s S t .idle) (u : Thread) : Mirrors s S u .idle := by
  have hpc : S.pc = Function.update (fun _ => .idle) u .idle := by
    rw [h.pc, Function.update_eq_self, Function.update_eq_self]
  exact ⟨h.buf, h.tranID, h.ring, h.sem, h.sent, h.posting, h.taking, h.bt, h.events, hpc, h.mutex⟩

theorem Mirrors.update (h : Mirrors s S t p) (p' : Pc) :
    Function.update S.pc t p' = Function.update (fun _ => .idle) t p' := by
  rw [h.pc, Function.update_idem]

/-! ### An ACK comes -/

/-- The frame of an ACK, as an event of its own. -/
def BtSppDalinkAck.rxFrame (ack : BtSppDalinkAck) : RxFrame :=
  ⟨btSppMessageDlHuAck, 0, ack.tranId, ack.cmdId, 0⟩

/-- An ACK that comes while a thread is in a call is queued, read and posted. -/
theorem reaches_post (h : Mirrors s S t p) (ack : BtSppDalinkAck) :
    ∃ S', Reaches SendSystem.step S S' ∧
      Mirrors (s.postBtSppAckWaitSem ack.cmdId ack.tranId) S' t p := by
  let f := ack.rxFrame
  let acks := { S.acks with
    buffer := S.acks.buffer.store btSppAckMaxPacketsLen fun _ => ack
    sem := S.acks.sem + 1
    stored := S.acks.stored ++ [ack] }
  refine ⟨{ S with
    acks := acks
    enqueued := fun u => S.enqueued u || [f].any (S.pc u).acknowledgedBy
    received := fun u => S.received u || (S.pc u).acknowledgedBy f },
    ⟨[.bluetoothSppDataProc [f], .waitBtCommand, .dalinkSppPacketDeal, .dispatchCommand, .semPost,
      .dalinkSppPacketDeal], ?_⟩, ?_⟩
  · simp [exec, SendSystem.step, h.bt, h.events, f, acks, BtSppDalinkAck.rxFrame,
      postBtSppAckWaitSem, SemQueue.put, SemQueue.post, h.posting]
  · refine ⟨h.buf, h.tranID, ?_, ?_, h.sent, h.posting, h.taking, h.bt, h.events, h.pc, h.mutex⟩
    · exact congrArg (fun ring => CircularBuffer.store btSppAckMaxPacketsLen (fun _ => ack) ring)
        h.ring
    · exact congrArg (· + 1) h.sem

/-- The ACKs that are due come one after the other. -/
theorem reaches_postDue_go (h : Mirrors s S t p) (l : List (ℕ × BtSppDalinkAck)) :
    ∃ S', Reaches SendSystem.step S S' ∧ Mirrors (SppSender.postDue.go l s) S' t p := by
  induction l generalizing s S with
  | nil => exact ⟨S, .refl S, h.clock s.now []⟩
  | cons arrival rest ih =>
    rw [SppSender.postDue.go]
    split_ifs
    · obtain ⟨S₁, hreach, hposted⟩ := reaches_post h arrival.2
      obtain ⟨S₂, hreach', hrest⟩ := ih hposted
      exact ⟨S₂, hreach.trans hreach', hrest⟩
    · exact ⟨S, .refl S, h.clock s.now (arrival :: rest)⟩

/-! ### A wait -/

/-- A wait ends with a posted ACK at hand, which it takes from the semaphore, or with none
at its deadline. -/
theorem reaches_waitDalinkAckResponse (h : Mirrors s S t p) (timeOut : ℕ) :
    ∃ S', Reaches SendSystem.step S S' ∧
      ((∃ s', s.waitDalinkAckResponse timeOut =
          (0, { s' with dalinkAckSem := s'.dalinkAckSem - 1 }) ∧
        0 < s'.dalinkAckSem ∧ Mirrors s' S' t p) ∨
      ∃ s', s.waitDalinkAckResponse timeOut = (-1, s') ∧ s'.dalinkAckSem = 0 ∧
        Mirrors s' S' t p) := by
  obtain ⟨S₁, hreach, hdue⟩ := reaches_postDue_go h s.arrivals
  unfold SppSender.waitDalinkAckResponse
  change Mirrors s.postDue S₁ t p at hdue
  generalize s.postDue = u at hdue ⊢
  dsimp only
  split_ifs with hsem
  · exact ⟨S₁, hreach, .inl ⟨u, rfl, hsem, hdue⟩⟩
  · split
    · next time ack rest harrivals =>
      split_ifs
      · -- the next ACK comes in time: the clock stands at its arrival
        obtain ⟨S₂, hreach', hposted⟩ := reaches_postDue_go (hdue.clock time u.arrivals) u.arrivals
        have hpos : 0 < (SppSender.postDue { u with now := time }).dalinkAckSem :=
          SppSender.dalinkAckSem_postDue_pos harrivals le_rfl
        exact ⟨S₂, hreach.trans hreach', .inl ⟨_, rfl, hpos, hposted⟩⟩
      · exact ⟨S₁, hreach, .inr ⟨_, rfl, Nat.eq_zero_of_not_pos hsem, hdue.clock _ u.arrivals⟩⟩
    · exact ⟨S₁, hreach, .inr ⟨_, rfl, Nat.eq_zero_of_not_pos hsem, hdue.clock _ u.arrivals⟩⟩

/-- The step of the thread in a call: everything but its place in the call and the fields
it writes is as before. -/
theorem Mirrors.move {p' : Pc} {S' : SendSystem} {s' : SppSender} (h : Mirrors s S t p)
    (hpc : S'.pc = Function.update S.pc t p') (hmutex : S'.sppSendProctectMutex =
      if p'.locked then some t else none)
    (hbuf : S'.dalinkSppSendBuf = s'.dalinkSppSendBuf) (htranID : S'.tranID = s'.tranID)
    (hring : S'.acks.buffer = s'.ackRing) (hsem : S'.acks.sem = s'.dalinkAckSem)
    (hposting : S'.acks.posting = false) (htaking : S'.acks.taking = false)
    (hsent : S'.transmitted.map Prod.snd = s'.sent) (hbt : S'.bt = .waiting)
    (hevents : S'.events = []) : Mirrors s' S' t p' :=
  ⟨hbuf, htranID, hring, hsem, hsent, hposting, htaking, hbt, hevents,
    hpc.trans (h.update p'), hmutex⟩

theorem locked_afterFetch_eq (ack : BtSppDalinkAck) :
    (SendSystem.afterFetch call hdr i ack).locked = true := by
  rw [SendSystem.afterFetch_eq]
  split_ifs <;> rfl

/-- Taking a posted ACK from the semaphore and fetching it from the ring. -/
theorem reaches_fetchAck (h : Mirrors s S t (.waiting call hdr i)) (hsem : 0 < s.dalinkAckSem) :
    let fetched := SppSender.fetchAck { s with dalinkAckSem := s.dalinkAckSem - 1 }
    ∃ S', Reaches SendSystem.step S S' ∧
      Mirrors fetched.2 S' t (SendSystem.afterFetch call hdr i fetched.1) := by
  intro fetched
  have hat := h.at
  have hmutex : S.sppSendProctectMutex = some t := h.mutex
  have hpos : 0 < S.acks.sem := h.sem ▸ hsem
  have hring : getDalinkAckData S.acks.buffer = getDalinkAckData s.ackRing :=
    congrArg getDalinkAckData h.ring
  let q := { S.acks with sem := S.acks.sem - 1, taking := true }
  let S₁ := { S with acks := q, pc := Function.update S.pc t (.fetching call hdr i) }
  have hwait : S.step (.waitDalinkAckResponse t) = some S₁ := by
    have hq : S.acks.wait = some q := SemQueue.wait_eq_some.mpr ⟨⟨h.taking, hpos⟩, rfl⟩
    simp [SendSystem.step, hat, hq, S₁]
  let q' := { q with
    buffer := (getDalinkAckData q.buffer).2
    taking := false
    taken := q.taken ++ [(getDalinkAckData q.buffer).1] }
  let p' := SendSystem.afterFetch call hdr i (getDalinkAckData q.buffer).1
  let S₂ := { S₁ with acks := q', pc := Function.update S₁.pc t p' }
  have hfetch : S₁.step (.getDalinkAckData t) = some S₂ := by
    have hq : takeAck q = some q' := if_pos rfl
    simp [SendSystem.step, S₁, Function.update_self, hq, S₂, p']
  refine ⟨S₂, ((Reaches.refl S).tail hwait).tail hfetch, ?_⟩
  have hack : fetched.1 = (getDalinkAckData q.buffer).1 := congrArg Prod.fst hring.symm
  rw [hack]
  refine h.move ?_ ?_ h.buf h.tranID (congrArg Prod.snd hring) ?_ h.posting rfl h.sent h.bt h.events
  · exact Function.update_idem ..
  · rw [if_pos (locked_afterFetch_eq _)]
    exact hmutex
  · exact congrArg (· - 1) h.sem

/-- A wait that succeeds, with the fetch that follows it. -/
theorem reaches_fetched (h : Mirrors s S t (.waiting call hdr i)) (timeMs : ℕ)
    (hres : (s.waitDalinkAckResponse timeMs).1 ≠ -1) :
    let fetched := (s.waitDalinkAckResponse timeMs).2.fetchAck
    ∃ S', Reaches SendSystem.step S S' ∧
      Mirrors fetched.2 S' t (SendSystem.afterFetch call hdr i fetched.1) := by
  obtain ⟨S₁, hreach, ⟨s', hwaited, hsem, h'⟩ | ⟨s', hwaited, -, -⟩⟩ :=
    reaches_waitDalinkAckResponse h timeMs
  · obtain ⟨S₂, hreach', hfetched⟩ := reaches_fetchAck h' hsem
    rw [hwaited]
    exact ⟨S₂, hreach.trans hreach', hfetched⟩
  · exact absurd (congrArg Prod.fst hwaited) hres

/-- A wait that fails finds nothing to take. -/
theorem reaches_deadline (h : Mirrors s S t p) (timeMs : ℕ)
    (hres : ¬ (s.waitDalinkAckResponse timeMs).1 ≠ -1) :
    ∃ S', Reaches SendSystem.step S S' ∧
      (s.waitDalinkAckResponse timeMs).2.dalinkAckSem = 0 ∧
      Mirrors (s.waitDalinkAckResponse timeMs).2 S' t p := by
  obtain ⟨S₁, hreach, ⟨s', hwaited, -, -⟩ | ⟨s', hwaited, hsem, h'⟩⟩ :=
    reaches_waitDalinkAckResponse h timeMs
  · rw [hwaited] at hres
    exact absurd (show (0 : ℤ) ≠ -1 by decide) hres
  · rw [hwaited]
    exact ⟨S₁, hreach, hsem, h'⟩

/-- **A wait for an ACK**, with the ACKs that it passes over. -/
theorem reaches_waitDalinkAck (timeMs : ℕ) (s : SppSender) :
    ∀ S, Mirrors s S t (.waiting call hdr i) → ∃ S', Reaches SendSystem.step S S' ∧
      ((s.waitDalinkAck timeMs hdr.tranId hdr.cmdId).1 = 0 ∧
          Mirrors (s.waitDalinkAck timeMs hdr.tranId hdr.cmdId).2 S' t (.releasing call hdr 0) ∨
        (s.waitDalinkAck timeMs hdr.tranId hdr.cmdId).1 = -1 ∧
          (s.waitDalinkAck timeMs hdr.tranId hdr.cmdId).2.dalinkAckSem = 0 ∧
          Mirrors (s.waitDalinkAck timeMs hdr.tranId hdr.cmdId).2 S' t (.waiting call hdr i)) := by
  -- induction on the ACKs read
  induction timeMs, s using SppSender.waitDalinkAck.induct hdr.tranId hdr.cmdId with
  | case1 timeMs s waited hres fetched hcmd ih =>
    intro S h
    obtain ⟨S₁, hreach, hfetched⟩ := reaches_fetched h timeMs hres
    rw [SendSystem.afterFetch, if_pos hcmd] at hfetched
    obtain ⟨S₂, hreach', hrest⟩ := ih S₁ hfetched
    rw [SppSender.waitDalinkAck, dif_pos hres, if_pos hcmd]
    exact ⟨S₂, hreach.trans hreach', hrest⟩
  | case2 timeMs s waited hres fetched hcmd htran ih =>
    intro S h
    obtain ⟨S₁, hreach, hfetched⟩ := reaches_fetched h timeMs hres
    rw [SendSystem.afterFetch, if_neg hcmd, if_pos htran] at hfetched
    obtain ⟨S₂, hreach', hrest⟩ := ih S₁ hfetched
    rw [SppSender.waitDalinkAck, dif_pos hres, if_neg hcmd, if_pos htran]
    exact ⟨S₂, hreach.trans hreach', hrest⟩
  | case3 timeMs s waited hres fetched hcmd htran =>
    intro S h
    obtain ⟨S₁, hreach, hfetched⟩ := reaches_fetched h timeMs hres
    rw [SendSystem.afterFetch, if_neg hcmd, if_neg htran] at hfetched
    rw [SppSender.waitDalinkAck, dif_pos hres, if_neg hcmd, if_neg htran]
    exact ⟨S₁, hreach, .inl ⟨rfl, hfetched⟩⟩
  | case4 timeMs s waited hres =>
    intro S h
    obtain ⟨S₁, hreach, hsem, htimedOut⟩ := reaches_deadline h timeMs hres
    rw [SppSender.waitDalinkAck, dif_neg hres]
    exact ⟨S₁, hreach, .inr ⟨rfl, hsem, htimedOut⟩⟩

/-! ### A send -/

/-- A transmission. -/
theorem reaches_sendSppData (h : Mirrors s S t (.sending call hdr i)) :
    ∃ S', Reaches SendSystem.step S S' ∧
      Mirrors (s.sendSppData call.cDataLen) S' t (SendSystem.afterSend call hdr i) := by
  have hstep : S.step (.sendSppData t) = some { S with
      transmitted := S.transmitted ++
        [(call.frame.bytes, S.dalinkSppSendBuf.read 0 call.cDataLen.toNat)]
      enqueued := SendSystem.forget i t S.enqueued
      received := SendSystem.forget i t S.received
      pc := Function.update S.pc t (SendSystem.afterSend call hdr i) } := by
    simp [SendSystem.step, h.at]
  refine ⟨_, (Reaches.refl S).tail hstep, ?_⟩
  refine h.move rfl ?_ h.buf h.tranID h.ring h.sem h.posting h.taking ?_ h.bt h.events
  · have hlocked : (SendSystem.afterSend call hdr i).locked = true := by
      unfold SendSystem.afterSend
      split_ifs <;> rfl
    rw [if_pos hlocked]
    exact h.mutex
  · simp [h.sent, h.buf, SppSender.sendSppData]

/-- A time-out, after so many transmissions. -/
theorem reaches_timeout (h : Mirrors s S t (.waiting call hdr i)) (hsem : s.dalinkAckSem = 0) :
    ∃ S', Reaches SendSystem.step S S' ∧
      Mirrors s S' t (SendSystem.afterTimeout call hdr i) := by
  have hstep : S.step (.timeout t) = some { S with
      pc := Function.update S.pc t (SendSystem.afterTimeout call hdr i) } := by
    simp [SendSystem.step, h.at, h.sem, hsem]
  refine ⟨_, (Reaches.refl S).tail hstep, ?_⟩
  refine h.move rfl ?_ h.buf h.tranID h.ring h.sem h.posting h.taking h.sent h.bt h.events
  have hlocked : (SendSystem.afterTimeout call hdr i).locked = true := by
    unfold SendSystem.afterTimeout
    split_ifs <;> rfl
  rw [if_pos hlocked]
  exact h.mutex

/-- A transmission and, with the D flag, the wait after it. -/
theorem reaches_pass (h : Mirrors s S t (.sending call hdr i)) (hflag : hdr.dFlag = 0x01) :
    let waited := (s.sendSppData call.cDataLen).waitDalinkAck 1000 hdr.tranId hdr.cmdId
    ∃ S', Reaches SendSystem.step S S' ∧
      (waited.1 = 0 ∧ Mirrors waited.2 S' t (.releasing call hdr 0) ∨
        waited.1 ≠ 0 ∧ Mirrors waited.2 S' t (SendSystem.afterTimeout call hdr (i + 1))) := by
  intro waited
  obtain ⟨S₁, hreach, hsent⟩ := reaches_sendSppData h
  have hneeds : hdr.dFlag = dFlagNeedAck := hflag
  rw [SendSystem.afterSend, if_pos hneeds] at hsent
  obtain ⟨S₂, hreach', ⟨hres, hdone⟩ | ⟨hres, hsem, hwaiting⟩⟩ :=
    reaches_waitDalinkAck 1000 _ S₁ hsent
  · exact ⟨S₂, hreach.trans hreach', .inl ⟨hres, hdone⟩⟩
  · obtain ⟨S₃, hreach'', htimeout⟩ := reaches_timeout hwaiting hsem
    refine ⟨S₃, (hreach.trans hreach').trans hreach'', .inr ⟨?_, htimeout⟩⟩
    rw [hres]
    decide

/-- Without the D flag one transmission is all. -/
theorem reaches_once (h : Mirrors s S t (.sending call hdr i)) (hflag : ¬ hdr.dFlag = 0x01) :
    ∃ S', Reaches SendSystem.step S S' ∧
      Mirrors (s.sendSppData call.cDataLen) S' t (.releasing call hdr 0) := by
  obtain ⟨S₁, hreach, hsent⟩ := reaches_sendSppData h
  have hneeds : ¬ hdr.dFlag = dFlagNeedAck := hflag
  rw [SendSystem.afterSend, if_neg hneeds] at hsent
  exact ⟨S₁, hreach, hsent⟩

/-- **The loop of a send**: it ends with the result that the thread returns. -/
theorem reaches_resend (left : ℕ) (h : Mirrors s S t (.sending call hdr i)) (hi : i + left = 2) :
    ∃ S', Reaches SendSystem.step S S' ∧
      Mirrors (SppSender.resend hdr call.cDataLen (left + 1) s).2 S' t
        (.releasing call hdr (SppSender.resend hdr call.cDataLen (left + 1) s).1) := by
  -- induction on the transmissions left
  induction left generalizing s S i with
  | zero =>
    rw [SppSender.resend]
    dsimp only
    by_cases hflag : hdr.dFlag = 0x01
    · rw [if_pos hflag]
      obtain ⟨S₁, hreach, ⟨hres, hdone⟩ | ⟨hres, hgivenUp⟩⟩ := reaches_pass h hflag
      · rw [if_neg (not_not_intro hres)]
        exact ⟨S₁, hreach, hdone⟩
      · rw [if_pos hres]
        rw [SendSystem.afterTimeout, if_neg (by omega)] at hgivenUp
        exact ⟨S₁, hreach, hgivenUp⟩
    · rw [if_neg hflag]
      exact reaches_once h hflag
  | succ left ih =>
    rw [SppSender.resend]
    dsimp only
    by_cases hflag : hdr.dFlag = 0x01
    · rw [if_pos hflag]
      obtain ⟨S₁, hreach, ⟨hres, hdone⟩ | ⟨hres, hagain⟩⟩ := reaches_pass h hflag
      · rw [if_neg (not_not_intro hres)]
        exact ⟨S₁, hreach, hdone⟩
      · rw [if_pos hres]
        rw [SendSystem.afterTimeout, if_pos (by omega)] at hagain
        obtain ⟨S₂, hreach', hrest⟩ := ih hagain (by omega)
        exact ⟨S₂, hreach.trans hreach', hrest⟩
    · rw [if_neg hflag]
      exact reaches_once h hflag

/-- **One send in time is a run of the threads.** The Bluetooth message thread posts the
ACKs, so the sender is another thread. -/
theorem reaches_sendCreated (h : Mirrors s S t .idle) (ht : t ≠ .bt) (r : Request) :
    ∃ S', Reaches SendSystem.step S S' ∧ Mirrors (s.sendCreated r) S' t .idle := by
  let call := Call.ofRequest r S.tranID S.dalinkSppSendBuf
  let created := r.create S.tranID S.dalinkSppSendBuf
  let S₁ := { S with
    dalinkSppSendBuf := created.desbuf
    tranID := created.tranID
    builder := some t
    pc := Function.update S.pc t (.created call) }
  have hcreate : S.step (.create t r) = some S₁ := by
    simp [SendSystem.step, ht, SendSystem.build, h.at, S₁, created, call]
  let S₂ := { S₁ with
    sppSendProctectMutex := some t
    pc := Function.update S₁.pc t (.sending call (readHeader S₁.dalinkSppSendBuf) 0) }
  have hlen : ¬ call.cDataLen < 10 := UInt8.not_lt.mpr (UInt8.le_iff_toNat_le.mpr call.ten_le)
  have hfree : S.sppSendProctectMutex = none := h.mutex
  have hlock : S₁.step (.lock t) = some S₂ := by
    simp [SendSystem.step, S₁, hlen, hfree, S₂]
  have hcreated : r.create S.tranID S.dalinkSppSendBuf = r.create s.tranID s.dalinkSppSendBuf := by
    rw [h.tranID, h.buf]
  have hsending : Mirrors (s.createPacket r).2 S₂ t
      (.sending call (readHeader S₁.dalinkSppSendBuf) 0) := by
    refine h.move ?_ rfl ?_ ?_ h.ring h.sem h.posting h.taking h.sent h.bt h.events
    · exact Function.update_idem ..
    · exact congrArg Created.desbuf hcreated
    · exact congrArg Created.tranID hcreated
  obtain ⟨S₃, hreach, hreleasing⟩ := reaches_resend 2 hsending rfl
  have hsent : s.sendCreated r = (SppSender.resend (readHeader S₁.dalinkSppSendBuf)
      call.cDataLen 3 (s.createPacket r).2).2 := by
    have hsize : UInt8.ofInt (s.createPacket r).1 = call.cDataLen :=
      congrArg (fun created => UInt8.ofInt (Created.ret created)) hcreated.symm
    have hbuf : S₁.dalinkSppSendBuf = (s.createPacket r).2.dalinkSppSendBuf :=
      congrArg Created.desbuf hcreated
    rw [SppSender.sendCreated, hsize, SppSender.protectedSppSendData, if_neg hlen, hbuf]
  have hrelease : S₃.step (.release t) =
      some { S₃.finish t with sppSendProctectMutex := none } := by
    simp [SendSystem.step, hreleasing.at]
  refine ⟨_, ((((Reaches.refl S).tail hcreate).tail hlock).trans hreach).tail hrelease, ?_⟩
  rw [hsent]
  refine hreleasing.move rfl rfl hreleasing.buf hreleasing.tranID hreleasing.ring hreleasing.sem
    hreleasing.posting hreleasing.taking hreleasing.sent ?_ hreleasing.events
  exact (if_neg ht).trans hreleasing.bt

end Mirrors

/-- **Sends in time are runs of the threads.** For every schedule of ACKs and every sequence
of sends, each by a thread of its own choice other than the Bluetooth message thread, the
threads have a run that ends with the timed sender's buffer, counter, ACK ring and
semaphore, that has transmitted the same bytes in the same order, and in which every call
has returned. -/
theorem timed_sends_are_runs (arrivals : List (ℕ × BtSppDalinkAck))
    (sends : List (Thread × Request)) (hsends : ∀ send ∈ sends, send.1 ≠ .bt) :
    ∃ S, Reaches SendSystem.step sendStart S ∧
      Mirrors (sends.foldl (fun s send => s.sendCreated send.2) (.start arrivals)) S .main
        .idle := by
  induction sends using List.reverseRecOn with
  | nil => exact ⟨sendStart, .refl sendStart, mirrors_start arrivals .main⟩
  | append_singleton sends send ih =>
    obtain ⟨S₁, hreach, hbefore⟩ :=
      ih fun other hother => hsends other (List.mem_append_left _ hother)
    have hthread : send.1 ≠ .bt := hsends send (by simp)
    obtain ⟨S₂, hreach', hafter⟩ := reaches_sendCreated (hbefore.thread send.1) hthread send.2
    rw [List.foldl_append]
    exact ⟨S₂, hreach.trans hreach', hafter.thread .main⟩

/-- The HMI thread reports the parking state, and the touch thread a contact, while ACKs
come early, for another frame, and never. -/
theorem timed_sends_are_runs_two_threads :
    ∃ S, Reaches SendSystem.step sendStart S ∧
      Mirrors ([(Thread.hmi, Request.parkinfo 1), (.touch, .touchscreen 5 6 0 0)].foldl
        (fun s send => s.sendCreated send.2) (.start [(0, ⟨7, 0x3A⟩), (900, ⟨9, 0x3A⟩)])) S
        .main .idle :=
  timed_sends_are_runs [(0, ⟨7, 0x3A⟩), (900, ⟨9, 0x3A⟩)]
    [(.hmi, .parkinfo 1), (.touch, .touchscreen 5 6 0 0)] (by decide)

end PhoneLink
