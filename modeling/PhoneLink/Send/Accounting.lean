import PhoneLink.CS.TimedQueue
import PhoneLink.Send.Protected
import PhoneLink.Send.System

/-!
# Transmissions and the ACKs they take

What one send does with the ACK ring and its semaphore, for every timed schedule of ACKs.
The ring together with the schedule is a timed queue, and the two nested loops of the
send are attempts to read the frame's ACK from it.

## Main results

* `waitDalinkAck_spec`, `resend_spec`: the loops are `TimedQueue.await` and
  `TimedQueue.attempts`
* `protectedSppSendData_spec`: so a send with the D flag is up to three attempts
* `sent_and_read`: the number of transmissions, the result and the ACKs read agree
* `transmitted_once_iff`: an ACK that comes within a second prevents the second
  transmission if and only if no gap between the ACKs before it is longer than 40 ms
-/

namespace PhoneLink.SppSender

open CS CS.TimedQueue

variable {s t : SppSender} {l rest : List (ℕ × BtSppDalinkAck)} {q : ℕ × BtSppDalinkAck}
  {now timeMs : ℕ}

/-! ### Posted, unread and to come -/

/-- The ACKs `l` are unread or still to come: the posted ones are those in the ring, and
the semaphore counts them. -/
def Unread (s : SppSender) (l : List (ℕ × BtSppDalinkAck)) : Prop :=
  ∃ posted, l = posted ++ s.arrivals ∧ (∀ q ∈ posted, q.1 ≤ s.now) ∧
    s.ackRing.Represents btSppAckMaxPacketsLen id (posted.map Prod.snd) ∧
    s.dalinkAckSem = posted.length

/-- All ACKs of `l` up to `now` are posted. -/
structure Posted (now : ℕ) (l : List (ℕ × BtSppDalinkAck)) (s : SppSender) : Prop where
  now_eq : s.now = now
  arrivals_eq : s.arrivals = l.dropWhile fun q => q.1 ≤ now
  represents : s.ackRing.Represents btSppAckMaxPacketsLen id
    ((l.takeWhile fun q => q.1 ≤ now).map Prod.snd)
  dalinkAckSem_eq : s.dalinkAckSem = (l.takeWhile fun q => q.1 ≤ now).length

theorem postDue_go_eq (l : List (ℕ × BtSppDalinkAck)) (s : SppSender) :
    postDue.go l s = { s with
      ackRing := (l.takeWhile fun q => q.1 ≤ s.now).foldl
        (fun ring q => ring.store btSppAckMaxPacketsLen fun _ => q.2) s.ackRing
      dalinkAckSem := s.dalinkAckSem + (l.takeWhile fun q => q.1 ≤ s.now).length
      arrivals := l.dropWhile fun q => q.1 ≤ s.now } := by
  induction l generalizing s with
  | nil => rfl
  | cons q rest ih =>
    rw [postDue.go]
    by_cases hdue : q.1 ≤ s.now
    · rw [if_pos hdue, ih, List.takeWhile_cons_of_pos (by simpa using hdue),
        List.dropWhile_cons_of_pos (by simpa using hdue), List.length_cons, ← Nat.add_assoc,
        Nat.add_right_comm]
      rfl
    · rw [if_neg hdue, List.takeWhile_cons_of_neg (by simpa using hdue),
        List.dropWhile_cons_of_neg (by simpa using hdue)]
      rfl

@[simp] theorem now_postDue (s : SppSender) : s.postDue.now = s.now := by
  rw [postDue, postDue_go_eq]

/-- What is still to be posted comes later. -/
theorem now_lt_of_mem_head?_postDue (s : SppSender) :
    ∀ q ∈ s.postDue.arrivals.head?, s.now < q.1 := by
  intro q hq
  rw [postDue, postDue_go_eq] at hq
  have hhead := List.head?_dropWhile_not (fun q : ℕ × BtSppDalinkAck => q.1 ≤ s.now) s.arrivals
  rw [Option.mem_def.mp hq] at hhead
  simpa using hhead

theorem takeWhile_of_late (hlate : ∀ q ∈ l.head?, now < q.1) :
    (l.takeWhile fun q => q.1 ≤ now) = [] ∧ (l.dropWhile fun q => q.1 ≤ now) = l := by
  cases l with
  | nil => exact ⟨rfl, rfl⟩
  | cons q rest =>
    have hq : ¬ decide (q.1 ≤ now) = true := by simpa using hlate q rfl
    exact ⟨List.takeWhile_cons_of_neg hq, List.dropWhile_cons_of_neg hq⟩

/-- Posting what is due. -/
theorem Unread.postDue (h : s.Unread l)
    (hroom : (l.takeWhile fun q => q.1 ≤ s.now).length < btSppAckMaxPacketsLen) :
    Posted s.now l s.postDue := by
  obtain ⟨posted, rfl, hposted, hring, hsem⟩ := h
  have hdue : ∀ q ∈ posted, decide (q.1 ≤ s.now) = true := fun q hq => by simpa using hposted q hq
  rw [List.takeWhile_append_of_pos hdue, List.length_append] at hroom
  rw [SppSender.postDue, postDue_go_eq]
  refine ⟨rfl, (List.dropWhile_append_of_pos hdue).symm, ?_, ?_⟩
  · rw [List.takeWhile_append_of_pos hdue, List.map_append]
    exact hring.foldl_store Prod.snd (by rw [List.length_map]; exact hroom.le)
  · rw [List.takeWhile_append_of_pos hdue, List.length_append, ← hsem]

/-- The ring's oldest ACK is the head of the queue. -/
theorem Posted.fetchAck (h : Posted now (q :: rest) t) (hdue : q.1 ≤ now)
    (hroom : ((q :: rest).takeWhile fun r => r.1 ≤ now).length < btSppAckMaxPacketsLen) :
    let fetched := SppSender.fetchAck { t with dalinkAckSem := t.dalinkAckSem - 1 }
    fetched.1 = q.2 ∧ fetched.2.now = now ∧ fetched.2.Unread rest := by
  obtain ⟨hnow, harrivals, hring, hsem⟩ := h
  rw [List.takeWhile_cons_of_pos (by simpa using hdue)] at hroom hring hsem
  rw [List.dropWhile_cons_of_pos (by simpa using hdue)] at harrivals
  -- the ring is neither empty nor full
  have hne : t.ackRing.readPoint ≠ t.ackRing.writePoint := fun heq => by
    rcases hring.readPoint_eq_writePoint_iff.mp heq with hnil | hfull
    · simp at hnil
    · rw [List.length_map] at hfull
      omega
  dsimp only [SppSender.fetchAck]
  rw [getDalinkAckData_eq hne]
  refine ⟨hring.front, hnow, rest.takeWhile fun r => r.1 ≤ now, ?_, ?_, hring.drop, ?_⟩
  · dsimp only
    rw [harrivals, List.takeWhile_append_dropWhile]
  · intro r hr
    dsimp only
    rw [hnow]
    simpa using List.mem_takeWhile_imp hr
  · dsimp only
    rw [hsem, List.length_cons, Nat.add_sub_cancel]

/-! ### The clock -/

theorem now_le_waitDalinkAckResponse (timeOut : ℕ) (s : SppSender) :
    s.now ≤ (s.waitDalinkAckResponse timeOut).2.now := by
  have hnow := now_postDue s
  unfold waitDalinkAckResponse
  dsimp only
  split_ifs
  · exact hnow.ge
  · split
    · next time ack rest harrivals =>
      split_ifs
      · have hlater : s.now < time :=
          now_lt_of_mem_head?_postDue s (time, ack) (by rw [harrivals]; rfl)
        dsimp only
        rw [now_postDue]
        exact hlater.le
      · exact hnow ▸ Nat.le_add_right _ timeOut
    · exact hnow ▸ Nat.le_add_right _ timeOut

theorem now_le_waitDalinkAck (timeMs : ℕ) (tranId : UInt16) (cmdId : UInt8) (s : SppSender) :
    s.now ≤ (s.waitDalinkAck timeMs tranId cmdId).2.now := by
  induction timeMs, s using waitDalinkAck.induct tranId cmdId with
  | case1 timeMs s waited hres fetched hcmd ih =>
    rw [waitDalinkAck, dif_pos hres, if_pos hcmd]
    exact (now_le_waitDalinkAckResponse timeMs s).trans ih
  | case2 timeMs s waited hres fetched hcmd htran ih =>
    rw [waitDalinkAck, dif_pos hres, if_neg hcmd, if_pos htran]
    exact (now_le_waitDalinkAckResponse timeMs s).trans ih
  | case3 timeMs s waited hres fetched hcmd htran =>
    rw [waitDalinkAck, dif_pos hres, if_neg hcmd, if_neg htran]
    exact now_le_waitDalinkAckResponse timeMs s
  | case4 timeMs s waited hres =>
    rw [waitDalinkAck, dif_neg hres]
    exact now_le_waitDalinkAckResponse timeMs s

theorem now_le_resend (hdr : Header) (cDataLen : UInt8) (left : ℕ) (s : SppSender) :
    s.now ≤ (resend hdr cDataLen left s).2.now := by
  induction left generalizing s with
  | zero => exact le_rfl
  | succ left ih =>
    have hwaited := now_le_waitDalinkAck 1000 hdr.tranId hdr.cmdId (s.sendSppData cDataLen)
    rw [resend]
    dsimp only
    split_ifs
    · exact hwaited.trans (ih _)
    · exact hwaited
    · exact le_rfl

/-! ### One wait for the semaphore -/

theorem waitDalinkAckResponse_of_posted (hsem : 0 < s.postDue.dalinkAckSem) :
    s.waitDalinkAckResponse timeMs =
      (0, { s.postDue with dalinkAckSem := s.postDue.dalinkAckSem - 1 }) := if_pos hsem

theorem waitDalinkAckResponse_of_due (hsem : s.postDue.dalinkAckSem = 0)
    (harrivals : s.postDue.arrivals = q :: rest) (hdue : q.1 ≤ s.postDue.now + timeMs) :
    s.waitDalinkAckResponse timeMs =
      let posted := postDue { s.postDue with now := q.1 }
      (0, { posted with dalinkAckSem := posted.dalinkAckSem - 1 }) := by
  unfold waitDalinkAckResponse
  generalize s.postDue = u at hsem harrivals hdue
  obtain ⟨buf, tranID, ring, sem, now, arrivals, sent⟩ := u
  obtain rfl : arrivals = q :: rest := harrivals
  exact (if_neg (by simpa using hsem)).trans (if_pos hdue)

theorem waitDalinkAckResponse_of_late (hsem : s.postDue.dalinkAckSem = 0)
    (hlate : ∀ q ∈ s.postDue.arrivals.head?, s.postDue.now + timeMs < q.1) :
    s.waitDalinkAckResponse timeMs = (-1, { s.postDue with now := s.postDue.now + timeMs }) := by
  unfold waitDalinkAckResponse
  generalize s.postDue = u at hsem hlate
  obtain ⟨buf, tranID, ring, sem, now, arrivals, sent⟩ := u
  refine (if_neg (by simpa using hsem)).trans ?_
  cases arrivals with
  | nil => rfl
  | cons q rest => exact if_neg (Nat.not_le.mpr (hlate q rfl))

/-- The next ACK comes too late, or none does. -/
theorem waitDalinkAckResponse_late (h : s.Unread l)
    (hlate : ∀ q ∈ l.head?, s.now + timeMs < q.1) :
    let waited := s.waitDalinkAckResponse timeMs
    waited.1 = -1 ∧ waited.2.now = s.now + timeMs ∧ waited.2.Unread l := by
  have hnone : ∀ q ∈ l.head?, s.now < q.1 :=
    fun q hq => (Nat.le_add_right s.now timeMs).trans_lt (hlate q hq)
  obtain ⟨htake, hdrop⟩ := takeWhile_of_late hnone
  obtain ⟨hnow, harrivals, hring, hsem⟩ := h.postDue (by rw [htake]; decide)
  rw [htake] at hring hsem
  rw [hdrop] at harrivals
  have hunread : Unread { s.postDue with now := s.postDue.now + timeMs } l :=
    ⟨[], harrivals.symm, fun q hq => absurd hq List.not_mem_nil, hring, hsem⟩
  rw [waitDalinkAckResponse_of_late hsem (by rwa [harrivals, hnow])]
  exact ⟨rfl, congrArg (· + timeMs) hnow, hunread⟩

/-- The next ACK comes in time: it is there when the wait ends. -/
theorem waitDalinkAckResponse_due (h : s.Unread (q :: rest)) (hdue : q.1 ≤ s.now + timeMs) :
    ∃ t : SppSender, t.now = max s.now q.1 ∧ t.Unread (q :: rest) ∧
      s.waitDalinkAckResponse timeMs =
        (0, { t.postDue with dalinkAckSem := t.postDue.dalinkAckSem - 1 }) := by
  rcases Nat.lt_or_ge s.now q.1 with hlater | hnow
  · -- nothing is due yet, and the clock moves on to the time of `q`
    have hlate : ∀ r ∈ (q :: rest).head?, s.now < r.1 := fun r hr => Option.some.inj hr ▸ hlater
    obtain ⟨htake, hdrop⟩ := takeWhile_of_late hlate
    obtain ⟨hpostedNow, harrivals, hring, hsem⟩ := h.postDue (by rw [htake]; decide)
    rw [htake] at hring hsem
    rw [hdrop] at harrivals
    refine ⟨{ s.postDue with now := q.1 }, (max_eq_right hlater.le).symm, ?_,
      waitDalinkAckResponse_of_due hsem harrivals (hpostedNow.symm ▸ hdue)⟩
    exact ⟨[], harrivals.symm, fun r hr => absurd hr List.not_mem_nil, hring, hsem⟩
  · refine ⟨s, (max_eq_left hnow).symm, h, waitDalinkAckResponse_of_posted ?_⟩
    -- `q` is in the ring, or is put there now
    obtain ⟨posted, hl, -, -, hsem⟩ := h
    rw [postDue, postDue_go_eq]
    dsimp only
    cases posted with
    | nil =>
      rw [List.nil_append] at hl
      rw [← hl, List.takeWhile_cons_of_pos (by simpa using hnow), List.length_cons]
      exact Nat.succ_pos _
    | cons r posted =>
      rw [hsem, List.length_cons]
      omega

/-! ### The wait for an ACK -/

variable {hdr : Header} {cDataLen : UInt8} {stop : ℕ}

/-- The comparison of the two fields is the comparison of the ACKs. -/
theorem waitDalinkAck_eq (timeMs : ℕ) (hdr : Header) (s : SppSender) :
    s.waitDalinkAck timeMs hdr.tranId hdr.cmdId =
      let waited := s.waitDalinkAckResponse timeMs
      let fetched := waited.2.fetchAck
      if waited.1 = -1 then (-1, waited.2)
      else if fetched.1 = hdr.ack then (0, fetched.2)
      else waitDalinkAck 40 hdr.tranId hdr.cmdId fetched.2 := by
  rw [waitDalinkAck]
  dsimp only
  by_cases hres : (s.waitDalinkAckResponse timeMs).1 = -1
  · rw [dif_neg (by simpa using hres), if_pos hres]
  · rw [dif_pos hres, if_neg hres]
    generalize (s.waitDalinkAckResponse timeMs).2.fetchAck = fetched
    obtain ⟨⟨tranId, cmdId⟩, u⟩ := fetched
    by_cases hcmd : cmdId = hdr.cmdId <;> by_cases htran : tranId = hdr.tranId <;>
      simp [Header.ack, hcmd, htran]

theorem now_waitDalinkAckResponse_le (timeMs : ℕ) (hdr : Header) (s : SppSender) :
    (s.waitDalinkAckResponse timeMs).2.now ≤
      (s.waitDalinkAck timeMs hdr.tranId hdr.cmdId).2.now := by
  rw [waitDalinkAck_eq]
  dsimp only
  split_ifs
  · exact le_rfl
  · exact le_rfl
  · exact now_le_waitDalinkAck 40 hdr.tranId hdr.cmdId (s.waitDalinkAckResponse timeMs).2.fetchAck.2

/-- The next ACK comes in time, and is read. -/
theorem waitDalinkAck_reads (h : s.Unread (q :: rest)) (horder : InOrder (q :: rest))
    (hroom : Room btSppAckMaxPacketsLen stop s.now (q :: rest))
    (hstop : (s.waitDalinkAck timeMs hdr.tranId hdr.cmdId).2.now ≤ stop)
    (hdue : q.1 ≤ s.now + timeMs) :
    let waited := s.waitDalinkAckResponse timeMs
    let fetched := waited.2.fetchAck
    waited.1 ≠ -1 ∧ fetched.1 = q.2 ∧ fetched.2.now = max s.now q.1 ∧
      fetched.2.Unread rest := by
  obtain ⟨t, hnow, hunread, hres⟩ := waitDalinkAckResponse_due h hdue
  have hthen : max s.now q.1 ≤ stop := by
    have hle := (now_waitDalinkAckResponse_le timeMs hdr s).trans hstop
    rw [hres] at hle
    dsimp only at hle
    rwa [now_postDue, hnow] at hle
  have hsame : ∀ r ∈ q :: rest, max (max s.now q.1) r.1 = max s.now r.1 :=
    List.forall_mem_cons.mpr ⟨by rw [max_assoc, max_self], max_max_of_inOrder horder⟩
  have hfew := (hroom.later (List.Sublist.refl _) hsame).length_takeWhile hthen
  rw [← hnow] at hfew ⊢
  rw [hres]
  exact ⟨(by decide : (0 : ℤ) ≠ -1),
    (hunread.postDue hfew).fetchAck (hnow ▸ le_max_right s.now q.1) hfew⟩

/-- **The wait for a frame's ACK** is a wait on the timed queue. -/
theorem waitDalinkAck_spec (h : s.Unread l) (horder : InOrder l)
    (hroom : Room btSppAckMaxPacketsLen stop s.now l)
    (hstop : (s.waitDalinkAck timeMs hdr.tranId hdr.cmdId).2.now ≤ stop) :
    let w := await (· = hdr.ack) 40 timeMs s.now l
    let done := s.waitDalinkAck timeMs hdr.tranId hdr.cmdId
    done.1 = (if w.matched then 0 else -1) ∧ done.2.now = w.now ∧ done.2.Unread w.rest := by
  obtain ⟨now, hnow⟩ : ∃ now, s.now = now := ⟨_, rfl⟩
  rw [hnow] at hroom ⊢
  induction timeMs, now, l using await_induction (· = hdr.ack) 40 generalizing s with
  | late timeMs now l hlate =>
    obtain ⟨hres, hthen, hunread⟩ := waitDalinkAckResponse_late h (hnow ▸ hlate)
    rw [await_of_late hlate, waitDalinkAck_eq]
    dsimp only
    rw [if_pos hres]
    exact ⟨rfl, hnow ▸ hthen, hunread⟩
  | right timeMs now q rest hdue hq =>
    obtain ⟨hres, hfirst, hthen, hunread⟩ := waitDalinkAck_reads h horder (hnow ▸ hroom) hstop
      (hnow ▸ hdue)
    rw [await_of_match hdue hq, waitDalinkAck_eq]
    dsimp only
    rw [if_neg hres, if_pos (hfirst.trans hq)]
    exact ⟨rfl, hnow ▸ hthen, hunread⟩
  | wrong timeMs now q rest hdue hq ih =>
    obtain ⟨hres, hfirst, hthen, hunread⟩ := waitDalinkAck_reads h horder (hnow ▸ hroom) hstop
      (hnow ▸ hdue)
    rw [waitDalinkAck_eq] at hstop ⊢
    dsimp only at hstop ⊢
    rw [if_neg hres, if_neg (hfirst ▸ hq)] at hstop ⊢
    rw [await_of_mismatch hdue hq]
    exact ih hunread (List.pairwise_cons.mp horder).2 hstop
      (hroom.later (List.sublist_cons_self q rest) (max_max_of_inOrder horder)) (hnow ▸ hthen)

/-! ### The transmissions of a frame -/

/-- One round of the loop, for a frame with the D flag. -/
theorem resend_succ {left : ℕ} (hflag : hdr.dFlag = 0x01) :
    resend hdr cDataLen (left + 1) s =
      let waited := (s.sendSppData cDataLen).waitDalinkAck 1000 hdr.tranId hdr.cmdId
      if waited.1 = 0 then (0, waited.2) else resend hdr cDataLen left waited.2 := by
  rw [resend]
  dsimp only
  rw [if_pos hflag]
  exact ite_not ..

/-- **The loop of a frame with the D flag** is a series of attempts to read its ACK: one
transmission for each, and a result that says whether the last one succeeded. -/
theorem resend_spec {left : ℕ} {frame : List UInt8} (hflag : hdr.dFlag = 0x01)
    (hframe : s.dalinkSppSendBuf.read 0 cDataLen.toNat = frame) (h : s.Unread l)
    (horder : InOrder l) (hroom : Room btSppAckMaxPacketsLen stop s.now l)
    (hstop : (resend hdr cDataLen left s).2.now ≤ stop) :
    let waits := attempts (· = hdr.ack) 40 1000 left s.now l
    let done := resend hdr cDataLen left s
    done.1 = (if waits.any Wait.matched then 0 else -2) ∧
      done.2.sent = s.sent ++ List.replicate waits.length frame ∧
      done.2.now = (waits.getLast?.map Wait.now).getD s.now ∧
      ∃ rest, waits.flatMap Wait.read ++ rest = l ∧ done.2.Unread rest := by
  induction left generalizing s l with
  | zero => exact ⟨rfl, (List.append_nil s.sent).symm, rfl, l, rfl, h⟩
  | succ left ih =>
    -- transmitting changes neither the clock nor the ACKs
    have hbound : ((s.sendSppData cDataLen).waitDalinkAck 1000 hdr.tranId hdr.cmdId).2.now ≤
        stop := by
      rw [resend_succ hflag] at hstop
      dsimp only at hstop
      split_ifs at hstop
      · exact hstop
      · exact (now_le_resend hdr cDataLen left _).trans hstop
    have hspec := waitDalinkAck_spec (s := s.sendSppData cDataLen) h horder hroom hbound
    have hwaited := waited_waitDalinkAck 1000 hdr.tranId hdr.cmdId (s.sendSppData cDataLen)
    have hsent : (s.sendSppData cDataLen).sent = s.sent ++ [frame] := by rw [← hframe]; rfl
    have hnow : (s.sendSppData cDataLen).now = s.now := rfl
    rw [resend_succ hflag] at hstop ⊢
    rw [hnow] at hspec
    dsimp only at hstop hspec ⊢
    generalize (s.sendSppData cDataLen).waitDalinkAck 1000 hdr.tranId hdr.cmdId = waited
      at hstop hspec hwaited ⊢
    obtain ⟨hres, hthen, hunread⟩ := hspec
    cases hmatched : (await (· = hdr.ack) 40 1000 s.now l).matched with
    | true =>
      rw [hmatched, if_pos rfl] at hres
      rw [attempts_of_matched hmatched, if_pos hres]
      refine ⟨?_, ?_, hthen, (await (· = hdr.ack) 40 1000 s.now l).rest, ?_, hunread⟩
      · rw [List.any_cons, hmatched, Bool.true_or, if_pos rfl]
      · rw [hwaited.sent_eq, hsent, List.length_singleton, List.replicate_one]
      · rw [List.flatMap_singleton, read_await]
    | false =>
      rw [hmatched, if_neg Bool.false_ne_true] at hres
      rw [if_neg (by rw [hres]; decide)] at hstop
      rw [attempts_of_not_matched hmatched, if_neg (by rw [hres]; decide), ← hthen]
      -- the rest of the queue, from the time of the time-out on
      have hsuffix : (await (· = hdr.ack) 40 1000 s.now l).rest.Sublist l :=
        (rest_await_isSuffix 1000 s.now l).sublist
      have hroomLater := hroom.later hsuffix (max_now_await 1000 s.now horder)
      obtain ⟨hret, hsentLater, hnowLater, rest, hrest, hunreadLater⟩ :=
        ih (hwaited.dalinkSppSendBuf_eq ▸ hframe) hunread (horder.sublist hsuffix)
          (hthen ▸ hroomLater) hstop
      refine ⟨?_, ?_, ?_, rest, ?_, hunreadLater⟩
      · rw [List.any_cons, hmatched, Bool.false_or, hret]
      · rw [hsentLater, hwaited.sent_eq, hsent, List.append_assoc, List.length_cons,
          List.replicate_succ, List.singleton_append]
      · rw [hnowLater, List.getLast?_cons, Option.map_some, Option.getD_some, hthen,
          Option.getD_map]
      · rw [List.flatMap_cons, List.append_assoc, hrest, read_await]

/-! ### Transmissions, result and ACKs read -/

/-- The ACKs left over in the ring and then those of the schedule. -/
def toRead (leftover : List BtSppDalinkAck) (s : SppSender) : List (ℕ × BtSppDalinkAck) :=
  leftover.map (fun ack => (0, ack)) ++ s.arrivals

variable {leftover : List BtSppDalinkAck}

theorem unread_toRead (hring : s.ackRing.Represents btSppAckMaxPacketsLen id leftover)
    (hsem : s.dalinkAckSem = leftover.length) : s.Unread (s.toRead leftover) := by
  refine ⟨leftover.map fun ack => (0, ack), rfl, ?_, ?_, ?_⟩
  · intro q hq
    obtain ⟨ack, -, rfl⟩ := List.mem_map.mp hq
    exact Nat.zero_le s.now
  · simpa using hring
  · rw [hsem, List.length_map]

theorem inOrder_toRead (h : InOrder s.arrivals) : InOrder (s.toRead leftover) := by
  refine List.pairwise_append.mpr ⟨?_, h, ?_⟩
  · exact List.pairwise_map.mpr (List.pairwise_of_forall fun _ _ => le_rfl)
  · intro q hq r _
    obtain ⟨ack, -, rfl⟩ := List.mem_map.mp hq
    exact Nat.zero_le r.1

theorem protectedSppSendData_of_noNeedAck (hlen : ¬ cDataLen < 10)
    (hflag : (readHeader s.dalinkSppSendBuf).dFlag ≠ 0x01) :
    s.protectedSppSendData cDataLen = (0, s.sendSppData cDataLen) := by
  rw [protectedSppSendData, if_neg hlen, resend]
  exact if_neg hflag

/-- A send with the D flag is up to three attempts to read from what is left over and to come. -/
theorem protectedSppSendData_spec (hlen : ¬ cDataLen < 10)
    (hflag : (readHeader s.dalinkSppSendBuf).dFlag = 0x01)
    (hring : s.ackRing.Represents btSppAckMaxPacketsLen id leftover)
    (hsem : s.dalinkAckSem = leftover.length) (horder : InOrder s.arrivals)
    (hroom : Room btSppAckMaxPacketsLen (s.protectedSppSendData cDataLen).2.now s.now
      (s.toRead leftover)) :
    let waits := attempts (· = (readHeader s.dalinkSppSendBuf).ack) 40 1000 3 s.now
      (s.toRead leftover)
    let done := s.protectedSppSendData cDataLen
    done.1 = (if waits.any Wait.matched then 0 else -2) ∧
      done.2.sent = s.sent ++
        List.replicate waits.length (s.dalinkSppSendBuf.read 0 cDataLen.toNat) ∧
      done.2.now = (waits.getLast?.map Wait.now).getD s.now ∧
      ∃ rest, waits.flatMap Wait.read ++ rest = s.toRead leftover ∧ done.2.Unread rest := by
  have hdone : s.protectedSppSendData cDataLen =
      resend (readHeader s.dalinkSppSendBuf) cDataLen 3 s := if_neg hlen
  rw [hdone] at hroom ⊢
  exact resend_spec hflag rfl (unread_toRead hring hsem) (inOrder_toRead horder) hroom le_rfl

/-- **A send and the ACKs it reads.** Without the D flag the frame is transmitted once and
no ACK is read. With it the send makes up to three attempts to read the frame's ACK, one
after each transmission. It returns `0` exactly when the last one read it, and `-2`
exactly when all three timed out. The ACKs read are the front of the queue, up to the
frame's own or to the last time-out; the others stay unread. -/
theorem sent_and_read (hlen : ¬ cDataLen < 10)
    (hring : s.ackRing.Represents btSppAckMaxPacketsLen id leftover)
    (hsem : s.dalinkAckSem = leftover.length) (horder : InOrder s.arrivals)
    (hroom : Room btSppAckMaxPacketsLen (s.protectedSppSendData cDataLen).2.now s.now
      (s.toRead leftover)) :
    let hdr := readHeader s.dalinkSppSendBuf
    let frame := s.dalinkSppSendBuf.read 0 cDataLen.toNat
    let done := s.protectedSppSendData cDataLen
    (hdr.dFlag ≠ 0x01 → done = (0, { s with sent := s.sent ++ [frame] })) ∧
    (hdr.dFlag = 0x01 →
      let waits := attempts (· = hdr.ack) 40 1000 3 s.now (s.toRead leftover)
      let read := waits.flatMap Wait.read
      (1 ≤ waits.length ∧ waits.length ≤ 3) ∧
      done.2.sent = s.sent ++ List.replicate waits.length frame ∧
      (done.1 = 0 ↔ ∃ w ∈ waits.getLast?, ∃ q ∈ w.read, q.2 = hdr.ack) ∧
      (done.1 = -2 ↔ waits.length = 3 ∧ ∀ w ∈ waits, w.matched = false) ∧
      ∃ rest, read ++ rest = s.toRead leftover ∧ done.2.Unread rest ∧
        (done.1 = 0 → ∃ skipped q, read = skipped ++ [q] ∧ q.2 = hdr.ack ∧
          ∀ r ∈ skipped, r.2 ≠ hdr.ack) ∧
        (done.1 = -2 → (∀ r ∈ read, r.2 ≠ hdr.ack) ∧ ∀ q ∈ rest.head?, done.2.now < q.1)) := by
  intro hdr frame done
  refine ⟨protectedSppSendData_of_noNeedAck hlen, fun hflag => ?_⟩
  intro waits read
  obtain ⟨hret, hsent, hnow, rest, hrest, hunread⟩ :=
    protectedSppSendData_spec hlen hflag hring hsem horder hroom
  obtain ⟨w, hlast, hany, hread⟩ :=
    last_attempt (· = hdr.ack) 40 1000 2 s.now (s.toRead leftover)
  rw [hlast] at hnow
  obtain rfl : rest = w.rest := List.append_cancel_left (hrest.trans hread.symm)
  have hmem : w ∈ waits := List.mem_of_getLast? hlast
  refine ⟨length_attempts_bounds (· = hdr.ack) 40 1000 2 s.now _, hsent, ?_⟩
  cases hmatched : w.matched with
  | true =>
    have hall : waits.any Wait.matched = true := hany ▸ hmatched
    rw [if_pos hall] at hret
    obtain ⟨skipped, q, hw, hq, -⟩ := matched_of_mem_attempts hmem hmatched
    have hfound : ∃ q ∈ w.read, q.2 = hdr.ack :=
      ⟨q, hw ▸ List.mem_append_right _ List.mem_cons_self, hq⟩
    refine ⟨iff_of_true hret ⟨w, hlast, hfound⟩, iff_of_false ?_ ?_, w.rest, hread, hunread,
      fun _ => read_attempts_of_matched hall, fun h => ?_⟩
    · rw [hret]
      decide
    · rintro ⟨-, hnone⟩
      exact absurd (hmatched.symm.trans (hnone w hmem)) (by decide)
    · exact absurd (hret.symm.trans h) (by decide)
  | false =>
    have hnone : waits.any Wait.matched = false := hany ▸ hmatched
    rw [hnone, if_neg Bool.false_ne_true] at hret
    obtain ⟨hlength, hwrong⟩ := read_attempts_of_not_matched hnone
    obtain ⟨hmissed, hlate⟩ := not_matched_of_mem_attempts hmem hmatched
    refine ⟨iff_of_false ?_ ?_, iff_of_true hret ⟨hlength, by simpa using hnone⟩, w.rest, hread,
      hunread, fun h => ?_, fun _ => ⟨hwrong, ?_⟩⟩
    · rw [hret]
      decide
    · rintro ⟨v, hv, q, hq, hack⟩
      obtain rfl : w = v := Option.some.inj (hlast.symm.trans hv)
      exact hmissed q hq hack
    · exact absurd (hret.symm.trans h) (by decide)
    · exact hnow ▸ hlate

/-- A request is in the send buffer and the ACK of an earlier frame in the ring; the
request's own ACK comes after half a second. -/
def withStaleAck : SppSender :=
  (createPacket (.requestPhonestate 2)
    ((start [(500, ⟨0, 0x38⟩)]).postBtSppAckWaitSem 0x38 0xFFFF)).2

theorem represents_withStaleAck : withStaleAck.ackRing.Represents btSppAckMaxPacketsLen id
    [⟨0xFFFF, 0x38⟩] := by
  have hempty : ackRingStart.Represents btSppAckMaxPacketsLen id [] :=
    CircularBuffer.represents_clear (by decide) _
  exact hempty.store (f := fun _ => ⟨0xFFFF, 0x38⟩) (by decide) rfl

theorem sent_and_read_withStaleAck :
    let s := withStaleAck
    let hdr := readHeader s.dalinkSppSendBuf
    let frame := s.dalinkSppSendBuf.read 0 11
    let done := s.protectedSppSendData 11
    let queue := s.toRead [⟨0xFFFF, 0x38⟩]
    (hdr.dFlag ≠ 0x01 → done = (0, { s with sent := s.sent ++ [frame] })) ∧
    (hdr.dFlag = 0x01 →
      let waits := attempts (· = hdr.ack) 40 1000 3 s.now queue
      let read := waits.flatMap Wait.read
      (1 ≤ waits.length ∧ waits.length ≤ 3) ∧
      done.2.sent = s.sent ++ List.replicate waits.length frame ∧
      (done.1 = 0 ↔ ∃ w ∈ waits.getLast?, ∃ q ∈ w.read, q.2 = hdr.ack) ∧
      (done.1 = -2 ↔ waits.length = 3 ∧ ∀ w ∈ waits, w.matched = false) ∧
      ∃ rest, read ++ rest = queue ∧ done.2.Unread rest ∧
        (done.1 = 0 → ∃ skipped q, read = skipped ++ [q] ∧ q.2 = hdr.ack ∧
          ∀ r ∈ skipped, r.2 ≠ hdr.ack) ∧
        (done.1 = -2 → (∀ r ∈ read, r.2 ≠ hdr.ack) ∧ ∀ q ∈ rest.head?, done.2.now < q.1)) :=
  sent_and_read (by decide) represents_withStaleAck rfl (by decide) (room_of_length_lt (by decide))

/-- The first transmission is the last one: without the D flag, or if the first attempt to
read the frame's ACK succeeds. -/
theorem transmitted_once_iff_first_attempt (hlen : ¬ cDataLen < 10)
    (hring : s.ackRing.Represents btSppAckMaxPacketsLen id leftover)
    (hsem : s.dalinkAckSem = leftover.length) (horder : InOrder s.arrivals)
    (hroom : Room btSppAckMaxPacketsLen (s.protectedSppSendData cDataLen).2.now s.now
      (s.toRead leftover)) :
    let hdr := readHeader s.dalinkSppSendBuf
    let frame := s.dalinkSppSendBuf.read 0 cDataLen.toNat
    let done := s.protectedSppSendData cDataLen
    (done.1 = 0 ∧ done.2.sent = s.sent ++ [frame]) ↔
      hdr.dFlag ≠ 0x01 ∨ (await (· = hdr.ack) 40 1000 s.now (s.toRead leftover)).matched := by
  intro hdr frame done
  by_cases hflag : hdr.dFlag = 0x01
  · obtain ⟨hret, hsent, -⟩ := protectedSppSendData_spec hlen hflag hring hsem horder hroom
    cases hmatched : (await (· = hdr.ack) 40 1000 s.now (s.toRead leftover)).matched with
    | true =>
      rw [attempts_of_matched hmatched] at hret hsent
      rw [List.any_cons, hmatched, Bool.true_or, if_pos rfl] at hret
      exact iff_of_true ⟨hret, hsent⟩ (.inr rfl)
    | false =>
      -- the frame goes out at least twice
      refine iff_of_false (fun honce => ?_) (by simpa using hflag)
      rw [attempts_of_not_matched hmatched, honce.2] at hsent
      generalize await (· = hdr.ack) 40 1000 s.now (s.toRead leftover) = w at hsent
      have hagain : 1 ≤ (attempts (· = hdr.ack) 40 1000 2 w.now w.rest).length :=
        (length_attempts_bounds (· = hdr.ack) 40 1000 1 w.now w.rest).1
      have hlength := congrArg List.length hsent
      simp only [List.length_append, List.length_replicate, List.length_cons, List.length_nil]
        at hlength
      omega
  · have hsend : done = (0, s.sendSppData cDataLen) :=
      protectedSppSendData_of_noNeedAck hlen hflag
    refine iff_of_true ?_ (.inl hflag)
    rw [hsend]
    exact ⟨rfl, rfl⟩

/-- **A timely ACK and retransmission.** If an ACK for the frame is posted within a second
of the first transmission, that transmission is the only one and the send returns `0` if
and only if the frame has no D flag, or none of the ACKs up to the first for the frame is
posted more than 40 ms after the one before it. The ACKs left over count as posted at the
first transmission. -/
theorem transmitted_once_iff (hlen : ¬ cDataLen < 10)
    (hring : s.ackRing.Represents btSppAckMaxPacketsLen id leftover)
    (hsem : s.dalinkAckSem = leftover.length) (horder : InOrder s.arrivals)
    (hroom : Room btSppAckMaxPacketsLen (s.protectedSppSendData cDataLen).2.now s.now
      (s.toRead leftover))
    (htimely : ∃ q ∈ s.arrivals, q.2 = (readHeader s.dalinkSppSendBuf).ack ∧
      q.1 ≤ s.now + 1000) :
    let hdr := readHeader s.dalinkSppSendBuf
    let frame := s.dalinkSppSendBuf.read 0 cDataLen.toNat
    let done := s.protectedSppSendData cDataLen
    (done.1 = 0 ∧ done.2.sent = s.sent ++ [frame]) ↔
      hdr.dFlag ≠ 0x01 ∨
        (upTo (· = hdr.ack) (s.toRead leftover)).IsChain fun a b => b.1 ≤ max s.now a.1 + 40 := by
  intro hdr frame done
  obtain ⟨q, hq, hack, htime⟩ := htimely
  have hmem : q ∈ s.toRead leftover := List.mem_append_right _ hq
  have hsorted : InOrder (s.toRead leftover) := inOrder_toRead horder
  have hfirst : ∀ r ∈ (s.toRead leftover).head?, r.1 ≤ s.now + 1000 :=
    fun r hr => (hsorted.head_le hmem r hr).trans htime
  have hcomes : ∃ r ∈ s.toRead leftover, r.2 = hdr.ack := ⟨q, hmem, hack⟩
  refine (transmitted_once_iff_first_attempt hlen hring hsem horder hroom).trans ?_
  refine or_congr_right ((matched_await_iff (p := (· = hdr.ack)) hsorted hcomes).trans ?_)
  exact and_iff_right hfirst

theorem transmitted_once_iff_withStaleAck :
    let s := withStaleAck
    let hdr := readHeader s.dalinkSppSendBuf
    let done := s.protectedSppSendData 11
    (done.1 = 0 ∧ done.2.sent = s.sent ++ [s.dalinkSppSendBuf.read 0 11]) ↔
      hdr.dFlag ≠ 0x01 ∨ (upTo (· = hdr.ack) (s.toRead [⟨0xFFFF, 0x38⟩])).IsChain
        fun a b => b.1 ≤ max s.now a.1 + 40 :=
  transmitted_once_iff (by decide) represents_withStaleAck rfl (by decide)
    (room_of_length_lt (by decide)) ⟨(500, ⟨0, 0x38⟩), by decide⟩

/-- The wait is cut to 40 ms by the ACK of the earlier frame: the request goes out twice
although its own ACK comes after half a second. -/
theorem stale_ack_brings_retransmission :
    let s := withStaleAck
    let hdr := readHeader s.dalinkSppSendBuf
    let frame := s.dalinkSppSendBuf.read 0 11
    let done := s.protectedSppSendData 11
    (s.ackRing.Represents btSppAckMaxPacketsLen id [⟨0xFFFF, 0x38⟩] ∧ s.dalinkAckSem = 1 ∧
      hdr.ack ≠ ⟨0xFFFF, 0x38⟩ ∧ InOrder s.arrivals ∧
      Room btSppAckMaxPacketsLen done.2.now s.now (s.toRead [⟨0xFFFF, 0x38⟩]) ∧
      s.now = 0 ∧ s.arrivals = [(500, hdr.ack)]) ∧
    done.2.sent = s.sent ++ [frame, frame] ∧
    ¬ (done.1 = 0 ∧ done.2.sent = s.sent ++ [frame]) := by
  intro s hdr frame done
  have hroom : Room btSppAckMaxPacketsLen done.2.now s.now (s.toRead [⟨0xFFFF, 0x38⟩]) :=
    room_of_length_lt (by decide)
  have hwaits : (attempts (· = hdr.ack) 40 1000 3 s.now
      (s.toRead [⟨0xFFFF, 0x38⟩])).length = 2 := by
    decide
  obtain ⟨-, hsent, -⟩ := protectedSppSendData_spec (by decide) (by decide)
    represents_withStaleAck rfl (by decide) hroom
  rw [hwaits] at hsent
  refine ⟨⟨represents_withStaleAck, rfl, by decide, by decide, hroom, rfl, by decide⟩, hsent,
    fun honce => ?_⟩
  exact absurd (hsent.symm.trans honce.2) (by decide)

end PhoneLink.SppSender
