import PhoneLink.Protocol.AckRing
import PhoneLink.Protocol.Codec

/-!
# One sender, in time

A send by one thread while no other thread sends: the frame is built in the send
buffer, transmitted, and with the D flag transmitted up to three times, each time
followed by a wait for its ACK. A wait lasts a second; every ACK that does not match
replaces what is left of it by forty milliseconds. The ACKs the Bluetooth message
thread posts meanwhile are a timed schedule.

## Main definitions

* `SppSender`: send buffer, counter, ACK ring with its semaphore, clock and schedule
* `SppSender.waitDalinkAck`, `SppSender.protectedSppSendData`: the two nested loops
* `SppSender.plDalinkSendPacket`: create step and send

## Main results

* `waited_waitDalinkAck`: a wait transmits nothing and leaves the buffer alone
* `sent_sendCreated`: a send transmits the request's frame once, or up to three times if
  it has the D flag
-/

namespace PhoneLink

open CS

/-- What a sender works on. -/
structure SppSender where
  dalinkSppSendBuf : Memory
  tranID : UInt16
  /-- `m_ack_data` with its points. -/
  ackRing : AckRing
  dalinkAckSem : ℕ
  /-- The clock, in milliseconds. -/
  now : ℕ
  /-- The ACKs still to be posted, in order, each with its time. -/
  arrivals : List (ℕ × BtSppDalinkAck)
  /-- History: the bytes of each `sendSppData`. -/
  sent : List (List UInt8)

namespace SppSender

/-- Program start, for any schedule of ACKs. -/
def start (arrivals : List (ℕ × BtSppDalinkAck)) : SppSender :=
  ⟨.zero, 0, ackRingStart, 0, 0, arrivals, []⟩

/-! ### Waiting for an ACK -/

def postBtSppAckWaitSem (commandId : UInt8) (transId : UInt16) (s : SppSender) : SppSender :=
  { s with
    ackRing := s.ackRing.store btSppAckMaxPacketsLen fun _ => ⟨transId, commandId⟩
    dalinkAckSem := s.dalinkAckSem + 1 }

/-- Post the ACKs of the schedule whose time has come. -/
def postDue (s : SppSender) : SppSender := go s.arrivals s
where
  go : List (ℕ × BtSppDalinkAck) → SppSender → SppSender
    | [], s => { s with arrivals := [] }
    | (time, ack) :: rest, s =>
      if time ≤ s.now then go rest (s.postBtSppAckWaitSem ack.cmdId ack.tranId)
      else { s with arrivals := (time, ack) :: rest }

/-- `sem_timedwait` for `timeOut` milliseconds. No caller asks for an unlimited wait. -/
def waitDalinkAckResponse (timeOut : ℕ) (s : SppSender) : ℤ × SppSender :=
  let s := s.postDue
  if 0 < s.dalinkAckSem then (0, { s with dalinkAckSem := s.dalinkAckSem - 1 })
  else
    match s.arrivals with
    | (time, _) :: _ =>
      if time ≤ s.now + timeOut then
        let s := postDue { s with now := time }
        (0, { s with dalinkAckSem := s.dalinkAckSem - 1 })
      else (-1, { s with now := s.now + timeOut })
    | [] => (-1, { s with now := s.now + timeOut })

/-! ### What a wait leaves alone -/

/-- The ACKs posted and to come. -/
def outstanding (s : SppSender) : ℕ := s.dalinkAckSem + s.arrivals.length

/-- Nothing was built or transmitted between the two states. -/
structure Waited (s t : SppSender) : Prop where
  dalinkSppSendBuf_eq : t.dalinkSppSendBuf = s.dalinkSppSendBuf
  tranID_eq : t.tranID = s.tranID
  sent_eq : t.sent = s.sent

variable {s t u : SppSender}

theorem Waited.refl (s : SppSender) : Waited s s := ⟨rfl, rfl, rfl⟩

theorem Waited.trans (h : Waited s t) (h' : Waited t u) : Waited s u where
  dalinkSppSendBuf_eq := h'.dalinkSppSendBuf_eq.trans h.dalinkSppSendBuf_eq
  tranID_eq := h'.tranID_eq.trans h.tranID_eq
  sent_eq := h'.sent_eq.trans h.sent_eq

/-- Posting moves ACKs from the schedule to the semaphore. -/
theorem postDue_go_spec (l : List (ℕ × BtSppDalinkAck)) (s : SppSender) :
    Waited s (postDue.go l s) ∧ s.dalinkAckSem ≤ (postDue.go l s).dalinkAckSem ∧
      (postDue.go l s).outstanding = s.dalinkAckSem + l.length := by
  induction l generalizing s with
  | nil => exact ⟨⟨rfl, rfl, rfl⟩, le_rfl, rfl⟩
  | cons arrival rest ih =>
    rw [postDue.go]
    split_ifs
    · obtain ⟨hwaited, hle, houtstanding⟩ :=
        ih (s.postBtSppAckWaitSem arrival.2.cmdId arrival.2.tranId)
      rw [houtstanding, List.length_cons]
      rw [postBtSppAckWaitSem] at hle ⊢
      dsimp only at hle ⊢
      exact ⟨⟨hwaited.1, hwaited.2, hwaited.3⟩, by omega, by omega⟩
    · exact ⟨⟨rfl, rfl, rfl⟩, le_rfl, rfl⟩

theorem waited_postDue (s : SppSender) : Waited s s.postDue := (postDue_go_spec s.arrivals s).1

@[simp] theorem outstanding_postDue (s : SppSender) : s.postDue.outstanding = s.outstanding :=
  (postDue_go_spec s.arrivals s).2.2

/-- Where the next ACK is due, it is posted. -/
theorem dalinkAckSem_postDue_pos {time : ℕ} {ack : BtSppDalinkAck}
    {rest : List (ℕ × BtSppDalinkAck)} (harrivals : s.arrivals = (time, ack) :: rest)
    (hdue : time ≤ s.now) : 0 < s.postDue.dalinkAckSem := by
  rw [postDue, harrivals, postDue.go, if_pos hdue]
  have hposted := (postDue_go_spec rest (s.postBtSppAckWaitSem ack.cmdId ack.tranId)).2.1
  exact Nat.lt_of_lt_of_le (Nat.succ_pos s.dalinkAckSem) hposted

/-- Taking a posted ACK. -/
theorem outstanding_take (hsem : 0 < s.dalinkAckSem) :
    outstanding { s with dalinkAckSem := s.dalinkAckSem - 1 } < s.outstanding := by
  rw [outstanding, outstanding]
  dsimp only
  omega

/-- A wait that succeeds takes one ACK. -/
theorem waitDalinkAckResponse_spec (timeOut : ℕ) (s : SppSender) :
    Waited s (s.waitDalinkAckResponse timeOut).2 ∧
      ((s.waitDalinkAckResponse timeOut).1 ≠ -1 →
        (s.waitDalinkAckResponse timeOut).2.outstanding < s.outstanding) := by
  have hdue := waited_postDue s
  have houtstanding := outstanding_postDue s
  unfold waitDalinkAckResponse
  generalize s.postDue = t at hdue houtstanding ⊢
  dsimp only
  split_ifs with hsem
  · exact ⟨⟨hdue.1, hdue.2, hdue.3⟩, fun _ => houtstanding ▸ outstanding_take hsem⟩
  · split
    · next time ack rest harrivals =>
      split_ifs
      · -- the next ACK comes in time, and is posted then
        have hposted : 0 < (postDue { t with now := time }).dalinkAckSem :=
          dalinkAckSem_postDue_pos harrivals le_rfl
        have hlater := waited_postDue { t with now := time }
        refine ⟨hdue.trans ⟨hlater.1, hlater.2, hlater.3⟩, fun _ => ?_⟩
        have htake := outstanding_take hposted
        rw [outstanding_postDue] at htake
        exact houtstanding ▸ htake
      · exact ⟨⟨hdue.1, hdue.2, hdue.3⟩, fun h => absurd rfl h⟩
    · exact ⟨⟨hdue.1, hdue.2, hdue.3⟩, fun h => absurd rfl h⟩

/-- `get_dalink_ack_data`. -/
def fetchAck (s : SppSender) : BtSppDalinkAck × SppSender :=
  let fetched := getDalinkAckData s.ackRing
  (fetched.1, { s with ackRing := fetched.2 })

/-- Wait for the ACK of one frame: `0` when it is read, `-1` when a wait times out. -/
def waitDalinkAck (timeMs : ℕ) (tranId : UInt16) (cmdId : UInt8) (s : SppSender) :
    ℤ × SppSender :=
  let waited := s.waitDalinkAckResponse timeMs
  if hres : waited.1 ≠ -1 then
    let fetched := waited.2.fetchAck
    -- any other ACK is dropped, and the wait starts again with forty milliseconds
    if fetched.1.cmdId ≠ cmdId then waitDalinkAck 40 tranId cmdId fetched.2
    else if fetched.1.tranId ≠ tranId then waitDalinkAck 40 tranId cmdId fetched.2
    else (0, fetched.2)
  else (-1, waited.2)
termination_by s.outstanding
decreasing_by all_goals exact (waitDalinkAckResponse_spec timeMs s).2 hres

theorem waited_waitDalinkAck (timeMs : ℕ) (tranId : UInt16) (cmdId : UInt8) (s : SppSender) :
    Waited s (s.waitDalinkAck timeMs tranId cmdId).2 := by
  -- induction on the ACKs read
  induction timeMs, s using waitDalinkAck.induct tranId cmdId with
  | case1 timeMs s waited hres fetched hcmd ih =>
    have hfetched : Waited s fetched.2 :=
      (waitDalinkAckResponse_spec timeMs s).1.trans ⟨rfl, rfl, rfl⟩
    rw [waitDalinkAck, dif_pos hres, if_pos hcmd]
    exact hfetched.trans ih
  | case2 timeMs s waited hres fetched hcmd htran ih =>
    have hfetched : Waited s fetched.2 :=
      (waitDalinkAckResponse_spec timeMs s).1.trans ⟨rfl, rfl, rfl⟩
    rw [waitDalinkAck, dif_pos hres, if_neg hcmd, if_pos htran]
    exact hfetched.trans ih
  | case3 timeMs s waited hres fetched hcmd htran =>
    rw [waitDalinkAck, dif_pos hres, if_neg hcmd, if_neg htran]
    exact (waitDalinkAckResponse_spec timeMs s).1.trans ⟨rfl, rfl, rfl⟩
  | case4 timeMs s waited hres =>
    rw [waitDalinkAck, dif_neg hres]
    exact (waitDalinkAckResponse_spec timeMs s).1

/-! ### Sending -/

/-- `sendSppData` of the send buffer. -/
def sendSppData (cDataLen : UInt8) (s : SppSender) : SppSender :=
  { s with sent := s.sent ++ [s.dalinkSppSendBuf.read 0 cDataLen.toNat] }

/-- The loop of `protected_spp_send_data`, with so many transmissions left. -/
def resend (hdr : Header) (cDataLen : UInt8) : ℕ → SppSender → ℤ × SppSender
  | 0, s => (-2, s)
  | left + 1, s =>
    let s := s.sendSppData cDataLen
    if hdr.dFlag = 0x01 then
      let waited := s.waitDalinkAck 1000 hdr.tranId hdr.cmdId
      if waited.1 ≠ 0 then resend hdr cDataLen left waited.2 else (0, waited.2)
    else (0, s)

/-- Transmit the send buffer; all callers pass it. -/
def protectedSppSendData (cDataLen : UInt8) (s : SppSender) : ℤ × SppSender :=
  if cDataLen < 10 then (-1, s)
  else resend (readHeader s.dalinkSppSendBuf) cDataLen 3 s

def btSppSendDataToDalink (cDataLen : UInt8) (s : SppSender) : ℤ × SppSender :=
  s.protectedSppSendData cDataLen

/-- The create step of a request, in the send buffer. -/
def createPacket (r : Request) (s : SppSender) : ℤ × SppSender :=
  let created := r.create s.tranID s.dalinkSppSendBuf
  (created.ret, { s with dalinkSppSendBuf := created.desbuf, tranID := created.tranID })

/-- Build and send, as all `pl_dalink_send_*_packet` do. -/
def plDalinkSendPacket (r : Request) (s : SppSender) : ℤ × SppSender :=
  let created := s.createPacket r
  if created.1 ≤ 0 then (-1, created.2)
  else created.2.btSppSendDataToDalink (UInt8.ofInt created.1)

/-- Build and send without a look at the result of the create step, as
`start_android_dalink_app` and `send_spp_mode_cotrol_data` do. -/
def sendCreated (r : Request) (s : SppSender) : SppSender :=
  let created := s.createPacket r
  (created.2.protectedSppSendData (UInt8.ofInt created.1)).2

/-! ### What a send transmits -/

/-- The loop transmits the buffer at least once, and more often only with the D flag. -/
theorem sent_resend {hdr : Header} {cDataLen : UInt8} {l : List UInt8} (left : ℕ)
    (hread : s.dalinkSppSendBuf.read 0 cDataLen.toNat = l) :
    ∃ k, 1 ≤ k ∧ k ≤ left + 1 ∧ (hdr.dFlag ≠ 0x01 → k = 1) ∧
      (resend hdr cDataLen (left + 1) s).2.sent = s.sent ++ List.replicate k l := by
  induction left generalizing s with
  | zero =>
    refine ⟨1, le_rfl, le_rfl, fun _ => rfl, ?_⟩
    rw [resend, List.replicate_one, ← hread]
    dsimp only
    split_ifs
    · exact (waited_waitDalinkAck ..).sent_eq
    · exact (waited_waitDalinkAck ..).sent_eq
    · rfl
  | succ left ih =>
    have hwaited := waited_waitDalinkAck 1000 hdr.tranId hdr.cmdId (s.sendSppData cDataLen)
    rw [resend]
    dsimp only
    split_ifs with hflag hres
    · -- no ACK: the rest of the loop transmits the same buffer
      obtain ⟨k, hk, hle, -, hsent⟩ := ih (hwaited.dalinkSppSendBuf_eq ▸ hread)
      refine ⟨k + 1, Nat.le_add_left 1 k, Nat.succ_le_succ hle, fun h => absurd hflag h, ?_⟩
      rw [hsent, hwaited.sent_eq, sendSppData, hread, List.append_assoc, List.replicate_succ]
      rfl
    · refine ⟨1, le_rfl, Nat.le_add_left 1 _, fun _ => rfl, ?_⟩
      rw [hwaited.sent_eq, sendSppData, hread, List.replicate_one]
    · refine ⟨1, le_rfl, Nat.le_add_left 1 _, fun _ => rfl, ?_⟩
      rw [sendSppData, hread, List.replicate_one]

/-- The create step leaves the request's frame in the send buffer, and its length. -/
theorem createPacket_spec (r : Request) (s : SppSender) :
    let f := r.frame s.tranID
    (s.createPacket r).1 = f.bytes.length ∧
      (s.createPacket r).2.dalinkSppSendBuf = .overlay f.bytes s.dalinkSppSendBuf ∧
      (s.createPacket r).2.sent = s.sent :=
  ⟨(r.create_eq _ _).1, (r.create_eq _ _).2, rfl⟩

/-- A request's create step never fails, so the two ways to send do the same. -/
theorem plDalinkSendPacket_eq (r : Request) (s : SppSender) :
    (s.plDalinkSendPacket r).2 = s.sendCreated r := by
  have hten := (length_bytes_bounds (r.frame s.tranID)).1
  have hret := (createPacket_spec r s).1
  unfold plDalinkSendPacket
  dsimp only
  rw [if_neg (by omega)]
  rfl

/-- **One send** transmits the request's frame once, or up to three times if the frame
has the D flag. -/
theorem sent_sendCreated (r : Request) (s : SppSender) :
    ∃ k, 1 ≤ k ∧ k ≤ 3 ∧ ((r.frame s.tranID).dFlag ≠ 0x01 → k = 1) ∧
      (s.sendCreated r).sent = s.sent ++ List.replicate k (r.frame s.tranID).bytes := by
  obtain ⟨hret, hbuf, hsent⟩ := createPacket_spec r s
  obtain ⟨hten, hmax⟩ := length_bytes_bounds (r.frame s.tranID)
  have hsize : (UInt8.ofInt (s.createPacket r).1).toNat = (r.frame s.tranID).bytes.length := by
    rw [hret, ofInt_length_bytes, UInt8.toNat_ofNat', Nat.mod_eq_of_lt (by omega)]
  have hread : (s.createPacket r).2.dalinkSppSendBuf.read 0
      (UInt8.ofInt (s.createPacket r).1).toNat = (r.frame s.tranID).bytes := by
    rw [hbuf, hsize, Memory.read_overlay]
  have hheader : (readHeader (s.createPacket r).2.dalinkSppSendBuf).dFlag =
      (r.frame s.tranID).dFlag := by
    rw [hbuf, readHeader_of_holds (Memory.holds_overlay _ _)]
    rfl
  have hlong : ¬ UInt8.ofInt (s.createPacket r).1 < 10 := by
    rw [UInt8.lt_iff_toNat_lt, hsize, Nat.not_lt]
    exact hten
  unfold sendCreated protectedSppSendData
  dsimp only
  rw [if_neg hlong, ← hsent, ← hheader]
  exact sent_resend 2 hread

end SppSender

end PhoneLink
