import PhoneLink.Send.Calls

/-!
# ACKs left over from earlier sends

The ring keeps what has been posted and not fetched: ACKs that came after the last
time-out of their send, or twice. A send that asks for no ACK leaves them there and
still moves the transaction counter on, which comes back to the same value after
65536 sends. A wait that then meets the old ACK of a frame with its own command and
transaction id succeeds at once.

The counts of the ring cannot rule this out by themselves: once more than twenty ACKs
are owed, a fetch may return any slot. `MayDeliver` is what the ring can still hand
out without another post.

## Main results

* `MayDeliver.put`, `MayDeliver.takeAck`, `mayDeliver_front`: a post adds one ACK to
  what can be handed out, a fetch adds none and returns one of it
* `received_since`: where in the run the ACK was received that a call has seen
* `no_phantom_ack`: a frame that asks for an ACK is reported as sent only if an ACK
  for it was received after its first transmission, along every run in which no ACK for
  a frame can be handed out at its first transmission
-/

namespace PhoneLink

open CS CS.Transition

/-! ### What the ring can hand out -/

/-- Fetches that are still to come without another post: the semaphore, a post under
way and a fetch under way. -/
def owed (q : SemQueue BtSppDalinkAck BtSppDalinkAck) : ℕ :=
  q.sem + q.posting.toNat + q.taking.toNat

/-- The number of slots from the read point to the write point. -/
def ahead (ring : AckRing) (k : ℕ) : ℕ :=
  (k + btSppAckMaxPacketsLen - ring.readPoint) % btSppAckMaxPacketsLen

/-- A fetch can come to slot `k` without another post: the slot lies between the read
and the write point, or there are more fetches to come than slots between them. -/
def Readable (q : SemQueue BtSppDalinkAck BtSppDalinkAck) (k : ℕ) : Prop :=
  ahead q.buffer k < ahead q.buffer q.buffer.writePoint ∨
    ahead q.buffer q.buffer.writePoint < owed q

/-- The ring can hand out the ACK without another post. -/
def MayDeliver (q : SemQueue BtSppDalinkAck BtSppDalinkAck) (ack : BtSppDalinkAck) : Prop :=
  ∃ k < btSppAckMaxPacketsLen, Readable q k ∧ q.buffer.slots k = ack

/-- Both points are slots of the ring. -/
structure InBounds (q : SemQueue BtSppDalinkAck BtSppDalinkAck) : Prop where
  readPoint_lt : q.buffer.readPoint < btSppAckMaxPacketsLen
  writePoint_lt : q.buffer.writePoint < btSppAckMaxPacketsLen

instance (q : SemQueue BtSppDalinkAck BtSppDalinkAck) (k : ℕ) : Decidable (Readable q k) :=
  inferInstanceAs (Decidable (_ ∨ _))

instance (q : SemQueue BtSppDalinkAck BtSppDalinkAck) (ack : BtSppDalinkAck) :
    Decidable (MayDeliver q ack) :=
  inferInstanceAs (Decidable (∃ k < btSppAckMaxPacketsLen, _))

variable {q q' : SemQueue BtSppDalinkAck BtSppDalinkAck} {ack ack' : BtSppDalinkAck}

/-- A post adds the ACK it writes. -/
theorem MayDeliver.put (hbounds : InBounds q)
    (hput : q.put btSppAckMaxPacketsLen (fun _ => ack') ack' = some q') (h : MayDeliver q' ack) :
    MayDeliver q ack ∨ ack = ack' := by
  obtain ⟨hposting, rfl⟩ := SemQueue.put_eq_some.mp hput
  obtain ⟨k, hk, hreadable, hslot⟩ := h
  have hread := hbounds.readPoint_lt
  have hwrite := hbounds.writePoint_lt
  -- the slot written, or one that could be read before
  by_cases hnew : k = q.buffer.writePoint
  · right
    rw [← hslot, hnew]
    exact Function.update_self _ _ _
  · left
    refine ⟨k, hk, ?_, ?_⟩
    · -- the write point moves one slot on, and one more fetch is owed
      simp only [Readable, ahead, owed, CircularBuffer.store, CircularBuffer.advance, hposting,
        Bool.toNat_true, Bool.toNat_false, btSppAckMaxPacketsLen] at hreadable hk hread hwrite ⊢
      split_ifs at hreadable <;> omega
    · rw [← hslot]
      exact (Function.update_of_ne hnew _ _).symm

private theorem MayDeliver.congr (hbuffer : q'.buffer = q.buffer) (howed : owed q' = owed q)
    (h : MayDeliver q' ack) : MayDeliver q ack := by
  unfold MayDeliver Readable at h ⊢
  rwa [hbuffer, howed] at h

/-- Posting the semaphore and taking it down do not change what is owed. -/
theorem MayDeliver.post (hpost : q.post = some q') (h : MayDeliver q' ack) : MayDeliver q ack := by
  obtain ⟨hposting, rfl⟩ := SemQueue.post_eq_some.mp hpost
  refine h.congr ?_ ?_
  · rfl
  · simp only [owed, hposting, Bool.toNat_true, Bool.toNat_false]

theorem MayDeliver.wait (hwait : q.wait = some q') (h : MayDeliver q' ack) : MayDeliver q ack := by
  obtain ⟨⟨htaking, hpos⟩, rfl⟩ := SemQueue.wait_eq_some.mp hwait
  refine h.congr ?_ ?_
  · rfl
  · simp only [owed, htaking, Bool.toNat_true, Bool.toNat_false]
    omega

/-- A fetch hands out nothing new. -/
theorem MayDeliver.takeAck (hbounds : InBounds q) (htake : takeAck q = some q')
    (h : MayDeliver q' ack) : MayDeliver q ack := by
  obtain ⟨htaking, rfl⟩ := takeAck_eq_some htake
  obtain ⟨k, hk, hreadable, hslot⟩ := h
  have hread := hbounds.readPoint_lt
  have hwrite := hbounds.writePoint_lt
  by_cases hequal : q.buffer.readPoint = q.buffer.writePoint
  · -- the read point stays
    have hsame : (getDalinkAckData q.buffer).2 = q.buffer := by
      unfold getDalinkAckData
      rw [if_neg (not_not.mpr hequal)]
    dsimp only at hslot
    rw [hsame] at hslot
    refine ⟨k, hk, ?_, hslot⟩
    simp only [Readable, hsame, ahead, owed, htaking, Bool.toNat_true, Bool.toNat_false]
      at hreadable ⊢
    omega
  · -- the read point moves one slot on, and one fetch less is owed
    dsimp only at hslot
    rw [getDalinkAckData_eq hequal] at hslot
    refine ⟨k, hk, ?_, hslot⟩
    simp only [Readable, getDalinkAckData_eq hequal, ahead, owed, CircularBuffer.drop,
      CircularBuffer.advance, htaking, Bool.toNat_true, Bool.toNat_false,
      btSppAckMaxPacketsLen] at hreadable hk hread hwrite hequal ⊢
    split_ifs at hreadable <;> omega

/-- A fetch hands out the ACK at the read point. -/
theorem mayDeliver_front (hbounds : InBounds q) (htaking : q.taking = true) :
    MayDeliver q (getDalinkAckData q.buffer).1 := by
  have hread := hbounds.readPoint_lt
  refine ⟨q.buffer.readPoint, hread, ?_, (getDalinkAckData_fst q.buffer).symm⟩
  simp only [Readable, ahead, owed, htaking, Bool.toNat_true, btSppAckMaxPacketsLen] at hread ⊢
  omega

theorem inBounds_start : InBounds (.start ackRingStart) := ⟨by decide, by decide⟩

theorem InBounds.put {f : BtSppDalinkAck → BtSppDalinkAck} (h : InBounds q)
    (hput : q.put btSppAckMaxPacketsLen f ack = some q') : InBounds q' := by
  obtain ⟨-, rfl⟩ := SemQueue.put_eq_some.mp hput
  exact ⟨h.readPoint_lt, CircularBuffer.advance_lt (by decide)⟩

theorem InBounds.post (h : InBounds q) (hpost : q.post = some q') : InBounds q' := by
  obtain ⟨-, rfl⟩ := SemQueue.post_eq_some.mp hpost
  exact ⟨h.readPoint_lt, h.writePoint_lt⟩

theorem InBounds.wait (h : InBounds q) (hwait : q.wait = some q') : InBounds q' := by
  obtain ⟨-, rfl⟩ := SemQueue.wait_eq_some.mp hwait
  exact ⟨h.readPoint_lt, h.writePoint_lt⟩

theorem InBounds.takeAck (h : InBounds q) (htake : PhoneLink.takeAck q = some q') :
    InBounds q' := by
  obtain ⟨-, rfl⟩ := takeAck_eq_some htake
  unfold getDalinkAckData
  by_cases hequal : q.buffer.readPoint = q.buffer.writePoint
  · rw [if_neg (not_not.mpr hequal)]
    exact ⟨h.readPoint_lt, h.writePoint_lt⟩
  · rw [if_pos hequal]
    exact ⟨CircularBuffer.advance_lt (by decide), h.writePoint_lt⟩

/-! ### Senders and left-over ACKs -/

/-- The header of a frame that is about to be transmitted for the first time and asks
for an ACK. -/
def Pc.firstSend : Pc → Option Header
  | .sending _ hdr 0 => if hdr.dFlag = dFlagNeedAck then some hdr else none
  | _ => none

/-- At the first transmission of a frame that asks for an ACK, the ring can hand out no
ACK with the frame's command and transaction id. -/
def noStaleAck (s : SendSystem) : SendAction → Prop
  | .sendSppData t => ∀ hdr ∈ (s.pc t).firstSend, ¬ MayDeliver s.acks hdr.ack
  | _ => True

instance : ∀ (s : SendSystem) (a : SendAction), Decidable (noStaleAck s a)
  | _, .sendSppData _ =>
    inferInstanceAs (Decidable (∀ hdr ∈ Pc.firstSend _, ¬ MayDeliver _ hdr.ack))
  | _, .create _ _ | _, .lock _ | _, .waitDalinkAckResponse _ | _, .getDalinkAckData _
  | _, .timeout _ | _, .release _ | _, .bluetoothSppDataProc _ | _, .waitBtCommand
  | _, .dalinkSppPacketDeal | _, .dispatchCommand | _, .semPost => isTrue trivial

/-- As long as no ACK for its frame has been received since the first transmission, the
ring cannot hand one to a sender; and a sender that was handed one has received it. -/
def AckGenuine (q : SemQueue BtSppDalinkAck BtSppDalinkAck) (received : Bool) : Pc → Prop
  | .sending _ hdr (_ + 1) | .waiting _ hdr _ | .fetching _ hdr _ =>
    received = false → ¬ MayDeliver q hdr.ack
  | .releasing _ hdr ret => ret = 0 → hdr.dFlag = dFlagNeedAck → received = true
  | .idle | .created _ | .sending _ _ 0 => True

section AckGenuine

variable {received : Bool} {p : Pc} {call : Call} {hdr : Header} {i : ℕ}

theorem AckGenuine.mono (h : AckGenuine q received p)
    (hkeep : ∀ ack, MayDeliver q' ack → MayDeliver q ack) : AckGenuine q' received p := by
  cases p with
  | sending call hdr i =>
    cases i with
    | zero => trivial
    | succ i => exact fun hnone hmay => h hnone (hkeep _ hmay)
  | waiting call hdr i | fetching call hdr i => exact fun hnone hmay => h hnone (hkeep _ hmay)
  | releasing call hdr ret => exact h
  | idle | created call => trivial

theorem ackGenuine_afterSend (h : AckGenuine q received (.sending call hdr i))
    (hfirst : ∀ hdr' ∈ (Pc.sending call hdr i).firstSend, ¬ MayDeliver q hdr'.ack) :
    AckGenuine q (if i = 0 then false else received) (SendSystem.afterSend call hdr i) := by
  unfold SendSystem.afterSend
  by_cases hflag : hdr.dFlag = dFlagNeedAck
  · rw [if_pos hflag]
    cases i with
    | zero =>
      -- the condition rules out an ACK left over from before
      intro _
      apply hfirst
      simp [Pc.firstSend, hflag]
    | succ i => exact h
  · rw [if_neg hflag]
    exact fun _ hneeded => absurd hneeded hflag

/-- The ACK fetched was one the ring could hand out. -/
theorem ackGenuine_afterFetch (h : AckGenuine q received (.fetching call hdr i))
    (hmay : MayDeliver q ack) (hkeep : ∀ ack, MayDeliver q' ack → MayDeliver q ack) :
    AckGenuine q' received (SendSystem.afterFetch call hdr i ack) := by
  rw [SendSystem.afterFetch_eq]
  by_cases hmatch : ack = hdr.ack
  · -- were it not received since, the ring could not have handed it out
    rw [if_pos hmatch]
    intro _ _
    by_contra hnone
    exact h (by simpa using hnone) (hmatch ▸ hmay)
  · rw [if_neg hmatch]
    exact fun hnone hmay' => h hnone (hkeep _ hmay')

theorem ackGenuine_afterTimeout (h : AckGenuine q received (.waiting call hdr i)) :
    AckGenuine q received (SendSystem.afterTimeout call hdr i) := by
  unfold SendSystem.afterTimeout
  by_cases hagain : i + 1 ≤ 3
  · rw [if_pos hagain]
    cases i with
    | zero => trivial
    | succ i => exact h
  · rw [if_neg hagain]
    exact fun hret => nomatch hret

/-- An ACK frame is dealt with: whoever it is for has received it. -/
theorem AckGenuine.receive {f : RxFrame} (h : AckGenuine q received p) (hack : f.ack? = some ack)
    (hadd : ∀ ack', MayDeliver q' ack' → MayDeliver q ack' ∨ ack' = ack) :
    AckGenuine q' (received || p.acknowledgedBy f) p := by
  have hnew : ∀ hdr, p.awaited = some hdr → (received = false → ¬ MayDeliver q hdr.ack) →
      (received || p.acknowledgedBy f) = false → ¬ MayDeliver q' hdr.ack := by
    intro hdr hawaited hold hnone hmay
    obtain ⟨hreceived, hby⟩ := Bool.or_eq_false_iff.mp hnone
    -- handed out before the post, or by it
    rcases hadd _ hmay with holder | rfl
    · exact hold hreceived holder
    · have hsame := acknowledgedBy_iff.mpr ⟨hdr, hawaited, hack⟩
      rw [hby] at hsame
      cases hsame
  cases p with
  | sending call hdr i =>
    cases i with
    | zero => trivial
    | succ i => exact hnew hdr rfl h
  | waiting call hdr i | fetching call hdr i => exact hnew hdr rfl h
  | releasing call hdr ret =>
    intro hret hneeded
    rw [h hret hneeded, Bool.true_or]
  | idle | created call => trivial

end AckGenuine

/-- The ring's points are in bounds and every sender is in order. -/
structure Genuine (s : SendSystem) : Prop where
  inBounds : InBounds s.acks
  genuine : ∀ t, AckGenuine s.acks (s.received t) (s.pc t)

theorem genuine_start : Genuine sendStart where
  inBounds := inBounds_start
  genuine := fun _ => trivial

variable {s s' : SendSystem} {a : SendAction} {t : Thread}

theorem Genuine.build {r : Request} (h : Genuine s) (hbuild : s.build t r = some s') :
    Genuine s' := by
  obtain ⟨-, rfl⟩ := SendSystem.build_eq_some hbuild
  exact ⟨h.inBounds, (Function.forall_update_iff s.pc _).mpr ⟨trivial, fun u _ => h.genuine u⟩⟩

theorem Genuine.step (h : Genuine s) (hcond : noStaleAck s a) (hstep : s.step a = some s') :
    Genuine s' := by
  cases a with
  | create t r => exact h.build (SendSystem.step_create hstep)
  | lock t =>
    obtain ⟨call, -, -, rfl⟩ := SendSystem.step_lock hstep
    refine ⟨h.inBounds, ?_⟩
    exact (Function.forall_update_iff s.pc _).mpr ⟨trivial, fun u _ => h.genuine u⟩
  | sendSppData t =>
    obtain ⟨call, hdr, i, hpc, rfl⟩ := SendSystem.step_sendSppData hstep
    have hgenuine := h.genuine t
    rw [hpc] at hgenuine
    refine ⟨h.inBounds, ?_⟩
    refine (Function.forall_update_iff s.pc _).mpr ⟨?_, fun u hu => ?_⟩
    · dsimp only
      rw [SendSystem.forget_self]
      exact ackGenuine_afterSend hgenuine (hpc ▸ hcond)
    · dsimp only
      rw [SendSystem.forget_of_ne hu]
      exact h.genuine u
  | waitDalinkAckResponse t =>
    obtain ⟨call, hdr, i, q, hpc, hq, rfl⟩ := SendSystem.step_waitDalinkAckResponse hstep
    have hgenuine := h.genuine t
    rw [hpc] at hgenuine
    have hfetching : AckGenuine s.acks (s.received t) (.fetching call hdr i) := hgenuine
    have hkeep : ∀ ack, MayDeliver q ack → MayDeliver s.acks ack := fun _ => MayDeliver.wait hq
    refine ⟨h.inBounds.wait hq, ?_⟩
    exact (Function.forall_update_iff s.pc _).mpr
      ⟨hfetching.mono hkeep, fun u _ => (h.genuine u).mono hkeep⟩
  | getDalinkAckData t =>
    obtain ⟨call, hdr, i, q, hpc, hq, rfl⟩ := SendSystem.step_getDalinkAckData hstep
    have hgenuine := h.genuine t
    rw [hpc] at hgenuine
    have hkeep : ∀ ack, MayDeliver q ack → MayDeliver s.acks ack :=
      fun _ => MayDeliver.takeAck h.inBounds hq
    have hmay := mayDeliver_front h.inBounds (takeAck_eq_some hq).1
    refine ⟨h.inBounds.takeAck hq, ?_⟩
    exact (Function.forall_update_iff s.pc _).mpr
      ⟨ackGenuine_afterFetch hgenuine hmay hkeep, fun u _ => (h.genuine u).mono hkeep⟩
  | timeout t =>
    obtain ⟨call, hdr, i, hpc, -, rfl⟩ := SendSystem.step_timeout hstep
    have hgenuine := h.genuine t
    rw [hpc] at hgenuine
    refine ⟨h.inBounds, ?_⟩
    exact (Function.forall_update_iff s.pc _).mpr
      ⟨ackGenuine_afterTimeout hgenuine, fun u _ => h.genuine u⟩
  | release t =>
    obtain ⟨call, hdr, ret, hpc, rfl⟩ := SendSystem.step_release hstep
    refine ⟨h.inBounds, ?_⟩
    exact (Function.forall_update_iff s.pc _).mpr ⟨trivial, fun u _ => h.genuine u⟩
  | bluetoothSppDataProc event =>
    obtain rfl := Option.some.inj hstep
    exact ⟨h.inBounds, h.genuine⟩
  | waitBtCommand =>
    obtain ⟨event, events, -, -, rfl⟩ := SendSystem.step_waitBtCommand hstep
    exact ⟨h.inBounds, h.genuine⟩
  | dalinkSppPacketDeal =>
    obtain ⟨-, rfl⟩ | ⟨f, rest, u, -, hu, rfl⟩ | ⟨f, rest, -, rfl⟩ :=
      SendSystem.step_dalinkSppPacketDeal hstep
    · exact ⟨h.inBounds, h.genuine⟩
    · exact ⟨(h.build hu).inBounds, (h.build hu).genuine⟩
    · exact ⟨h.inBounds, h.genuine⟩
  | dispatchCommand =>
    obtain ⟨f, rest, q, -, hack, hq, rfl⟩ | ⟨f, rest, u, -, -, hu, rfl⟩ | ⟨f, rest, -, -, rfl⟩ :=
      SendSystem.step_dispatchCommand hstep
    · refine ⟨h.inBounds.put hq, fun u => ?_⟩
      exact (h.genuine u).receive hack fun _ => MayDeliver.put h.inBounds hq
    · exact ⟨(h.build hu).inBounds, (h.build hu).genuine⟩
    · exact ⟨h.inBounds, h.genuine⟩
  | semPost =>
    obtain ⟨f, rest, q, -, hq, rfl⟩ := SendSystem.step_semPost hstep
    exact ⟨h.inBounds.post hq, fun u => (h.genuine u).mono fun _ => MayDeliver.post hq⟩

/-! ### Where an ACK was received -/

/-- The header of a call that has transmitted. -/
def Pc.header? : Pc → Option Header
  | .sending _ hdr (_ + 1) | .waiting _ hdr _ | .fetching _ hdr _ | .releasing _ hdr _ => some hdr
  | .idle | .created _ | .sending _ _ 0 => none

theorem header_of_awaited {p : Pc} {hdr : Header} (h : p.awaited = some hdr) :
    p.header? = some hdr := by
  cases p with
  | sending call hdr' i =>
    cases i with
    | zero => cases h
    | succ i => exact h
  | waiting call hdr' i | fetching call hdr' i => exact h
  | idle | created call | releasing call hdr' ret => cases h

/-- In the run over the actions the Bluetooth message thread has come to an ACK frame for the
header while the thread `t` had transmitted under this header and was waiting, and `t` has
taken the mutex for no other call since. -/
def ReceivedSince (acts : List SendAction) (t : Thread) (hdr : Header) : Prop :=
  ∃ before f rest u after, acts = before ++ .dispatchCommand :: after ∧
    exec SendSystem.step sendStart before = some u ∧ u.bt = .switching f rest ∧
    f.ack? = some hdr.ack ∧ (u.pc t).awaited = some hdr ∧ .lock t ∉ after

theorem ReceivedSince.concat {acts : List SendAction} {hdr : Header}
    (h : ReceivedSince acts t hdr) (ha : a ≠ .lock t) : ReceivedSince (acts ++ [a]) t hdr := by
  obtain ⟨before, f, rest, u, after, rfl, hbefore, hbt, hack, hawaited, hafter⟩ := h
  refine ⟨before, f, rest, u, after ++ [a], by simp, hbefore, hbt, hack, hawaited, ?_⟩
  simpa using ⟨hafter, ha.symm⟩

section Header

variable {u : Thread} {p : Pc} {call : Call} {hdr hdr' : Header} {i : ℕ}

/-- A step of a thread that leaves it with the header it had, or with none. -/
theorem header_of_update (h : (Function.update s.pc t p u).header? = some hdr)
    (hp : ∀ hdr, p.header? = some hdr → (s.pc t).header? = some hdr) :
    (s.pc u).header? = some hdr := by
  by_cases hu : u = t
  · subst hu
    rw [Function.update_self] at h
    exact hp hdr h
  · rwa [Function.update_of_ne hu] at h

theorem header_afterSend (h : (SendSystem.afterSend call hdr i).header? = some hdr') :
    hdr = hdr' := by
  unfold SendSystem.afterSend at h
  split_ifs at h <;> exact Option.some.inj h

theorem header_afterFetch {ack : BtSppDalinkAck}
    (h : (SendSystem.afterFetch call hdr i ack).header? = some hdr') : hdr = hdr' := by
  rw [SendSystem.afterFetch_eq] at h
  split_ifs at h <;> exact Option.some.inj h

theorem header_afterTimeout (h : (SendSystem.afterTimeout call hdr i).header? = some hdr') :
    hdr = hdr' := by
  unfold SendSystem.afterTimeout at h
  split_ifs at h
  · cases i with
    | zero => cases h
    | succ i => exact Option.some.inj h
  · exact Option.some.inj h

theorem header_of_build {r : Request} (hbuild : s.build t r = some s')
    (h : (s'.pc u).header? = some hdr) :
    (s.pc u).header? = some hdr ∧ s'.received u = s.received u := by
  obtain ⟨-, rfl⟩ := SendSystem.build_eq_some hbuild
  exact ⟨header_of_update h fun _ hp => (nomatch hp), rfl⟩

/-- A call that has seen an ACK had seen one before the step, or the step is the one at which
the Bluetooth message thread comes to it. -/
theorem received_step (hstep : s.step a = some s') (hheader : (s'.pc u).header? = some hdr)
    (hreceived : s'.received u = true) :
    (a ≠ .lock u ∧ (s.pc u).header? = some hdr ∧ s.received u = true) ∨
    ∃ f rest, a = .dispatchCommand ∧ s.bt = .switching f rest ∧ f.ack? = some hdr.ack ∧
      (s.pc u).awaited = some hdr := by
  cases a with
  | create t r =>
    obtain ⟨hheld, hsame⟩ := header_of_build (SendSystem.step_create hstep) hheader
    exact .inl ⟨SendAction.noConfusion, hheld, hsame ▸ hreceived⟩
  | lock t =>
    obtain ⟨call, -, -, rfl⟩ := SendSystem.step_lock hstep
    refine .inl ⟨?_, header_of_update hheader fun _ hp => (nomatch hp), hreceived⟩
    -- a call that has just taken the mutex has transmitted nothing
    intro hlock
    obtain rfl := SendAction.lock.inj hlock
    dsimp only at hheader
    rw [Function.update_self] at hheader
    cases hheader
  | sendSppData t =>
    obtain ⟨call, hdr', i, hpc, rfl⟩ := SendSystem.step_sendSppData hstep
    dsimp only at hheader hreceived
    refine .inl ⟨SendAction.noConfusion, ?_⟩
    by_cases hu : u = t
    · subst hu
      rw [Function.update_self] at hheader
      rw [SendSystem.forget_self] at hreceived
      cases i with
      | zero => cases hreceived
      | succ i =>
        rw [hpc]
        exact ⟨congrArg some (header_afterSend hheader), hreceived⟩
    · rw [Function.update_of_ne hu] at hheader
      rw [SendSystem.forget_of_ne hu] at hreceived
      exact ⟨hheader, hreceived⟩
  | waitDalinkAckResponse t =>
    obtain ⟨call, hdr', i, q, hpc, -, rfl⟩ := SendSystem.step_waitDalinkAckResponse hstep
    refine .inl ⟨SendAction.noConfusion, header_of_update hheader fun _ hp => ?_, hreceived⟩
    rw [hpc]
    exact hp
  | getDalinkAckData t =>
    obtain ⟨call, hdr', i, q, hpc, -, rfl⟩ := SendSystem.step_getDalinkAckData hstep
    refine .inl ⟨SendAction.noConfusion, header_of_update hheader fun _ hp => ?_, hreceived⟩
    rw [hpc]
    exact congrArg some (header_afterFetch hp)
  | timeout t =>
    obtain ⟨call, hdr', i, hpc, -, rfl⟩ := SendSystem.step_timeout hstep
    refine .inl ⟨SendAction.noConfusion, header_of_update hheader fun _ hp => ?_, hreceived⟩
    rw [hpc]
    exact congrArg some (header_afterTimeout hp)
  | release t =>
    obtain ⟨call, hdr', ret, -, rfl⟩ := SendSystem.step_release hstep
    have hidle : ∀ hdr, Pc.idle.header? = some hdr → (s.pc t).header? = some hdr :=
      fun _ hp => nomatch hp
    exact .inl ⟨SendAction.noConfusion, header_of_update hheader hidle, hreceived⟩
  | bluetoothSppDataProc event =>
    obtain rfl := Option.some.inj hstep
    exact .inl ⟨SendAction.noConfusion, hheader, hreceived⟩
  | waitBtCommand =>
    obtain ⟨event, events, -, -, rfl⟩ := SendSystem.step_waitBtCommand hstep
    exact .inl ⟨SendAction.noConfusion, hheader, hreceived⟩
  | dalinkSppPacketDeal =>
    obtain ⟨-, rfl⟩ | ⟨f, rest, v, -, hv, rfl⟩ | ⟨f, rest, -, rfl⟩ :=
      SendSystem.step_dalinkSppPacketDeal hstep
    · exact .inl ⟨SendAction.noConfusion, hheader, hreceived⟩
    · obtain ⟨hheld, hsame⟩ := header_of_build hv hheader
      exact .inl ⟨SendAction.noConfusion, hheld, hsame ▸ hreceived⟩
    · exact .inl ⟨SendAction.noConfusion, hheader, hreceived⟩
  | dispatchCommand =>
    obtain ⟨f, rest, q, hbt, -, -, rfl⟩ | ⟨f, rest, v, -, -, hv, rfl⟩ | ⟨f, rest, -, -, rfl⟩ :=
      SendSystem.step_dispatchCommand hstep
    · rcases Bool.or_eq_true_iff.mp hreceived with hbefore | hnow
      · exact .inl ⟨SendAction.noConfusion, hheader, hbefore⟩
      · obtain ⟨hdr', hawaited, hack⟩ := acknowledgedBy_iff.mp hnow
        obtain rfl : hdr' = hdr :=
          Option.some.inj ((header_of_awaited hawaited).symm.trans hheader)
        exact .inr ⟨f, rest, rfl, hbt, hack, hawaited⟩
    · obtain ⟨hheld, hsame⟩ := header_of_build hv hheader
      exact .inl ⟨SendAction.noConfusion, hheld, hsame ▸ hreceived⟩
    · exact .inl ⟨SendAction.noConfusion, hheader, hreceived⟩
  | semPost =>
    obtain ⟨f, rest, q, -, -, rfl⟩ := SendSystem.step_semPost hstep
    exact .inl ⟨SendAction.noConfusion, hheader, hreceived⟩

end Header

/-- The run leads to the state, and every call that has seen an ACK has seen it in the run. -/
structure Recorded (acts : List SendAction) (s : SendSystem) : Prop where
  run : exec SendSystem.step sendStart acts = some s
  received : ∀ t hdr, (s.pc t).header? = some hdr → s.received t = true → ReceivedSince acts t hdr

theorem recorded_start : Recorded [] sendStart where
  run := rfl
  received := fun _ _ hheader _ => by cases hheader

theorem Recorded.step {acts : List SendAction} (h : Recorded acts s)
    (hstep : s.step a = some s') : Recorded (acts ++ [a]) s' where
  run := by
    rw [exec_append_of_eq_some h.run, exec_cons, hstep]
    rfl
  received := fun t hdr hheader hreceived => by
    obtain ⟨hne, hheld, hbefore⟩ | ⟨f, rest, rfl, hbt, hack, hawaited⟩ :=
      received_step hstep hheader hreceived
    · exact (h.received t hdr hheld hbefore).concat hne
    · exact ⟨acts, f, rest, s, [], rfl, h.run, hbt, hack, hawaited, List.not_mem_nil⟩

/-- Along every run, a call that has seen an ACK for its header has seen it at a step of the
Bluetooth message thread. -/
theorem received_since {acts : List SendAction} {hdr : Header}
    (hrun : exec SendSystem.step sendStart acts = some s) (hheader : (s.pc t).header? = some hdr)
    (hreceived : s.received t = true) : ReceivedSince acts t hdr := by
  have hrecorded : Recorded acts s :=
    exec_history_of_meets Recorded (fun _ _ _ _ h _ hstep => h.step hstep) recorded_start
      (meets_true sendStart acts) hrun
  exact hrecorded.received t hdr hheader hreceived

/-- **No phantom acknowledgement** along every run in which, at the first transmission
of each frame that asks for an ACK, the ring can hand out none for it: for a call that is
about to return `0` for such a frame, the Bluetooth message thread has come to an ACK frame
with the frame's command and transaction id after the call's first transmission. The frame
is the one whose header the call read back; as long as no other thread builds a frame in
between it is the call's own, and has been transmitted. -/
theorem no_phantom_ack {s : SendSystem} {acts : List SendAction}
    (hrun : exec SendSystem.step sendStart acts = some s)
    (hcond : Meets SendSystem.step noStaleAck sendStart acts) :
    ∀ t call hdr, s.pc t = .releasing call hdr 0 → hdr.dFlag = dFlagNeedAck →
      s.received t = true ∧ ReceivedSince acts t hdr ∧
        (Meets SendSystem.step noCreateSince sendStart acts →
          hdr = call.frame.header ∧ (call.frame.bytes, call.frame.bytes) ∈ s.transmitted) := by
  have hgenuine : Genuine s :=
    exec_invariant_of_meets Genuine (fun _ _ _ h hc hstep => h.step hc hstep)
      genuine_start hcond hrun
  intro t call hdr hpc hflag
  have hreleasing := hgenuine.genuine t
  rw [hpc] at hreleasing
  have hreceived : s.received t = true := hreleasing rfl hflag
  refine ⟨hreceived, received_since hrun (by rw [hpc]; rfl) hreceived, fun hown => ?_⟩
  have hcall := own_calls hrun hown t
  rw [hpc] at hcall
  obtain ⟨hheader, hcarried, -⟩ := hcall
  exact ⟨hheader, hcarried.mem le_rfl⟩

/-- A request that is acknowledged after its first transmission. -/
def requestAcknowledged : List SendAction :=
  [.create .hmi (.requestPhonestate 2), .lock .hmi, .sendSppData .hmi,
    .bluetoothSppDataProc [⟨btSppMessageDlHuAck, 0, 0, 0x38, 0⟩], .waitBtCommand,
    .dalinkSppPacketDeal, .dispatchCommand, .semPost, .waitDalinkAckResponse .hmi,
    .getDalinkAckData .hmi]

theorem no_phantom_ack_acknowledged :
    let s := (exec SendSystem.step sendStart requestAcknowledged).get (by decide)
    ∃ call, s.pc .hmi = .releasing call ⟨dFlagNeedAck, 0x38, 0⟩ 0 ∧ s.received .hmi = true ∧
      ReceivedSince requestAcknowledged .hmi ⟨dFlagNeedAck, 0x38, 0⟩ ∧
      (call.frame.bytes, call.frame.bytes) ∈ s.transmitted :=
  have hrun : exec SendSystem.step sendStart requestAcknowledged = some _ :=
    (Option.some_get (by decide)).symm
  have h := no_phantom_ack hrun (by decide) .hmi _ _ rfl rfl
  ⟨_, rfl, h.1, h.2.1, (h.2.2 (by decide)).2⟩

/-! ### The counter comes round -/

/-- A request that is given up, and its ACK after that. -/
def requestAcknowledgedLate : List SendAction :=
  [.create .hmi (.requestPhonestate 2), .lock .hmi, .sendSppData .hmi, .timeout .hmi,
    .sendSppData .hmi, .timeout .hmi, .sendSppData .hmi, .timeout .hmi, .release .hmi,
    .bluetoothSppDataProc [⟨btSppMessageDlHuAck, 0, 0, 0x38, 0⟩], .waitBtCommand,
    .dalinkSppPacketDeal, .dispatchCommand, .semPost, .dalinkSppPacketDeal]

/-- One touch frame. -/
def touchRound : List SendAction :=
  [.create .touch (.touchscreen 0 0 2 0), .lock .touch, .sendSppData .touch, .release .touch]

/-- The same request again: it is transmitted and finds an ACK. -/
def requestAgain : List SendAction :=
  [.create .hmi (.requestPhonestate 2), .lock .hmi, .sendSppData .hmi,
    .waitDalinkAckResponse .hmi, .getDalinkAckData .hmi]

/-- Nobody is sending, the counter is at `n`, and the ring hands out the ACK for the
request with transaction id `0` next. -/
structure LeftOver (n : ℕ) (s : SendSystem) : Prop where
  hmi_idle : s.pc .hmi = .idle
  touch_idle : s.pc .touch = .idle
  free : s.sppSendProctectMutex = none
  tranID_eq : s.tranID = UInt16.ofNat n
  sem_pos : 0 < s.acks.sem
  taking_eq : s.acks.taking = false
  front_eq : (getDalinkAckData s.acks.buffer).1 = ⟨0, 0x38⟩

theorem leftOver_after_late_ack :
    LeftOver 1 ((exec SendSystem.step sendStart requestAcknowledgedLate).get (by decide)) where
  hmi_idle := rfl
  touch_idle := rfl
  free := rfl
  tranID_eq := rfl
  sem_pos := by decide
  taking_eq := rfl
  front_eq := rfl

/-- A create step and the lock after it, with the mutex free. -/
theorem exec_create_lock {s : SendSystem} {t : Thread} (r : Request) (hbt : t ≠ .bt)
    (hidle : s.pc t = .idle) (hfree : s.sppSendProctectMutex = none) :
    ∃ u call, exec SendSystem.step s [.create t r, .lock t] = some u ∧
      u.pc = Function.update s.pc t (.sending call (r.frame s.tranID).header 0) ∧
      u.acks = s.acks ∧ u.tranID = (r.create s.tranID s.dalinkSppSendBuf).tranID := by
  have hlen : ¬ (Call.ofRequest r s.tranID s.dalinkSppSendBuf).cDataLen < 10 :=
    UInt8.not_lt.mpr (UInt8.le_iff_toNat_le.mpr (Call.ten_le _))
  -- nobody built a frame in between, so the header read is the request's
  have hheader : readHeader (r.create s.tranID s.dalinkSppSendBuf).desbuf =
      (r.frame s.tranID).header := by
    rw [(r.create_eq _ _).2]
    exact readHeader_of_holds (Memory.holds_overlay _ _)
  refine ⟨{ s with
    dalinkSppSendBuf := (r.create s.tranID s.dalinkSppSendBuf).desbuf
    tranID := (r.create s.tranID s.dalinkSppSendBuf).tranID
    builder := some t
    sppSendProctectMutex := some t
    pc := Function.update s.pc t
      (.sending (.ofRequest r s.tranID s.dalinkSppSendBuf) (r.frame s.tranID).header 0) },
    _, ?_, rfl, rfl, rfl⟩
  simp only [exec_cons, exec_nil, SendSystem.step, if_neg hbt, SendSystem.build, hidle,
    Option.bind_some, Function.update_self, if_neg hlen, hfree, hheader, if_true,
    Function.update_idem]

/-- The one transmission of a frame that asks for no ACK, and the return. -/
theorem exec_send_release {s : SendSystem} {t : Thread} {call : Call} {hdr : Header} {i : ℕ}
    (hbt : t ≠ .bt) (hpc : s.pc t = .sending call hdr i) (hflag : hdr.dFlag ≠ dFlagNeedAck) :
    ∃ u, exec SendSystem.step s [.sendSppData t, .release t] = some u ∧
      u.pc = Function.update s.pc t .idle ∧ u.sppSendProctectMutex = none ∧ u.acks = s.acks ∧
      u.tranID = s.tranID := by
  refine ⟨{ s with
    transmitted := s.transmitted ++
      [(call.frame.bytes, s.dalinkSppSendBuf.read 0 call.cDataLen.toNat)]
    enqueued := SendSystem.forget i t s.enqueued
    received := SendSystem.forget i t s.received
    sppSendProctectMutex := none
    pc := Function.update s.pc t .idle }, ?_, rfl, rfl, rfl, rfl⟩
  simp only [exec_cons, exec_nil, SendSystem.step, hpc, SendSystem.afterSend, if_neg hflag,
    Option.bind_some, Function.update_self, SendSystem.finish, if_neg hbt, Function.update_idem]

/-- The first transmission of a frame whose ACK the ring hands out at once. -/
theorem exec_send_fetch {s : SendSystem} {t : Thread} {call : Call} {hdr : Header}
    (hpc : s.pc t = .sending call hdr 0) (hflag : hdr.dFlag = dFlagNeedAck)
    (hsem : 0 < s.acks.sem) (htaking : s.acks.taking = false)
    (hfront : (getDalinkAckData s.acks.buffer).1 = hdr.ack) :
    ∃ u, exec SendSystem.step s
        [.sendSppData t, .waitDalinkAckResponse t, .getDalinkAckData t] = some u ∧
      u.pc t = .releasing call hdr 0 ∧ u.received t = false := by
  have hwait : s.acks.wait = some { s.acks with sem := s.acks.sem - 1, taking := true } :=
    SemQueue.wait_eq_some.mpr ⟨⟨htaking, hsem⟩, rfl⟩
  have htake : takeAck { s.acks with sem := s.acks.sem - 1, taking := true } = some { s.acks with
      sem := s.acks.sem - 1
      buffer := (getDalinkAckData s.acks.buffer).2
      taking := false
      taken := s.acks.taken ++ [(getDalinkAckData s.acks.buffer).1] } := if_pos rfl
  refine ⟨{ s with
    transmitted := s.transmitted ++
      [(call.frame.bytes, s.dalinkSppSendBuf.read 0 call.cDataLen.toNat)]
    enqueued := SendSystem.forget 0 t s.enqueued
    received := SendSystem.forget 0 t s.received
    acks := { s.acks with
      sem := s.acks.sem - 1
      buffer := (getDalinkAckData s.acks.buffer).2
      taking := false
      taken := s.acks.taken ++ [(getDalinkAckData s.acks.buffer).1] }
    pc := Function.update s.pc t (.releasing call hdr 0) }, ?_, Function.update_self .., ?_⟩
  · simp only [exec_cons, exec_nil, SendSystem.step, hpc, SendSystem.afterSend, if_pos hflag,
      Option.bind_some, Function.update_self, hwait, Option.map_some, htake,
      SendSystem.afterFetch_eq, if_pos hfront, Function.update_idem]
  · exact (SendSystem.forget_self 0 t s.received).trans (if_pos rfl)

/-- A touch frame moves the counter on and leaves the ring alone. -/
theorem LeftOver.touchRound {n : ℕ} {s : SendSystem} (h : LeftOver n s) :
    ∃ u, exec SendSystem.step s touchRound = some u ∧ LeftOver (n + 1) u := by
  obtain ⟨u, call, hrun, hpc, hacks, htran⟩ :=
    exec_create_lock (.touchscreen 0 0 2 0) (by decide) h.touch_idle h.free
  have hsending := congrFun hpc .touch
  rw [Function.update_self] at hsending
  obtain ⟨v, hrun', hpc', hfree, hacks', htran'⟩ :=
    exec_send_release (by decide) hsending (by simp [Frame.header, Request.frame, Frame.short,
      dFlagNeedAck, dFlagNoNeedAck])
  rw [hpc, Function.update_idem] at hpc'
  rw [hacks] at hacks'
  refine ⟨v, (exec_append_of_eq_some hrun _).trans hrun', ?_, ?_, hfree, ?_, ?_, ?_, ?_⟩
  · rw [hpc', Function.update_of_ne (by decide), h.hmi_idle]
  · rw [hpc', Function.update_self]
  · have hnext : u.tranID = s.tranID + 1 := htran
    rw [htran', hnext, h.tranID_eq, UInt16.ofNat_add]
    rfl
  · exact hacks' ▸ h.sem_pos
  · exact hacks' ▸ h.taking_eq
  · exact hacks' ▸ h.front_eq

theorem LeftOver.touchRounds {n : ℕ} {s : SendSystem} (h : LeftOver n s) (k : ℕ) :
    ∃ u, exec SendSystem.step s ((List.replicate k PhoneLink.touchRound).flatten) = some u ∧
      LeftOver (n + k) u := by
  -- induction on the number of rounds still to come
  induction k generalizing n s with
  | zero => exact ⟨s, rfl, h⟩
  | succ k ih =>
    obtain ⟨u, hrun, hu⟩ := h.touchRound
    obtain ⟨v, hrun', hv⟩ := ih hu
    refine ⟨v, ?_, by rwa [Nat.add_assoc, Nat.add_comm 1 k] at hv⟩
    rw [List.replicate_succ, List.flatten_cons, exec_append_of_eq_some hrun]
    exact hrun'

/-- With the counter back at `0` the request is reported as sent on the old ACK. -/
theorem LeftOver.requestAgain {s : SendSystem} (h : LeftOver 65536 s) :
    ∃ u call, exec SendSystem.step s requestAgain = some u ∧
      u.pc .hmi = .releasing call ⟨dFlagNeedAck, 0x38, 0⟩ 0 ∧ u.received .hmi = false := by
  have hround : s.tranID = 0 := h.tranID_eq
  obtain ⟨u, call, hrun, hpc, hacks, -⟩ :=
    exec_create_lock (.requestPhonestate 2) (by decide) h.hmi_idle h.free
  have hsending := congrFun hpc .hmi
  rw [Function.update_self, hround] at hsending
  obtain ⟨v, hrun', hret, hnone⟩ := exec_send_fetch hsending rfl (hacks ▸ h.sem_pos)
    (hacks ▸ h.taking_eq) (hacks ▸ h.front_eq)
  exact ⟨v, call, (exec_append_of_eq_some hrun _).trans hrun', hret, hnone⟩

/-- The run: a request given up, its ACK, 65535 touch frames, and the request again,
which has the transaction id of the first. -/
def requestOnOldAck : List SendAction :=
  requestAcknowledgedLate ++ (List.replicate 65535 touchRound).flatten ++ requestAgain

/-- The second request is about to be reported as sent, and no ACK has been received
since its first transmission. -/
theorem phantom_ack_after_wrap :
    ∃ s call, exec SendSystem.step sendStart requestOnOldAck = some s ∧
      s.pc .hmi = .releasing call ⟨dFlagNeedAck, 0x38, 0⟩ 0 ∧ s.received .hmi = false := by
  have hlate : exec SendSystem.step sendStart requestAcknowledgedLate =
      some ((exec SendSystem.step sendStart requestAcknowledgedLate).get (by decide)) :=
    (Option.some_get _).symm
  obtain ⟨s, hrun, hs⟩ := leftOver_after_late_ack.touchRounds 65535
  obtain ⟨u, call, hrun', hret, hnone⟩ := LeftOver.requestAgain hs
  refine ⟨u, call, ?_, hret, hnone⟩
  rw [requestOnOldAck, List.append_assoc, exec_append_of_eq_some hlate,
    exec_append_of_eq_some hrun]
  exact hrun'

end PhoneLink
