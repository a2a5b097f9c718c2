import PhoneLink.Send.System

/-!
# An acknowledged frame and its sender

The Bluetooth message thread takes ACK frames off the event queue and posts them; a
sender waits for the post. A sender whose ACK has been queued goes without it when
the ACK is still undealt with at its last time-out. The Bluetooth message thread does
not deal with anything while it is itself the sender, nor while it waits for the mutex
that the sender holds.

## Main results

* `exclusive_step`: one thread at a time is between lock and unlock
* `Tracked.step`: a queued ACK is undealt with or counted by the semaphore, until its
  sender takes it
* `acknowledged_not_lost`: no send whose ACK was queued in time returns `-2`, along
  every run in which each last time-out finds no ACK for the frame undealt with
-/

namespace PhoneLink

open CS CS.Transition

/-! ### Undealt frames -/

/-- The frames received and not yet done with, the oldest first. -/
def SendSystem.undealt (s : SendSystem) : List RxFrame := s.bt.frames ++ s.events.flatten

/-- An ACK for the header is queued, or in the hands of the Bluetooth message thread. -/
def AckIn (frames : List RxFrame) (hdr : Header) : Prop := ∃ f ∈ frames, f.ack? = some hdr.ack

instance (frames : List RxFrame) (hdr : Header) : Decidable (AckIn frames hdr) :=
  inferInstanceAs (Decidable (∃ f ∈ frames, _))

/-- The header of a wait after the third transmission. -/
def Pc.lastWait : Pc → Option Header
  | .waiting _ hdr i => if i + 1 ≤ 3 then none else some hdr
  | _ => none

/-- Fewer than ten events are queued, and no ACK that a sender fetches is a
mismatching one. -/
def fewEventsAndNoMismatch (s : SendSystem) : SendAction → Prop
  | .bluetoothSppDataProc _ => s.events.length < 10
  | .getDalinkAckData t => ∀ hdr ∈ (s.pc t).awaited, (getDalinkAckData s.acks.buffer).1 = hdr.ack
  | _ => True

/-- At the third time-out of a send no ACK for its frame is undealt with. -/
def ackDealtWith (s : SendSystem) : SendAction → Prop
  | .timeout t => ∀ hdr ∈ (s.pc t).lastWait, ¬ AckIn s.undealt hdr
  | _ => True

instance : ∀ (s : SendSystem) (a : SendAction), Decidable (fewEventsAndNoMismatch s a)
  | _, .bluetoothSppDataProc _ => inferInstanceAs (Decidable (_ < _))
  | _, .getDalinkAckData _ => inferInstanceAs (Decidable (∀ hdr ∈ _, _ = _))
  | _, .create _ _ | _, .lock _ | _, .sendSppData _ | _, .waitDalinkAckResponse _ | _, .timeout _
  | _, .release _ | _, .waitBtCommand | _, .dalinkSppPacketDeal | _, .dispatchCommand
  | _, .semPost => isTrue trivial

instance : ∀ (s : SendSystem) (a : SendAction), Decidable (ackDealtWith s a)
  | _, .timeout _ => inferInstanceAs (Decidable (∀ hdr ∈ _, ¬ AckIn _ hdr))
  | _, .create _ _ | _, .lock _ | _, .sendSppData _ | _, .waitDalinkAckResponse _
  | _, .getDalinkAckData _ | _, .release _ | _, .bluetoothSppDataProc _ | _, .waitBtCommand
  | _, .dalinkSppPacketDeal | _, .dispatchCommand | _, .semPost => isTrue trivial

theorem frames_resume (stage : BtStage) : stage.resume.frames = stage.frames := by
  cases stage <;> rfl

/-! ### One sender at a time -/

/-- Only the thread that holds the mutex is between lock and unlock. -/
def Exclusive (mutex : Option Thread) (pc : Thread → Pc) : Prop :=
  ∀ t, (pc t).locked = true → mutex = some t

section Exclusive

variable {mutex : Option Thread} {pc : Thread → Pc} {t u : Thread} {p : Pc}

theorem Exclusive.update (h : Exclusive mutex pc) (hp : p.locked = true → mutex = some t) :
    Exclusive mutex (Function.update pc t p) := by
  intro u hu
  by_cases hut : u = t
  · subst hut
    rw [Function.update_self] at hu
    exact hp hu
  · rw [Function.update_of_ne hut] at hu
    exact h u hu

theorem Exclusive.not_locked (h : Exclusive mutex pc) (ht : (pc t).locked = true) (hu : u ≠ t) :
    (pc u).locked = false := by
  by_contra hlocked
  have hboth := (h u (by simpa using hlocked)).symm.trans (h t ht)
  exact hu (Option.some.inj hboth)

theorem Exclusive.lock (h : Exclusive none pc) : Exclusive (some t) (Function.update pc t p) := by
  intro u hu
  by_cases hut : u = t
  · rw [hut]
  · rw [Function.update_of_ne hut] at hu
    cases h u hu

theorem Exclusive.release (h : Exclusive mutex pc) (ht : (pc t).locked = true) :
    Exclusive none (Function.update pc t .idle) := by
  intro u hu
  by_cases hut : u = t
  · subst hut
    rw [Function.update_self] at hu
    cases hu
  · rw [Function.update_of_ne hut, h.not_locked ht hut] at hu
    cases hu

/-- No step lets a second thread in. -/
theorem exclusive_step {s s' : SendSystem} {a : SendAction}
    (h : Exclusive s.sppSendProctectMutex s.pc) (hstep : s.step a = some s') :
    Exclusive s'.sppSendProctectMutex s'.pc := by
  have hbuild {t : Thread} {r : Request} {u : SendSystem} (hu : s.build t r = some u) :
      Exclusive u.sppSendProctectMutex u.pc := by
    obtain ⟨-, rfl⟩ := SendSystem.build_eq_some hu
    exact h.update fun hp => nomatch hp
  cases a with
  | create t r => exact hbuild (SendSystem.step_create hstep)
  | lock t =>
    obtain ⟨call, -, hfree, rfl⟩ := SendSystem.step_lock hstep
    rw [hfree] at h
    exact h.lock
  | sendSppData t =>
    obtain ⟨call, hdr, i, hpc, rfl⟩ := SendSystem.step_sendSppData hstep
    -- from here to the release it is the holder that moves
    exact h.update fun _ => h t (by rw [hpc]; rfl)
  | waitDalinkAckResponse t =>
    obtain ⟨call, hdr, i, q, hpc, -, rfl⟩ := SendSystem.step_waitDalinkAckResponse hstep
    exact h.update fun _ => h t (by rw [hpc]; rfl)
  | getDalinkAckData t =>
    obtain ⟨call, hdr, i, q, hpc, -, rfl⟩ := SendSystem.step_getDalinkAckData hstep
    exact h.update fun _ => h t (by rw [hpc]; rfl)
  | timeout t =>
    obtain ⟨call, hdr, i, hpc, -, rfl⟩ := SendSystem.step_timeout hstep
    exact h.update fun _ => h t (by rw [hpc]; rfl)
  | release t =>
    obtain ⟨call, hdr, ret, hpc, rfl⟩ := SendSystem.step_release hstep
    exact h.release (by rw [hpc]; rfl)
  | bluetoothSppDataProc event =>
    obtain rfl := Option.some.inj hstep
    exact h
  | waitBtCommand =>
    obtain ⟨event, events, -, -, rfl⟩ := SendSystem.step_waitBtCommand hstep
    exact h
  | dalinkSppPacketDeal =>
    obtain ⟨-, rfl⟩ | ⟨f, rest, u, -, hu, rfl⟩ | ⟨f, rest, -, rfl⟩ :=
      SendSystem.step_dalinkSppPacketDeal hstep
    · exact h
    · have hbuilt := hbuild hu
      exact hbuilt
    · exact h
  | dispatchCommand =>
    obtain ⟨f, rest, q, -, -, -, rfl⟩ | ⟨f, rest, u, -, -, hu, rfl⟩ | ⟨f, rest, -, -, rfl⟩ :=
      SendSystem.step_dispatchCommand hstep
    · exact h
    · have hbuilt := hbuild hu
      exact hbuilt
    · exact h
  | semPost =>
    obtain ⟨f, rest, q, -, -, rfl⟩ := SendSystem.step_semPost hstep
    exact h

end Exclusive

/-! ### Where a queued ACK is -/

/-- A sender whose ACK was queued since its first transmission finds it undealt with
or counted by the semaphore as long as it waits, and does not end with `-2`. -/
def AckTracked (frames : List RxFrame) (sem : ℕ) (enqueued : Bool) : Pc → Prop
  | .sending _ hdr (_ + 1) | .waiting _ hdr _ => enqueued = true → AckIn frames hdr ∨ 0 < sem
  | .releasing _ _ ret => ret = -2 → enqueued = false
  | .idle | .created _ | .sending _ _ 0 | .fetching _ _ _ => True

section AckTracked

variable {frames frames' : List RxFrame} {sem sem' : ℕ} {enqueued : Bool} {p : Pc}

theorem AckTracked.mono (h : AckTracked frames sem enqueued p)
    (hkeep : ∀ hdr, AckIn frames hdr ∨ 0 < sem → AckIn frames' hdr ∨ 0 < sem') :
    AckTracked frames' sem' enqueued p := by
  cases p with
  | sending call hdr i =>
    cases i with
    | zero => trivial
    | succ i => exact fun henq => hkeep hdr (h henq)
  | waiting call hdr i => exact fun henq => hkeep hdr (h henq)
  | releasing call hdr ret => exact h
  | idle | created call | fetching call hdr i => trivial

theorem ackTracked_of_not_locked (h : p.locked = false) : AckTracked frames sem enqueued p := by
  cases p with
  | idle | created call => trivial
  | sending call hdr i | waiting call hdr i | fetching call hdr i | releasing call hdr ret =>
    cases h

theorem ackTracked_afterSend {call : Call} {hdr : Header} {i : ℕ}
    (h : AckTracked frames sem enqueued (.sending call hdr i)) :
    AckTracked frames sem (if i = 0 then false else enqueued)
      (SendSystem.afterSend call hdr i) := by
  unfold SendSystem.afterSend
  by_cases hflag : hdr.dFlag = dFlagNeedAck
  · rw [if_pos hflag]
    cases i with
    -- at the first transmission nothing has been queued since
    | zero => exact fun henq => nomatch henq
    | succ i => exact h
  · rw [if_neg hflag]
    exact fun hret => nomatch hret

theorem ackTracked_afterFetch (call : Call) (hdr : Header) (i : ℕ) :
    AckTracked frames sem enqueued (SendSystem.afterFetch call hdr i hdr.ack) := by
  rw [SendSystem.afterFetch_eq, if_pos rfl]
  exact fun hret => nomatch hret

/-- At the last time-out the ACK would be undealt with, or the wait would have
succeeded. -/
theorem ackTracked_afterTimeout {call : Call} {hdr : Header} {i : ℕ}
    (h : AckTracked frames sem enqueued (.waiting call hdr i)) (hsem : sem = 0)
    (hlast : ∀ hdr' ∈ (Pc.waiting call hdr i).lastWait, ¬ AckIn frames hdr') :
    AckTracked frames sem enqueued (SendSystem.afterTimeout call hdr i) := by
  unfold SendSystem.afterTimeout
  by_cases hagain : i + 1 ≤ 3
  · rw [if_pos hagain]
    cases i with
    | zero => trivial
    | succ i => exact h
  · -- `-2`: were the ACK queued, it would be undealt with or in the semaphore
    rw [if_neg hagain]
    intro _
    by_contra henq
    rcases h (by simpa using henq) with hin | hpos
    · refine hlast hdr ?_ hin
      rw [Pc.lastWait, if_neg hagain]
      rfl
    · exact hpos.ne' hsem

/-- An event arrives: an ACK in it is undealt with from now on. -/
theorem AckTracked.enqueue (h : AckTracked frames sem enqueued p) (event : List RxFrame) :
    AckTracked (frames ++ event) sem (enqueued || event.any p.acknowledgedBy) p := by
  have hnew : ∀ hdr, p.awaited = some hdr → (enqueued = true → AckIn frames hdr ∨ 0 < sem) →
      (enqueued || event.any p.acknowledgedBy) = true → AckIn (frames ++ event) hdr ∨ 0 < sem := by
    intro hdr hawaited hold henq
    rcases Bool.or_eq_true_iff.mp henq with hearlier | hnow
    · -- it was there before: the queue only grows
      refine (hold hearlier).imp_left ?_
      rintro ⟨f, hf, hack⟩
      exact ⟨f, List.mem_append_left _ hf, hack⟩
    · obtain ⟨f, hf, hby⟩ := List.any_eq_true.mp hnow
      obtain ⟨hdr', hawaited', hack⟩ := acknowledgedBy_iff.mp hby
      obtain rfl := Option.some.inj (hawaited.symm.trans hawaited')
      exact .inl ⟨f, List.mem_append_right _ hf, hack⟩
  cases p with
  | sending call hdr i =>
    cases i with
    | zero => trivial
    | succ i => exact hnew hdr rfl h
  | waiting call hdr i => exact hnew hdr rfl h
  | releasing call hdr ret =>
    intro hret
    rw [h hret, Bool.false_or]
    simp [Pc.acknowledgedBy, Pc.awaited]
  | idle | created call | fetching call hdr i => trivial

theorem AckIn.mono {hdr : Header} (h : AckIn frames hdr)
    (hsub : ∀ f ∈ frames, f.ack? ≠ none → f ∈ frames') : AckIn frames' hdr := by
  obtain ⟨f, hf, hack⟩ := h
  exact ⟨f, hsub f hf (by simp [hack]), hack⟩

end AckTracked

/-- One sender at a time, and every queued ACK accounted for. -/
structure Tracked (s : SendSystem) : Prop where
  exclusive : Exclusive s.sppSendProctectMutex s.pc
  tracked : ∀ t, AckTracked s.undealt s.acks.sem (s.enqueued t) (s.pc t)

theorem tracked_start : Tracked sendStart where
  exclusive := fun _ hlocked => nomatch hlocked
  tracked := fun _ => trivial

variable {s s' : SendSystem} {a : SendAction} {t : Thread}

theorem Tracked.build {r : Request} (h : Tracked s) (hbuild : s.build t r = some s') :
    Tracked s' := by
  obtain ⟨-, rfl⟩ := SendSystem.build_eq_some hbuild
  refine ⟨h.exclusive.update fun hp => (nomatch hp), ?_⟩
  exact (Function.forall_update_iff s.pc _).mpr ⟨trivial, fun u _ => h.tracked u⟩

/-- The Bluetooth message thread moves on without losing an undealt ACK. -/
theorem Tracked.stage {stage : BtStage} {events : List (List RxFrame)} (h : Tracked s)
    (hsub : ∀ f ∈ s.undealt, f.ack? ≠ none → f ∈ stage.frames ++ events.flatten) :
    Tracked { s with bt := stage, events := events } where
  exclusive := h.exclusive
  tracked := fun u => (h.tracked u).mono fun _ => Or.imp_left fun hin => hin.mono hsub

/-- A frame that is no ACK can be dropped at the `switch`. -/
theorem mem_of_switched {f g : RxFrame} {rest : List RxFrame} {bt : BtStage}
    {events : List (List RxFrame)} (hbt : bt = .switching f rest) (hf : f.ack? = none)
    (hg : g ∈ bt.frames ++ events.flatten) (hgack : g.ack? ≠ none) :
    g ∈ rest ++ events.flatten := by
  rw [hbt] at hg
  rcases List.mem_cons.mp hg with rfl | hrest
  · exact absurd hf hgack
  · exact hrest

/-- Every step keeps track of the ACK of each sender. -/
theorem Tracked.tracked_step (h : Tracked s)
    (hcond : ackDealtWith s a ∧ fewEventsAndNoMismatch s a) (hstep : s.step a = some s')
    (u : Thread) : AckTracked s'.undealt s'.acks.sem (s'.enqueued u) (s'.pc u) := by
  revert u
  cases a with
  | create t r => exact (h.build (SendSystem.step_create hstep)).tracked
  | lock t =>
    obtain ⟨call, -, -, rfl⟩ := SendSystem.step_lock hstep
    exact (Function.forall_update_iff s.pc _).mpr ⟨trivial, fun u _ => h.tracked u⟩
  | sendSppData t =>
    obtain ⟨call, hdr, i, hpc, rfl⟩ := SendSystem.step_sendSppData hstep
    have htracked := h.tracked t
    rw [hpc] at htracked
    refine (Function.forall_update_iff s.pc _).mpr ⟨?_, fun u hu => ?_⟩
    · dsimp only
      rw [SendSystem.forget_self]
      exact ackTracked_afterSend htracked
    · dsimp only
      rw [SendSystem.forget_of_ne hu]
      exact h.tracked u
  | waitDalinkAckResponse t =>
    obtain ⟨call, hdr, i, q, hpc, hq, rfl⟩ := SendSystem.step_waitDalinkAckResponse hstep
    have hlocked : (s.pc t).locked = true := by rw [hpc]; rfl
    -- the semaphore goes down, but nobody else is waiting for it
    exact (Function.forall_update_iff s.pc _).mpr
      ⟨trivial, fun u hu => ackTracked_of_not_locked (h.exclusive.not_locked hlocked hu)⟩
  | getDalinkAckData t =>
    obtain ⟨call, hdr, i, q, hpc, hq, rfl⟩ := SendSystem.step_getDalinkAckData hstep
    -- the ACK fetched is assumed to be the awaited one
    have hmatch : (getDalinkAckData s.acks.buffer).1 = hdr.ack := hcond.2 hdr (by rw [hpc]; rfl)
    obtain ⟨-, rfl⟩ := takeAck_eq_some hq
    refine (Function.forall_update_iff s.pc _).mpr ⟨?_, fun u _ => h.tracked u⟩
    rw [hmatch]
    exact ackTracked_afterFetch call hdr i
  | timeout t =>
    obtain ⟨call, hdr, i, hpc, hsem, rfl⟩ := SendSystem.step_timeout hstep
    have htracked := h.tracked t
    rw [hpc] at htracked
    refine (Function.forall_update_iff s.pc _).mpr ⟨?_, fun u _ => h.tracked u⟩
    exact ackTracked_afterTimeout htracked hsem (hpc ▸ hcond.1)
  | release t =>
    obtain ⟨call, hdr, ret, -, rfl⟩ := SendSystem.step_release hstep
    refine (Function.forall_update_iff s.pc _).mpr ⟨trivial, fun u _ => ?_⟩
    -- the thread goes on where it left off, with the same frames to go
    have hframes : (s.finish t).bt.frames = s.bt.frames := by
      unfold SendSystem.finish
      dsimp only
      split_ifs
      · exact frames_resume s.bt
      · rfl
    refine (h.tracked u).mono fun hdr => Or.imp_left fun hin => ?_
    unfold SendSystem.undealt at hin ⊢
    exact hframes ▸ hin
  | bluetoothSppDataProc event =>
    obtain rfl := Option.some.inj hstep
    intro u
    have htracked := (h.tracked u).enqueue event
    simpa [SendSystem.undealt] using htracked
  | waitBtCommand =>
    obtain ⟨event, events, hbt, hevents, rfl⟩ := SendSystem.step_waitBtCommand hstep
    refine (h.stage fun f hf _ => ?_).tracked
    simpa [SendSystem.undealt, hbt, hevents, BtStage.frames] using hf
  | dalinkSppPacketDeal =>
    obtain ⟨hbt, rfl⟩ | ⟨f, rest, u, hbt, hu, rfl⟩ | ⟨f, rest, hbt, rfl⟩ :=
      SendSystem.step_dalinkSppPacketDeal hstep
    · refine (h.stage fun f hf _ => ?_).tracked
      simpa [SendSystem.undealt, hbt, BtStage.frames] using hf
    · refine ((h.build hu).stage fun f hf _ => ?_).tracked
      obtain ⟨-, rfl⟩ := SendSystem.build_eq_some hu
      simpa [SendSystem.undealt, hbt, BtStage.frames] using hf
    · refine (h.stage fun f hf _ => ?_).tracked
      simpa [SendSystem.undealt, hbt, BtStage.frames] using hf
  | dispatchCommand =>
    obtain ⟨f, rest, q, hbt, -, hq, rfl⟩ | ⟨f, rest, u, hbt, hack, hu, rfl⟩ |
      ⟨f, rest, hbt, hack, rfl⟩ := SendSystem.step_dispatchCommand hstep
    · -- an ACK being posted is still in the hands of the thread
      obtain ⟨-, rfl⟩ := SemQueue.put_eq_some.mp hq
      have hstage : Tracked { s with bt := .posting f rest, events := s.events } :=
        h.stage fun g hg _ => by simpa [SendSystem.undealt, hbt, BtStage.frames] using hg
      exact hstage.tracked
    · refine ((h.build hu).stage fun g hg hgack => ?_).tracked
      obtain ⟨-, rfl⟩ := SendSystem.build_eq_some hu
      exact mem_of_switched hbt hack hg hgack
    · refine (h.stage fun g hg hgack => ?_).tracked
      exact mem_of_switched hbt hack hg hgack
  | semPost =>
    obtain ⟨f, rest, q, -, hq, rfl⟩ := SendSystem.step_semPost hstep
    obtain ⟨-, rfl⟩ := SemQueue.post_eq_some.mp hq
    -- from here on the semaphore accounts for it
    exact fun u => (h.tracked u).mono fun _ _ => .inr (Nat.succ_pos _)

theorem Tracked.step (h : Tracked s)
    (hcond : ackDealtWith s a ∧ fewEventsAndNoMismatch s a) (hstep : s.step a = some s') :
    Tracked s' :=
  ⟨exclusive_step h.exclusive hstep, h.tracked_step hcond hstep⟩

/-- **An acknowledged frame is not reported as lost** along every run in which each
third time-out finds no ACK for the frame undealt with: a call that is about to return
`-2` has had no matching ACK queued between its first transmission and its last
time-out. -/
theorem acknowledged_not_lost {s : SendSystem} {acts : List SendAction}
    (hrun : exec SendSystem.step sendStart acts = some s)
    (hassumed : Meets SendSystem.step fewEventsAndNoMismatch sendStart acts)
    (hcond : Meets SendSystem.step ackDealtWith sendStart acts) :
    ∀ t call hdr, s.pc t = .releasing call hdr (-2) → s.enqueued t = false := by
  have htracked : Tracked s :=
    exec_invariant_of_meets Tracked (fun _ _ _ h hc hstep => h.step hc hstep)
      tracked_start (hcond.and hassumed) hrun
  intro t call hdr hpc
  have hreleasing := htracked.tracked t
  rw [hpc] at hreleasing
  exact hreleasing rfl

/-- The ACK frame for command `cmd` and transaction id `tranId`. -/
def ackFrame (cmd : UInt8) (tranId : UInt16) : RxFrame := ⟨btSppMessageDlHuAck, 0, tranId, cmd, 0⟩

/-- The value a thread is about to return. -/
def Pc.ret : Pc → Option ℤ
  | .releasing _ _ ret => some ret
  | _ => none

/-- The HMI thread transmits three times and gives up before the ACK arrives. -/
def requestUnanswered : List SendAction :=
  [.create .hmi (.requestPhonestate 2), .lock .hmi, .sendSppData .hmi, .timeout .hmi,
    .sendSppData .hmi, .timeout .hmi, .sendSppData .hmi, .timeout .hmi,
    .bluetoothSppDataProc [ackFrame 0x38 0]]

/-- A request is given up; the next one is acknowledged after its second transmission, and
the ACK is queued, dealt with and fetched. -/
def requestAnswered : List SendAction :=
  [.create .hmi (.requestPhonestate 2), .lock .hmi, .sendSppData .hmi, .timeout .hmi,
    .sendSppData .hmi, .timeout .hmi, .sendSppData .hmi, .timeout .hmi, .release .hmi,
    .create .hmi (.requestPhonestate 2), .lock .hmi, .sendSppData .hmi, .timeout .hmi,
    .sendSppData .hmi, .bluetoothSppDataProc [ackFrame 0x38 1], .waitBtCommand,
    .dalinkSppPacketDeal, .dispatchCommand, .semPost, .waitDalinkAckResponse .hmi,
    .getDalinkAckData .hmi]

theorem acknowledged_not_lost_answered :
    let s := (exec SendSystem.step sendStart requestAnswered).get (by decide)
    ((s.pc .hmi).ret, s.enqueued .hmi) = (some 0, true) ∧
      ∀ t call hdr, s.pc t = .releasing call hdr (-2) → s.enqueued t = false :=
  ⟨by decide, acknowledged_not_lost (Option.some_get _).symm (by decide) (by decide)⟩

/-- A SIRI command, and the ACK for the feedback to it right after its first
transmission. -/
def siriFeedbackAcknowledged : List SendAction :=
  [.bluetoothSppDataProc [⟨btSppMessageDlHuSiri, 0, 0, 0, 0⟩], .waitBtCommand,
    .dalinkSppPacketDeal, .dispatchCommand, .lock .bt, .sendSppData .bt,
    .bluetoothSppDataProc [ackFrame 0xA8 0], .timeout .bt, .sendSppData .bt, .timeout .bt,
    .sendSppData .bt, .timeout .bt]

/-- The Bluetooth message thread waits three times for an ACK that only it could take
off the queue, and reports the acknowledged frame as lost. -/
theorem siri_feedback_acknowledged_and_lost :
    Meets SendSystem.step fewEventsAndNoMismatch sendStart siriFeedbackAcknowledged ∧
      (exec SendSystem.step sendStart siriFeedbackAcknowledged).map
        (fun s => ((s.pc .bt).ret, s.enqueued .bt)) = some (some (-2), true) := by
  decide

end PhoneLink
