import PhoneLink.HeadUnit.Acknowledgement
import PhoneLink.Send.Transmission

/-!
# Received frames are answered once

The Bluetooth message thread acknowledges a frame with the D flag before it looks at what
the frame asks for. It does so through the same buffer and the same mutex as all other
senders, so its ACK may be delayed by their calls and, if another frame is built in
between, be replaced by it. Where no transmission finds another's frame in the buffer, the
ACKs that the phone sees are the ones due: one for each frame, in the order in which the
frames came.

## Main definitions

* `arrived`: the frames that came in a run
* `SendSystem.unanswered`: those still to be acknowledged

## Main results

* `Answers.step`: every step keeps the account of the ACKs
* `frames_answered_once`: the ACKs transmitted in a run
-/

namespace PhoneLink

open CS CS.Transition

/-! ### The ACKs due -/

/-- The frames that an action brings. -/
def SendAction.brings : SendAction → List RxFrame
  | .bluetoothSppDataProc event => event
  | _ => []

/-- The frames of the events of a run, in order. -/
def arrived (acts : List SendAction) : List RxFrame := acts.flatMap SendAction.brings

/-- The ACK for a received frame. -/
def RxFrame.ackFrame (f : RxFrame) : Frame := (Request.ack f.tranId f.cmd).frame 0

/-- The ACKs due for these frames. -/
def acksDue (frames : List RxFrame) : List (List UInt8) :=
  (frames.filter fun f => f.dFlag = 1).map fun f => f.ackFrame.bytes

/-- The frames of a stage that are not acknowledged yet. -/
def BtStage.unanswered : BtStage → List RxFrame
  | .waiting => []
  | .dealing rest | .switching _ rest | .posting _ rest | .feedback rest => rest
  | .acking f rest => f :: rest

namespace SendSystem

def unanswered (s : SendSystem) : List RxFrame := s.bt.unanswered ++ s.events.flatten

/-- The ACKs among what was transmitted. -/
def sentAcks (s : SendSystem) : List (List UInt8) := (s.transmitted.map Prod.snd).filter IsAck

end SendSystem

/-- Nobody but the Bluetooth message thread builds ACKs. -/
def otherRequests (_ : SendSystem) : SendAction → Prop
  | .create _ (.ack _ _) => False
  | _ => True

instance : ∀ (s : SendSystem) (a : SendAction), Decidable (otherRequests s a)
  | _, .create _ (.ack _ _) => isFalse not_false
  | _, .create _ .heartbeat | _, .create _ (.touchscreen _ _ _ _) | _, .create _ (.keyInfo _ _)
  | _, .create _ (.requestPhoneinfo _) | _, .create _ (.requestPhonestate _)
  | _, .create _ (.parkinfo _) | _, .create _ (.siri _) | _, .create _ (.siriFeedback _ _)
  | _, .create _ .startApp | _, .lock _ | _, .sendSppData _ | _, .waitDalinkAckResponse _
  | _, .getDalinkAckData _ | _, .timeout _ | _, .release _ | _, .bluetoothSppDataProc _
  | _, .waitBtCommand | _, .dalinkSppPacketDeal | _, .dispatchCommand | _, .semPost =>
    isTrue trivial

theorem type_frame_ne_ack {s : SendSystem} {t : Thread} {r : Request} (tranID : UInt16)
    (h : otherRequests s (.create t r)) : (r.frame tranID).type ≠ btSppMessageDlHuAck := by
  cases r with
  | ack ackTranid cmd => exact h.elim
  | _ => simp only [Request.frame, Frame.short]; decide

/-- The ACK of a frame is the frame of the create step, whatever the counter is. -/
theorem frame_ack (f : RxFrame) (tranID : UInt16) :
    (Request.ack f.tranId f.cmd).frame tranID = f.ackFrame := rfl

/-! ### Headers read back -/

/-- The header that a call goes by is its own frame's: at the first transmission if the
thread built last, and from then on. -/
def HeaderOwn (last : Prop) : Pc → Prop
  | .sending call hdr 0 => last → hdr = call.frame.header
  | .sending call hdr (_ + 1) | .waiting call hdr _ | .fetching call hdr _ =>
    hdr = call.frame.header ∧ hdr.dFlag = dFlagNeedAck
  | .idle | .created _ | .releasing _ _ _ => True

section HeaderOwn

variable {last : Prop} {call : Call} {hdr : Header} {i : ℕ} {p : Pc}

theorem HeaderOwn.mono {last' : Prop} (h : HeaderOwn last p) (hlast : last' → last) :
    HeaderOwn last' p := by
  cases p with
  | sending call hdr i =>
    cases i with
    | zero => exact fun hnow => h (hlast hnow)
    | succ i => exact h
  | _ => exact h

theorem HeaderOwn.sending (h : HeaderOwn last (.sending call hdr i)) (hlast : last) :
    hdr = call.frame.header := by
  cases i with
  | zero => exact h hlast
  | succ i => exact h.1

theorem HeaderOwn.afterSend (h : HeaderOwn last (.sending call hdr i)) (hlast : last) :
    HeaderOwn last (SendSystem.afterSend call hdr i) := by
  unfold SendSystem.afterSend
  split_ifs with hflag
  · exact ⟨h.sending hlast, hflag⟩
  · trivial

theorem HeaderOwn.afterFetch {ack : BtSppDalinkAck} (h : HeaderOwn last (.fetching call hdr i)) :
    HeaderOwn last (SendSystem.afterFetch call hdr i ack) := by
  rw [SendSystem.afterFetch_eq]
  split_ifs
  · trivial
  · exact h

theorem HeaderOwn.afterTimeout (h : HeaderOwn last (.waiting call hdr i)) :
    HeaderOwn last (SendSystem.afterTimeout call hdr i) := by
  unfold SendSystem.afterTimeout
  split_ifs
  · cases i with
    | zero => exact fun _ => h.1
    | succ i => exact h
  · trivial

end HeaderOwn

/-! ### The account -/

/-- What the Bluetooth message thread is in a call for. -/
def BtStage.CallsFor : BtStage → Pc → Prop
  | .acking f _, p => f.dFlag = 1 ∧
      ∃ call, p.pending = some call ∧ p.awaited = none ∧ call.frame = f.ackFrame
  | .feedback _, p => ∀ call, p.pending = some call → call.frame.type ≠ btSppMessageDlHuAck
  | .waiting, p | .dealing _, p | .switching _ _, p | .posting _ _, p => p = .idle

/-- The ACKs transmitted are those due for the frames that came first, up to the one in
whose call the Bluetooth message thread is. -/
def Account (came : List RxFrame) (sent : List (List UInt8)) (queued : List RxFrame)
    (stage : BtStage) (p : Pc) : Prop :=
  ∃ answered, sent = acksDue answered ∧
    (came = answered ++ (stage.unanswered ++ queued) ∧ stage.CallsFor p ∨
      ∃ f rest call hdr ret, stage = .acking f rest ∧ p = .releasing call hdr ret ∧
        came = answered ++ (rest ++ queued))

/-- The account of the frames that came, and what it rests on. -/
structure Answers (came : List RxFrame) (s : SendSystem) : Prop where
  own : OwnFrames s
  headers : ∀ t, HeaderOwn (s.builder = some t) (s.pc t)
  others : ∀ t call, t ≠ .bt → (s.pc t).pending = some call →
    call.frame.type ≠ btSppMessageDlHuAck
  account : Account came s.sentAcks s.events.flatten s.bt (s.pc .bt)

theorem answers_start : Answers [] sendStart where
  own := ownFrames_start
  headers := fun _ => trivial
  others := fun _ _ _ hpending => nomatch hpending
  account := ⟨[], rfl, .inl ⟨rfl, rfl⟩⟩

/-! ### The calls of the Bluetooth message thread -/

theorem acksDue_concat (answered : List RxFrame) (f : RxFrame) :
    acksDue (answered ++ [f]) =
      acksDue answered ++ if f.dFlag = 1 then [f.ackFrame.bytes] else [] := by
  unfold acksDue
  split_ifs with hflag <;> simp [hflag]

section Account

variable {came queued : List RxFrame} {sent : List (List UInt8)} {stage : BtStage} {p p' : Pc}
  {call : Call} {hdr : Header} {i : ℕ}

/-- A call that has transmitted is no ACK, and stays the same call. -/
theorem Account.move (h : Account came sent queued stage p) (hawaited : p.awaited ≠ none)
    (hpending : ∀ call, p'.pending = some call → p.pending = some call) :
    Account came sent queued stage p' := by
  obtain ⟨answered, hsent, ⟨hcame, hcalls⟩ | ⟨f, rest, call, hdr, ret, -, rfl, -⟩⟩ := h
  · refine ⟨answered, hsent, .inl ⟨hcame, ?_⟩⟩
    cases stage with
    | acking f rest =>
      obtain ⟨-, call, -, hnone, -⟩ := hcalls
      exact absurd hnone hawaited
    | feedback rest => exact fun call hcall => hcalls call (hpending call hcall)
    | _ =>
      obtain rfl : p = .idle := hcalls
      exact absurd rfl hawaited
  · exact absurd rfl hawaited

theorem Account.lock (h : Account came sent queued stage (.created call)) :
    Account came sent queued stage (.sending call hdr 0) := by
  obtain ⟨answered, hsent, ⟨hcame, hcalls⟩ | ⟨f, rest, call, hdr, ret, -, hp, -⟩⟩ := h
  · refine ⟨answered, hsent, .inl ⟨hcame, ?_⟩⟩
    cases stage with
    | acking f rest => exact hcalls
    | feedback rest => exact hcalls
    | _ => cases hcalls
  · cases hp

/-- The ACK goes out, and is on the account; or it is no ACK that goes out. -/
theorem Account.transmit (h : Account came sent queued stage (.sending call hdr i))
    (hheader : hdr = call.frame.header) :
    Account came
      (sent ++ if call.frame.type = btSppMessageDlHuAck then [call.frame.bytes] else []) queued
      stage (SendSystem.afterSend call hdr i) := by
  obtain ⟨answered, rfl, ⟨hcame, hcalls⟩ | ⟨f, rest, call, hdr, ret, -, hp, -⟩⟩ := h
  · cases stage with
    | acking f rest =>
      obtain ⟨hflag, call', hpending, -, hframe⟩ := hcalls
      obtain rfl := Option.some.inj hpending
      have hnoAck : ¬ hdr.dFlag = dFlagNeedAck := by
        rw [hheader, hframe]
        exact (show ¬ dFlagNoNeedAck = dFlagNeedAck by decide)
      have htype : call.frame.type = btSppMessageDlHuAck := by
        rw [hframe]
        rfl
      refine ⟨answered ++ [f], ?_, .inr ⟨f, rest, call, hdr, 0, rfl, if_neg hnoAck, ?_⟩⟩
      · rw [acksDue_concat, if_pos hflag, if_pos htype, hframe]
      · rw [hcame]
        simp [BtStage.unanswered]
    | feedback rest =>
      refine ⟨answered, ?_, .inl ⟨hcame, fun call' hcall' => ?_⟩⟩
      · rw [if_neg (hcalls call rfl), List.append_nil]
      · rw [← pending_afterSend hcall']
        exact hcalls call rfl
    | _ => cases hcalls
  · cases hp

theorem Account.release {ret : ℤ} (h : Account came sent queued stage (.releasing call hdr ret)) :
    Account came sent queued stage.resume .idle := by
  obtain ⟨answered, hsent, ⟨hcame, hcalls⟩ | ⟨f, rest, call, hdr, ret, rfl, -, hcame⟩⟩ := h
  · refine ⟨answered, hsent, .inl ?_⟩
    cases stage with
    | acking f rest =>
      obtain ⟨-, call', hpending, -⟩ := hcalls
      cases hpending
    | feedback rest => exact ⟨hcame, rfl⟩
    | _ => cases hcalls
  · exact ⟨answered, hsent, .inl ⟨hcame, rfl⟩⟩

/-- A stage without a call goes on to another with the same frames to answer. -/
theorem Account.goOn {stage' : BtStage} {queued' : List RxFrame}
    (h : Account came sent queued stage .idle)
    (hframes : stage'.unanswered ++ queued' = stage.unanswered ++ queued)
    (hcalls : stage'.CallsFor p') : Account came sent queued' stage' p' := by
  obtain ⟨answered, hsent, ⟨hcame, -⟩ | ⟨f, rest, call, hdr, ret, -, hp, -⟩⟩ := h
  · exact ⟨answered, hsent, .inl ⟨hcame.trans (congrArg (answered ++ ·) hframes.symm), hcalls⟩⟩
  · cases hp

/-- A frame without the D flag is answered by passing over it. -/
theorem Account.pass {f : RxFrame} {rest : List RxFrame}
    (h : Account came sent queued (.dealing (f :: rest)) .idle) (hflag : f.dFlag ≠ 1) :
    Account came sent queued (.switching f rest) .idle := by
  obtain ⟨answered, hsent, ⟨hcame, -⟩ | ⟨f, rest, call, hdr, ret, -, hp, -⟩⟩ := h
  · refine ⟨answered ++ [f], ?_, .inl ⟨?_, rfl⟩⟩
    · rw [acksDue_concat, if_neg hflag, List.append_nil, hsent]
    · rw [hcame]
      simp [BtStage.unanswered]
  · cases hp

end Account

/-! ### Steps -/

section Answers

variable {came : List RxFrame} {s s' : SendSystem} {a : SendAction} {t : Thread} {p : Pc}

/-- A thread moves on in its call without a transmission. -/
theorem Answers.move (h : Answers came s) (hown : OwnFrames s')
    (hpc : s'.pc = Function.update s.pc t p) (hbuilder : s'.builder = s.builder)
    (hsent : s'.transmitted = s.transmitted) (hevents : s'.events = s.events)
    (hbt : t ≠ .bt → s'.bt = s.bt) (hheader : HeaderOwn (s.builder = some t) p)
    (hpending : ∀ call, p.pending = some call → (s.pc t).pending = some call)
    (haccount : t = .bt → Account came s.sentAcks s.events.flatten s'.bt p) : Answers came s' where
  own := hown
  headers := by
    rw [hpc, hbuilder]
    exact (Function.forall_update_iff s.pc fun u p => HeaderOwn (s.builder = some u) p).mpr
      ⟨hheader, fun u _ => h.headers u⟩
  others := by
    intro u call hu hcall
    rw [hpc] at hcall
    by_cases hut : u = t
    · subst hut
      rw [Function.update_self] at hcall
      exact h.others u call hu (hpending call hcall)
    · rw [Function.update_of_ne hut] at hcall
      exact h.others u call hu hcall
  account := by
    rw [SendSystem.sentAcks, hsent, hevents, hpc]
    by_cases hut : t = .bt
    · subst hut
      rw [Function.update_self]
      exact haccount rfl
    · rw [Function.update_of_ne (Ne.symm hut), hbt hut]
      exact h.account

/-- A create step makes every other thread's frame an overwritten one. -/
theorem Answers.build {r : Request} {stage : BtStage} (h : Answers came s)
    (hbuild : s.build t r = some s')
    (hothers : t ≠ .bt → (r.frame s.tranID).type ≠ btSppMessageDlHuAck)
    (hbt : t ≠ .bt → stage = s.bt)
    (haccount : t = .bt → Account came s.sentAcks s.events.flatten stage
      (.created (.ofRequest r s.tranID s.dalinkSppSendBuf))) :
    Answers came { s' with bt := stage } := by
  have hown := h.own.build hbuild
  obtain ⟨-, rfl⟩ := SendSystem.build_eq_some hbuild
  refine ⟨⟨hown.built, hown.transmitted⟩, ?_, fun u call hu hcall => ?_, ?_⟩
  · refine (Function.forall_update_iff s.pc fun u p => HeaderOwn (some t = some u) p).mpr
      ⟨trivial, fun u hut => ?_⟩
    exact (h.headers u).mono fun hlast => absurd (Option.some.inj hlast).symm hut
  · dsimp only at hcall
    by_cases hut : u = t
    · subst hut
      rw [Function.update_self] at hcall
      obtain rfl := Option.some.inj hcall
      exact hothers hu
    · rw [Function.update_of_ne hut] at hcall
      exact h.others u call hu hcall
  · dsimp only
    by_cases hut : t = .bt
    · subst hut
      rw [Function.update_self]
      exact haccount rfl
    · rw [Function.update_of_ne (Ne.symm hut), hbt hut]
      exact h.account

/-- The Bluetooth message thread goes on outside a call. -/
theorem Answers.goOn {stage : BtStage} {events : List (List RxFrame)}
    {acks : SemQueue BtSppDalinkAck BtSppDalinkAck} {received : Thread → Bool}
    (h : Answers came s)
    (haccount : Account came s.sentAcks events.flatten stage (s.pc .bt)) :
    Answers came { s with bt := stage, events := events, acks := acks, received := received } where
  own := ⟨h.own.built, h.own.transmitted⟩
  headers := h.headers
  others := h.others
  account := haccount

/-- Outside a call the Bluetooth message thread is idle. -/
theorem Answers.idle (h : Answers came s)
    (hcalls : s.bt.CallsFor (s.pc .bt) → s.pc .bt = .idle) (hbt : ∀ f rest, s.bt ≠ .acking f rest) :
    s.pc .bt = .idle := by
  obtain ⟨answered, -, ⟨-, hfor⟩ | ⟨f, rest, call, hdr, ret, hacking, -⟩⟩ := h.account
  · exact hcalls hfor
  · exact absurd hacking (hbt f rest)

/-- The `switch` and the loop of the receiver, with the guard on the D flag. -/
theorem step_dalinkSppPacketDeal_flag (h : s.step .dalinkSppPacketDeal = some s') :
    (s.bt = .dealing [] ∧ s' = { s with bt := .waiting }) ∨
    (∃ f rest u, s.bt = .dealing (f :: rest) ∧ f.dFlag = 1 ∧
      s.build .bt (.ack f.tranId f.cmd) = some u ∧ s' = { u with bt := .acking f rest }) ∨
    ∃ f rest, s.bt = .dealing (f :: rest) ∧ f.dFlag ≠ 1 ∧
      s' = { s with bt := .switching f rest } := by
  simp only [SendSystem.step] at h
  split at h
  · exact .inl ⟨‹_›, (Option.some.inj h).symm⟩
  · split_ifs at h with hflag
    · obtain ⟨u, hu, rfl⟩ := Option.map_eq_some_iff.mp h
      exact .inr (.inl ⟨_, _, u, ‹_›, hflag, hu, rfl⟩)
    · exact .inr (.inr ⟨_, _, ‹_›, hflag, (Option.some.inj h).symm⟩)
  · cases h

/-- A transmission adds its call's frame, which is the Bluetooth message thread's if it is
an ACK. -/
theorem Answers.transmit {call : Call} {hdr : Header} {i : ℕ} (h : Answers came s)
    (hown : OwnFrames s') (hlast : s.builder = some t) (hpc : s.pc t = .sending call hdr i)
    (hsent : s'.transmitted = s.transmitted ++
      [(call.frame.bytes, s.dalinkSppSendBuf.read 0 call.cDataLen.toNat)])
    (hpc' : s'.pc = Function.update s.pc t (SendSystem.afterSend call hdr i))
    (hbuilder : s'.builder = s.builder) (hevents : s'.events = s.events) (hbt : s'.bt = s.bt) :
    Answers came s' := by
  have hheader := h.headers t
  rw [hpc] at hheader
  have hpending : (s.pc t).pending = some call := by rw [hpc]; rfl
  -- what goes out is the call's own frame
  have hread : s.dalinkSppSendBuf.read 0 call.cDataLen.toNat = call.frame.bytes :=
    hown.transmitted (call.frame.bytes, s.dalinkSppSendBuf.read 0 call.cDataLen.toNat)
      (by rw [hsent]; simp)
  have hacks : s'.sentAcks = s.sentAcks ++
      if call.frame.type = btSppMessageDlHuAck then [call.frame.bytes] else [] := by
    rw [SendSystem.sentAcks, hsent, hread, List.map_append, List.filter_append]
    simp [SendSystem.sentAcks, List.filter_cons, Frame.isAck_bytes_iff]
  refine ⟨hown, ?_, fun u call' hu hcall => ?_, ?_⟩
  · rw [hpc', hbuilder]
    exact (Function.forall_update_iff s.pc fun u p => HeaderOwn (s.builder = some u) p).mpr
      ⟨hheader.afterSend hlast, fun u _ => h.headers u⟩
  · rw [hpc'] at hcall
    by_cases hut : u = t
    · subst hut
      rw [Function.update_self] at hcall
      exact h.others u call' hu (pending_afterSend hcall ▸ hpending)
    · rw [Function.update_of_ne hut] at hcall
      exact h.others u call' hu hcall
  · rw [hacks, hevents, hbt, hpc']
    by_cases hut : t = .bt
    · subst hut
      have haccount := h.account
      rw [hpc] at haccount
      rw [Function.update_self]
      exact haccount.transmit (hheader.sending hlast)
    · rw [Function.update_of_ne (Ne.symm hut), if_neg (h.others t call hut hpending),
        List.append_nil]
      exact h.account

theorem Answers.step (h : Answers came s) (hcond : noCreateSince s a ∧ otherRequests s a)
    (hstep : s.step a = some s') : Answers (came ++ a.brings) s' := by
  have hown : OwnFrames s' := h.own.step hcond.1 hstep
  cases a with
  | create t r =>
    have hne : t ≠ .bt := by
      rintro rfl
      cases hstep
    have hbuild := SendSystem.step_create hstep
    have hbt : s'.bt = s.bt := by
      obtain ⟨-, rfl⟩ := SendSystem.build_eq_some hbuild
      rfl
    have hbuilt : Answers came { s' with bt := s.bt } :=
      h.build hbuild (fun _ => type_frame_ne_ack s.tranID hcond.2) (fun _ => rfl)
        (fun hut => absurd hut hne)
    rw [← hbt] at hbuilt
    simpa [SendAction.brings] using hbuilt
  | lock t =>
    simp only [SendAction.brings, List.append_nil]
    obtain ⟨call, hpc, -, rfl⟩ := SendSystem.step_lock hstep
    have hpending : (s.pc t).pending = some call := by rw [hpc]; rfl
    refine h.move hown rfl rfl rfl rfl (fun _ => rfl) (fun hlast => ?_) (fun _ hp => hpc ▸ hp) ?_
    · -- nobody has built a frame since: the header read back is the call's own
      exact readHeader_of_holds (h.own.built t call hlast hpending)
    · rintro rfl
      have haccount := h.account
      rw [hpc] at haccount
      exact haccount.lock
  | sendSppData t =>
    simp only [SendAction.brings, List.append_nil]
    obtain ⟨call, hdr, i, hpc, rfl⟩ := SendSystem.step_sendSppData hstep
    exact h.transmit hown hcond.1 hpc rfl rfl rfl rfl rfl
  | waitDalinkAckResponse t =>
    simp only [SendAction.brings, List.append_nil]
    obtain ⟨call, hdr, i, q, hpc, -, rfl⟩ := SendSystem.step_waitDalinkAckResponse hstep
    have hheader := h.headers t
    rw [hpc] at hheader
    refine h.move hown rfl rfl rfl rfl (fun _ => rfl) hheader (fun _ hp => hpc ▸ hp) ?_
    rintro rfl
    exact h.account.move (by rw [hpc]; exact nofun) fun _ hp => hpc ▸ hp
  | getDalinkAckData t =>
    simp only [SendAction.brings, List.append_nil]
    obtain ⟨call, hdr, i, q, hpc, -, rfl⟩ := SendSystem.step_getDalinkAckData hstep
    have hheader := h.headers t
    rw [hpc] at hheader
    have hpending : (s.pc t).pending = some call := by rw [hpc]; rfl
    refine h.move hown rfl rfl rfl rfl (fun _ => rfl) hheader.afterFetch
      (fun _ hp => pending_afterFetch hp ▸ hpending) ?_
    rintro rfl
    exact h.account.move (by rw [hpc]; exact nofun) fun _ hp => pending_afterFetch hp ▸ hpending
  | timeout t =>
    simp only [SendAction.brings, List.append_nil]
    obtain ⟨call, hdr, i, hpc, -, rfl⟩ := SendSystem.step_timeout hstep
    have hheader := h.headers t
    rw [hpc] at hheader
    have hpending : (s.pc t).pending = some call := by rw [hpc]; rfl
    refine h.move hown rfl rfl rfl rfl (fun _ => rfl) hheader.afterTimeout
      (fun _ hp => pending_afterTimeout hp ▸ hpending) ?_
    rintro rfl
    exact h.account.move (by rw [hpc]; exact nofun) fun _ hp => pending_afterTimeout hp ▸ hpending
  | release t =>
    simp only [SendAction.brings, List.append_nil]
    obtain ⟨call, hdr, ret, hpc, rfl⟩ := SendSystem.step_release hstep
    refine h.move hown rfl rfl rfl rfl (fun hne => if_neg hne) trivial (fun _ hp => (nomatch hp)) ?_
    rintro rfl
    have haccount := h.account
    rw [hpc] at haccount
    exact haccount.release
  | bluetoothSppDataProc event =>
    obtain rfl := Option.some.inj hstep
    refine ⟨hown, h.headers, h.others, ?_⟩
    -- the frames of the event are the last to answer
    obtain ⟨answered, hsent, ⟨hcame, hcalls⟩ | ⟨f, rest, call, hdr, ret, hbt, hp, hcame⟩⟩ :=
      h.account
    · refine ⟨answered, hsent, .inl ⟨?_, hcalls⟩⟩
      simp [hcame, SendAction.brings]
    · refine ⟨answered, hsent, .inr ⟨f, rest, call, hdr, ret, hbt, hp, ?_⟩⟩
      simp [hcame, SendAction.brings]
  | waitBtCommand =>
    simp only [SendAction.brings, List.append_nil]
    obtain ⟨event, events, hbt, hevents, rfl⟩ := SendSystem.step_waitBtCommand hstep
    have hidle : s.pc .bt = .idle := h.idle (by rw [hbt]; exact id) (by rw [hbt]; exact nofun)
    have haccount := h.account
    rw [hbt, hidle] at haccount
    refine h.goOn (haccount.goOn ?_ hidle)
    simp [BtStage.unanswered, hevents]
  | dalinkSppPacketDeal =>
    simp only [SendAction.brings, List.append_nil]
    obtain ⟨hbt, rfl⟩ | ⟨f, rest, u, hbt, hflag, hu, rfl⟩ | ⟨f, rest, hbt, hflag, rfl⟩ :=
      step_dalinkSppPacketDeal_flag hstep
    all_goals
      have hidle : s.pc .bt = .idle := h.idle (by rw [hbt]; exact id) (by rw [hbt]; exact nofun)
      have haccount := h.account
      rw [hbt, hidle] at haccount
    · exact h.goOn (haccount.goOn rfl hidle)
    · refine h.build hu (fun hne => absurd rfl hne) (fun hne => absurd rfl hne) fun _ => ?_
      exact haccount.goOn rfl ⟨hflag, _, rfl, rfl, frame_ack f s.tranID⟩
    · refine h.goOn ?_
      rw [hidle]
      exact haccount.pass hflag
  | dispatchCommand =>
    simp only [SendAction.brings, List.append_nil]
    obtain ⟨f, rest, q, hbt, -, hq, rfl⟩ | ⟨f, rest, u, hbt, -, hu, rfl⟩ |
      ⟨f, rest, hbt, -, rfl⟩ := SendSystem.step_dispatchCommand hstep
    all_goals
      have hidle : s.pc .bt = .idle := h.idle (by rw [hbt]; exact id) (by rw [hbt]; exact nofun)
      have haccount := h.account
      rw [hbt, hidle] at haccount
    · exact h.goOn (haccount.goOn rfl hidle)
    · refine h.build hu (fun hne => absurd rfl hne) (fun hne => absurd rfl hne) fun _ => ?_
      refine haccount.goOn rfl fun call hcall => ?_
      obtain rfl := Option.some.inj hcall
      exact (show btSppMessageHuDlSiri ≠ btSppMessageDlHuAck by decide)
    · exact h.goOn (haccount.goOn rfl hidle)
  | semPost =>
    simp only [SendAction.brings, List.append_nil]
    obtain ⟨f, rest, q, hbt, hq, rfl⟩ := SendSystem.step_semPost hstep
    have hidle : s.pc .bt = .idle := h.idle (by rw [hbt]; exact id) (by rw [hbt]; exact nofun)
    have haccount := h.account
    rw [hbt, hidle] at haccount
    exact h.goOn (haccount.goOn rfl hidle)

end Answers

/-- **Received frames are answered once.** In every run in which each transmission finds
its own frame in the buffer, the ACKs transmitted are, in order, those due for the frames
that came: for all but the ones still to be acknowledged, or for one more, whose ACK is
out while its call has yet to return. -/
theorem frames_answered_once {s : SendSystem} {acts : List SendAction}
    (hrun : exec SendSystem.step sendStart acts = some s)
    (hown : Meets SendSystem.step noCreateSince sendStart acts)
    (hothers : Meets SendSystem.step otherRequests sendStart acts) :
    ∃ answered rest, arrived acts = answered ++ rest ∧ s.sentAcks = acksDue answered ∧
      (rest = s.unanswered ∨ ∃ f, s.unanswered = f :: rest) := by
  have hanswers : Answers (arrived ([] ++ acts)) s := by
    refine exec_history_of_meets (fun past s => Answers (arrived past) s) ?_ answers_start
      (hown.and hothers) hrun
    intro past s a s' h hcond hstep
    rw [arrived, List.flatMap_append, List.flatMap_singleton]
    exact h.step hcond hstep
  obtain ⟨answered, hsent, ⟨hcame, -⟩ | ⟨f, rest, call, hdr, ret, hbt, -, hcame⟩⟩ :=
    hanswers.account
  · exact ⟨answered, s.unanswered, hcame, hsent, .inl rfl⟩
  · refine ⟨answered, rest ++ s.events.flatten, hcame, hsent, .inr ⟨f, ?_⟩⟩
    rw [SendSystem.unanswered, hbt]
    rfl

/-- A heartbeat and a SIRI command, both with the D flag, while the HMI thread waits for an
ACK of its own. -/
def answersBetweenSends : List SendAction :=
  [.create .hmi (.parkinfo 1), .lock .hmi, .sendSppData .hmi, .timeout .hmi,
    .bluetoothSppDataProc [⟨btSppMessageDlHuHeartbeat, 1, 7, 0, 0⟩,
      ⟨btSppMessageDlHuSiri, 1, 0x0108, 0, 0⟩],
    .sendSppData .hmi, .timeout .hmi, .sendSppData .hmi, .timeout .hmi, .release .hmi,
    .waitBtCommand, .dalinkSppPacketDeal, .lock .bt, .sendSppData .bt, .release .bt,
    .dispatchCommand, .dalinkSppPacketDeal, .lock .bt, .sendSppData .bt]

theorem frames_answered_once_between_sends :
    let s := (exec SendSystem.step sendStart answersBetweenSends).get (by decide)
    ∃ answered rest, arrived answersBetweenSends = answered ++ rest ∧
      s.sentAcks = acksDue answered ∧
      (rest = s.unanswered ∨ ∃ f, s.unanswered = f :: rest) :=
  frames_answered_once (Option.some_get _).symm (by decide) (by decide)

end PhoneLink
