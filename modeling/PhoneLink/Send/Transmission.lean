import PhoneLink.Send.System

/-!
# What a transmission carries

Every send builds its frame in the same buffer before it takes the mutex, and
transmits the buffer each time it is its turn. What goes out on behalf of a call is
therefore the frame of whoever built last.

## Main results

* `transmitted_own_frame`: along every run in which each transmission finds the last
  create step to be the call's own, every transmission carries the bytes that this
  step encoded
-/

namespace PhoneLink

open CS CS.Transition

/-- Each transmission finds the last create step of all threads to be its own: no
other thread has built a frame since. -/
def noCreateSince (s : SendSystem) : SendAction → Prop
  | .sendSppData t => s.builder = some t
  | _ => True

instance : ∀ (s : SendSystem) (a : SendAction), Decidable (noCreateSince s a)
  | _, .sendSppData _ => inferInstanceAs (Decidable (_ = _))
  | _, .create _ _ | _, .lock _ | _, .waitDalinkAckResponse _ | _, .getDalinkAckData _
  | _, .timeout _ | _, .release _ | _, .bluetoothSppDataProc _ | _, .waitBtCommand
  | _, .dalinkSppPacketDeal | _, .dispatchCommand | _, .semPost => isTrue trivial

/-! ### The frame of the last builder -/

/-- If the thread that built last may still transmit, the buffer holds its frame. -/
def Built (builder : Option Thread) (buf : Memory) (pc : Thread → Pc) : Prop :=
  ∀ t call, builder = some t → (pc t).pending = some call → buf.Holds 0 call.frame.bytes

variable {builder : Option Thread} {buf : Memory} {pc : Thread → Pc} {t : Thread} {p : Pc}

/-- A create step writes its frame. -/
theorem built_create (r : Request) (tranID : UInt16) :
    Built (some t) (r.create tranID buf).desbuf
      (Function.update pc t (.created (.ofRequest r tranID buf))) := by
  intro u call hbuilder hpending
  obtain rfl := Option.some.inj hbuilder
  rw [Function.update_self] at hpending
  obtain rfl := Option.some.inj hpending
  rw [(r.create_eq tranID buf).2]
  exact Memory.holds_overlay _ _

/-- A step of a thread that leaves it with the same call, or with none. -/
theorem Built.update (h : Built builder buf pc)
    (hp : ∀ call, p.pending = some call → (pc t).pending = some call) :
    Built builder buf (Function.update pc t p) := by
  intro u call hbuilder hpending
  -- the thread that moved, or one whose place is unchanged
  by_cases hu : u = t
  · subst hu
    rw [Function.update_self] at hpending
    exact h u call hbuilder (hp call hpending)
  · rw [Function.update_of_ne hu] at hpending
    exact h u call hbuilder hpending

theorem pending_afterSend {call call' : Call} {hdr : Header} {i : ℕ}
    (h : (SendSystem.afterSend call hdr i).pending = some call') : call = call' := by
  unfold SendSystem.afterSend at h
  split_ifs at h
  · exact Option.some.inj h
  · cases h

theorem pending_afterFetch {call call' : Call} {hdr : Header} {i : ℕ} {ack : BtSppDalinkAck}
    (h : (SendSystem.afterFetch call hdr i ack).pending = some call') : call = call' := by
  unfold SendSystem.afterFetch at h
  split_ifs at h
  · exact Option.some.inj h
  · exact Option.some.inj h
  · cases h

theorem pending_afterTimeout {call call' : Call} {hdr : Header} {i : ℕ}
    (h : (SendSystem.afterTimeout call hdr i).pending = some call') : call = call' := by
  unfold SendSystem.afterTimeout at h
  split_ifs at h
  · exact Option.some.inj h
  · cases h

/-! ### Runs -/

/-- The buffer holds the last builder's frame, and every transmission so far carried
the call's own frame. -/
structure OwnFrames (s : SendSystem) : Prop where
  built : Built s.builder s.dalinkSppSendBuf s.pc
  transmitted : ∀ sent ∈ s.transmitted, sent.2 = sent.1

theorem ownFrames_start : OwnFrames sendStart where
  built := fun _ _ hbuilder _ => nomatch hbuilder
  transmitted := fun _ hsent => nomatch hsent

theorem OwnFrames.build {s s' : SendSystem} {r : Request} (h : OwnFrames s)
    (hbuild : s.build t r = some s') : OwnFrames s' := by
  obtain ⟨-, rfl⟩ := SendSystem.build_eq_some hbuild
  exact ⟨built_create r s.tranID, h.transmitted⟩

theorem OwnFrames.step {s s' : SendSystem} {a : SendAction} (h : OwnFrames s)
    (hcond : noCreateSince s a) (hstep : s.step a = some s') : OwnFrames s' := by
  cases a with
  | create t r => exact h.build (SendSystem.step_create hstep)
  | lock t =>
    -- the buffer may have been overwritten meanwhile: then `t` is not the last builder
    obtain ⟨call, hpc, -, rfl⟩ := SendSystem.step_lock hstep
    exact ⟨h.built.update fun _ hp => hpc ▸ hp, h.transmitted⟩
  | sendSppData t =>
    obtain ⟨call, hdr, i, hpc, rfl⟩ := SendSystem.step_sendSppData hstep
    have hpending : (s.pc t).pending = some call := by rw [hpc]; rfl
    refine ⟨h.built.update fun _ hp => pending_afterSend hp ▸ hpending, fun sent hsent => ?_⟩
    rcases List.mem_append.mp hsent with hold | hnew
    · exact h.transmitted sent hold
    · -- the buffer holds the call's frame, and its length is what is transmitted
      obtain rfl := List.mem_singleton.mp hnew
      have hholds := h.built t call hcond hpending
      dsimp only
      rw [call.cDataLen_eq, hholds.read_eq]
  | waitDalinkAckResponse t =>
    obtain ⟨call, hdr, i, q, hpc, -, rfl⟩ := SendSystem.step_waitDalinkAckResponse hstep
    exact ⟨h.built.update fun _ hp => hpc ▸ hp, h.transmitted⟩
  | getDalinkAckData t =>
    obtain ⟨call, hdr, i, q, hpc, -, rfl⟩ := SendSystem.step_getDalinkAckData hstep
    have hpending : (s.pc t).pending = some call := by rw [hpc]; rfl
    exact ⟨h.built.update fun _ hp => pending_afterFetch hp ▸ hpending, h.transmitted⟩
  | timeout t =>
    obtain ⟨call, hdr, i, hpc, -, rfl⟩ := SendSystem.step_timeout hstep
    have hpending : (s.pc t).pending = some call := by rw [hpc]; rfl
    exact ⟨h.built.update fun _ hp => pending_afterTimeout hp ▸ hpending, h.transmitted⟩
  | release t =>
    obtain ⟨call, hdr, ret, hpc, rfl⟩ := SendSystem.step_release hstep
    exact ⟨h.built.update fun _ hp => (nomatch hp), h.transmitted⟩
  | bluetoothSppDataProc event =>
    obtain rfl := Option.some.inj hstep
    exact ⟨h.built, h.transmitted⟩
  | waitBtCommand =>
    obtain ⟨event, events, -, -, rfl⟩ := SendSystem.step_waitBtCommand hstep
    exact ⟨h.built, h.transmitted⟩
  | dalinkSppPacketDeal =>
    obtain ⟨-, rfl⟩ | ⟨f, rest, u, -, hu, rfl⟩ | ⟨f, rest, -, rfl⟩ :=
      SendSystem.step_dalinkSppPacketDeal hstep
    · exact ⟨h.built, h.transmitted⟩
    · exact ⟨(h.build hu).built, (h.build hu).transmitted⟩
    · exact ⟨h.built, h.transmitted⟩
  | dispatchCommand =>
    obtain ⟨f, rest, q, -, -, -, rfl⟩ | ⟨f, rest, u, -, -, hu, rfl⟩ | ⟨f, rest, -, -, rfl⟩ :=
      SendSystem.step_dispatchCommand hstep
    · exact ⟨h.built, h.transmitted⟩
    · exact ⟨(h.build hu).built, (h.build hu).transmitted⟩
    · exact ⟨h.built, h.transmitted⟩
  | semPost =>
    obtain ⟨f, rest, q, -, -, rfl⟩ := SendSystem.step_semPost hstep
    exact ⟨h.built, h.transmitted⟩

/-- **A transmission carries its own frame** along every run in which no other thread
builds a frame between a call's create step and a transmission of the call: each
`sendSppData`, first or repeated, transmits the bytes that the call's create step
encoded. -/
theorem transmitted_own_frame {s : SendSystem} {acts : List SendAction}
    (hrun : exec SendSystem.step sendStart acts = some s)
    (hcond : Meets SendSystem.step noCreateSince sendStart acts) :
    ∀ sent ∈ s.transmitted, sent.2 = sent.1 := by
  have hown : OwnFrames s :=
    exec_invariant_of_meets OwnFrames (fun _ _ _ h hc hstep => h.step hc hstep)
      ownFrames_start hcond hrun
  exact hown.transmitted

/-- The HMI thread asks for the phone's state, is not answered in time and transmits
again. -/
def requestWithRetry : List SendAction :=
  [.create .hmi (.requestPhonestate 2), .lock .hmi, .sendSppData .hmi, .timeout .hmi,
    .sendSppData .hmi]

theorem transmitted_own_frame_retry :
    let s := (exec SendSystem.step sendStart requestWithRetry).get (by decide)
    ∀ sent ∈ s.transmitted, sent.2 = sent.1 :=
  transmitted_own_frame (Option.some_get _).symm (by decide)

/-- The touch thread builds its frame between the create step and the transmission of
the HMI thread: the HMI thread transmits eleven bytes of the touch frame. -/
theorem touch_frame_replaces_request :
    (exec SendSystem.step sendStart
        [.create .hmi (.requestPhonestate 2), .create .touch (.touchscreen 0 0 1 0), .lock .hmi,
          .sendSppData .hmi]).map SendSystem.transmitted =
      some [([0x44, 0x4C, 0x38, 0x01, 0x00, 0x00, 0x01, 0x02, 0x32, 0x0D, 0x0A],
        [0x44, 0x4C, 0xA0, 0x00, 0x00, 0x01, 0x06, 0x00, 0x00, 0x00, 0x00])] := by
  decide

end PhoneLink
