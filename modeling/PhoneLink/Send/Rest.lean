import PhoneLink.CS.Rest
import PhoneLink.Send.Acknowledged

/-!
# The sending threads come to rest

What the threads do is brought about from outside: a message of the HMI, a touch or the
timer makes a thread build a frame, and the phone's frames arrive in events. Whatever
else they do they do by themselves, and that ends: a call transmits three times at most,
an ACK is fetched once, and every frame of an event is dealt with once. The only
semaphore waits without a time limit are those for a new event, and the mutex is always
given back.

## Main definitions

* `SendAction.Own`: the steps that are neither a call from outside nor an event
* `SendSystem.AtRest`: no call is under way and no event is left
* `SendSystem.work`: an upper bound for the own steps

## Main results

* `work_lowers`: every own step lowers the work left
* `Coherent.step`: each lock, wait and post is in the hands of the thread that is there
* `sends_come_to_rest`: own steps end, and where they end the system is at rest
-/

namespace PhoneLink

open CS CS.Transition

/-- The step is neither a call from outside nor the arrival of an event. -/
def SendAction.Own : SendAction → Prop
  | .create _ _ | .bluetoothSppDataProc _ => False
  | .lock _ | .sendSppData _ | .waitDalinkAckResponse _ | .getDalinkAckData _ | .timeout _
  | .release _ | .waitBtCommand | .dalinkSppPacketDeal | .dispatchCommand | .semPost => True

/-- Every call has returned and every event has been dealt with. -/
structure SendSystem.AtRest (s : SendSystem) : Prop where
  idle : ∀ t, s.pc t = .idle
  unlocked : s.sppSendProctectMutex = none
  waiting : s.bt = .waiting
  events : s.events = []

/-! ### The work left -/

/-- The own steps of a call, each fetched ACK apart. -/
def Pc.work : Pc → ℕ
  | .idle => 0
  | .created _ => 8
  | .sending _ _ i => 2 * (2 - i) + 3
  | .waiting _ _ i => 2 * (3 - i) + 2
  | .fetching _ _ i => 2 * (3 - i) + 3
  | .releasing _ _ _ => 1

/-- The own steps for so many frames: each may be acknowledged and answered. -/
def framesWork (frames : List RxFrame) : ℕ := 20 * frames.length + 1

def BtStage.work : BtStage → ℕ
  | .waiting => 0
  | .dealing rest => framesWork rest
  | .acking _ rest => framesWork rest + 11
  | .switching _ rest => framesWork rest + 10
  | .posting _ rest => framesWork rest + 3
  | .feedback rest => framesWork rest + 1

def callsWork (pc : Thread → Pc) : ℕ :=
  (pc .hmi).work + (pc .touch).work + (pc .bt).work + (pc .main).work

def eventsWork (events : List (List RxFrame)) : ℕ :=
  (events.map fun event => framesWork event + 1).sum

/-- An ACK posted costs a wait and a fetch. -/
def SendSystem.work (s : SendSystem) : ℕ :=
  callsWork s.pc + s.bt.work + eventsWork s.events + 2 * s.acks.sem

section Work

variable {pc : Thread → Pc} {t : Thread} {p : Pc}

/-- A step of one thread changes the work of its call only. -/
theorem callsWork_update :
    callsWork (Function.update pc t p) + (pc t).work = callsWork pc + p.work := by
  unfold callsWork
  cases t <;> simp [Function.update] <;> omega

theorem work_afterSend_lt (call : Call) (hdr : Header) (i : ℕ) :
    (SendSystem.afterSend call hdr i).work < (Pc.sending call hdr i).work := by
  unfold SendSystem.afterSend
  split_ifs <;> simp only [Pc.work] <;> omega

theorem work_afterFetch_lt (call : Call) (hdr : Header) (i : ℕ) (ack : BtSppDalinkAck) :
    (SendSystem.afterFetch call hdr i ack).work < (Pc.fetching call hdr i).work := by
  rw [SendSystem.afterFetch_eq]
  split_ifs <;> simp only [Pc.work] <;> omega

theorem work_afterTimeout_lt (call : Call) (hdr : Header) (i : ℕ) :
    (SendSystem.afterTimeout call hdr i).work < (Pc.waiting call hdr i).work := by
  unfold SendSystem.afterTimeout
  split_ifs <;> simp only [Pc.work] <;> omega

theorem work_resume_le (stage : BtStage) : stage.resume.work ≤ stage.work := by
  cases stage <;> simp only [BtStage.resume, BtStage.work] <;> omega

end Work

variable {s s' : SendSystem} {a : SendAction} {t : Thread}

/-- The create step of the Bluetooth message thread adds the work of one call. -/
theorem work_build {r : Request} (h : s.build t r = some s') :
    callsWork s'.pc = callsWork s.pc + 8 ∧ s'.bt = s.bt ∧ s'.events = s.events ∧
      s'.acks = s.acks := by
  obtain ⟨hidle, rfl⟩ := SendSystem.build_eq_some h
  have hcalls := @callsWork_update s.pc t (.created (.ofRequest r s.tranID s.dalinkSppSendBuf))
  rw [hidle] at hcalls
  exact ⟨hcalls, rfl, rfl, rfl⟩

/-- **Every own step lowers the work left.** -/
theorem work_lowers : Lowers SendSystem.step SendAction.Own SendSystem.work := by
  intro s a s' hown hstep
  cases a with
  | create t r | bluetoothSppDataProc event => exact hown.elim
  | lock t =>
    obtain ⟨call, hpc, -, rfl⟩ := SendSystem.step_lock hstep
    have hcalls := @callsWork_update s.pc t (.sending call (readHeader s.dalinkSppSendBuf) 0)
    rw [hpc] at hcalls
    simp only [SendSystem.work, Pc.work] at hcalls ⊢
    omega
  | sendSppData t =>
    obtain ⟨call, hdr, i, hpc, rfl⟩ := SendSystem.step_sendSppData hstep
    have hcalls := @callsWork_update s.pc t (SendSystem.afterSend call hdr i)
    have hlower := work_afterSend_lt call hdr i
    rw [hpc] at hcalls
    simp only [SendSystem.work]
    omega
  | waitDalinkAckResponse t =>
    obtain ⟨call, hdr, i, q, hpc, hq, rfl⟩ := SendSystem.step_waitDalinkAckResponse hstep
    obtain ⟨⟨-, hpos⟩, rfl⟩ := SemQueue.wait_eq_some.mp hq
    have hcalls := @callsWork_update s.pc t (.fetching call hdr i)
    rw [hpc] at hcalls
    simp only [SendSystem.work, Pc.work] at hcalls ⊢
    omega
  | getDalinkAckData t =>
    obtain ⟨call, hdr, i, q, hpc, hq, rfl⟩ := SendSystem.step_getDalinkAckData hstep
    obtain ⟨-, rfl⟩ := takeAck_eq_some hq
    have hcalls := @callsWork_update s.pc t
      (SendSystem.afterFetch call hdr i (getDalinkAckData s.acks.buffer).1)
    have hlower := work_afterFetch_lt call hdr i (getDalinkAckData s.acks.buffer).1
    rw [hpc] at hcalls
    simp only [SendSystem.work]
    omega
  | timeout t =>
    obtain ⟨call, hdr, i, hpc, -, rfl⟩ := SendSystem.step_timeout hstep
    have hcalls := @callsWork_update s.pc t (SendSystem.afterTimeout call hdr i)
    have hlower := work_afterTimeout_lt call hdr i
    rw [hpc] at hcalls
    simp only [SendSystem.work]
    omega
  | release t =>
    obtain ⟨call, hdr, ret, hpc, rfl⟩ := SendSystem.step_release hstep
    have hcalls := @callsWork_update s.pc t .idle
    have hstage : (if t = .bt then s.bt.resume else s.bt).work ≤ s.bt.work := by
      split_ifs
      · exact work_resume_le s.bt
      · exact le_rfl
    rw [hpc] at hcalls
    simp only [SendSystem.work, SendSystem.finish, Pc.work] at hcalls ⊢
    omega
  | waitBtCommand =>
    obtain ⟨event, events, hbt, hevents, rfl⟩ := SendSystem.step_waitBtCommand hstep
    simp only [SendSystem.work, hbt, hevents, eventsWork, List.map_cons, List.sum_cons,
      BtStage.work]
    omega
  | dalinkSppPacketDeal =>
    obtain ⟨hbt, rfl⟩ | ⟨f, rest, u, hbt, hu, rfl⟩ | ⟨f, rest, hbt, rfl⟩ :=
      SendSystem.step_dalinkSppPacketDeal hstep
    · simp only [SendSystem.work, hbt, BtStage.work, framesWork]
      omega
    · -- the frame's share pays for the call that acknowledges it
      obtain ⟨hcalls, -, hevents, hacks⟩ := work_build hu
      simp only [SendSystem.work, hbt, hcalls, hevents, hacks, BtStage.work, framesWork,
        List.length_cons]
      omega
    · simp only [SendSystem.work, hbt, BtStage.work, framesWork, List.length_cons]
      omega
  | dispatchCommand =>
    obtain ⟨f, rest, q, hbt, -, hq, rfl⟩ | ⟨f, rest, u, hbt, -, hu, rfl⟩ |
      ⟨f, rest, hbt, -, rfl⟩ := SendSystem.step_dispatchCommand hstep
    · obtain ⟨-, rfl⟩ := SemQueue.put_eq_some.mp hq
      simp only [SendSystem.work, hbt, BtStage.work]
      omega
    · obtain ⟨hcalls, -, hevents, hacks⟩ := work_build hu
      simp only [SendSystem.work, hbt, hcalls, hevents, hacks, BtStage.work]
      omega
    · simp only [SendSystem.work, hbt, BtStage.work]
      omega
  | semPost =>
    obtain ⟨f, rest, q, hbt, hq, rfl⟩ := SendSystem.step_semPost hstep
    obtain ⟨-, rfl⟩ := SemQueue.post_eq_some.mp hq
    simp only [SendSystem.work, hbt, BtStage.work]
    omega

/-! ### Who is where -/

def Pc.fetches : Pc → Bool
  | .fetching _ _ _ => true
  | .idle | .created _ | .sending _ _ _ | .waiting _ _ _ | .releasing _ _ _ => false

/-- In `post_bt_spp_ack_wait_sem`. -/
def BtStage.posts : BtStage → Bool
  | .posting _ _ => true
  | .waiting | .dealing _ | .acking _ _ | .switching _ _ | .feedback _ => false

/-- In a send. -/
def BtStage.calls : BtStage → Bool
  | .acking _ _ | .feedback _ => true
  | .waiting | .dealing _ | .switching _ _ | .posting _ _ => false

/-- The mutex is held by a thread between lock and unlock, which alone fetches ACKs; the
Bluetooth message thread alone posts them, and has a call exactly while it sends. -/
structure Coherent (mutex : Option Thread) (pc : Thread → Pc)
    (acks : SemQueue BtSppDalinkAck BtSppDalinkAck) (bt : BtStage) : Prop where
  exclusive : Exclusive mutex pc
  held : ∀ t, mutex = some t → (pc t).locked = true ∧ acks.taking = (pc t).fetches
  free : mutex = none → acks.taking = false
  posts : acks.posting = bt.posts
  calls : pc .bt = .idle ↔ bt.calls = false

theorem coherent_start : Coherent sendStart.sppSendProctectMutex sendStart.pc sendStart.acks
    sendStart.bt where
  exclusive := fun _ hlocked => nomatch hlocked
  held := fun _ hheld => nomatch hheld
  free := fun _ => rfl
  posts := rfl
  calls := iff_of_true rfl rfl

section Coherent

variable {mutex : Option Thread} {pc : Thread → Pc} {t : Thread} {p : Pc}
  {acks q : SemQueue BtSppDalinkAck BtSppDalinkAck} {bt stage : BtStage}

theorem ne_idle_of_locked (h : p.locked = true) : p ≠ .idle := by
  rintro rfl
  cases h

/-- The holder of the mutex takes a step and keeps it. -/
theorem Coherent.move (h : Coherent mutex pc acks bt) (ht : (pc t).locked = true)
    (hp : p.locked = true) (htaking : q.taking = p.fetches) (hposting : q.posting = acks.posting) :
    Coherent mutex (Function.update pc t p) q bt where
  exclusive := h.exclusive.update fun _ => h.exclusive t ht
  held := by
    intro u hu
    obtain rfl := Option.some.inj ((h.exclusive t ht).symm.trans hu)
    rw [Function.update_self]
    exact ⟨hp, htaking⟩
  free := fun hfree => nomatch (h.exclusive t ht).symm.trans hfree
  posts := hposting.trans h.posts
  calls := by
    by_cases hbt : Thread.bt = t
    · subst hbt
      rw [Function.update_self]
      exact iff_of_false (ne_idle_of_locked hp) fun hcalls =>
        ne_idle_of_locked ht (h.calls.mpr hcalls)
    · rw [Function.update_of_ne hbt]
      exact h.calls

/-- A thread without the mutex moves on. -/
theorem Coherent.enter (h : Coherent mutex pc acks bt) (ht : (pc t).locked = false)
    (hp : p.locked = false) (hcalls : Function.update pc t p .bt = .idle ↔ stage.calls = false)
    (hposts : stage.posts = bt.posts) : Coherent mutex (Function.update pc t p) acks stage where
  exclusive := h.exclusive.update fun hlocked => nomatch hp.symm.trans hlocked
  held := by
    intro u hu
    have hne : u ≠ t := by
      rintro rfl
      exact nomatch ht.symm.trans (h.held u hu).1
    rw [Function.update_of_ne hne]
    exact h.held u hu
  free := h.free
  posts := h.posts.trans hposts.symm
  calls := hcalls

/-- The Bluetooth message thread goes on, without a call. -/
theorem Coherent.goOn (h : Coherent mutex pc acks bt) (hcalls : stage.calls = bt.calls)
    (htaking : q.taking = acks.taking) (hposts : q.posting = stage.posts) :
    Coherent mutex pc q stage where
  exclusive := h.exclusive
  held := fun u hu => ⟨(h.held u hu).1, htaking.trans (h.held u hu).2⟩
  free := fun hfree => htaking.trans (h.free hfree)
  posts := hposts
  calls := by
    rw [hcalls]
    exact h.calls

theorem Coherent.lock (h : Coherent none pc acks bt) {call : Call} (ht : pc t = .created call)
    (hp : p.locked = true) (hp' : p.fetches = false) :
    Coherent (some t) (Function.update pc t p) acks bt where
  exclusive := h.exclusive.lock
  held := by
    intro u hu
    obtain rfl := Option.some.inj hu
    rw [Function.update_self]
    exact ⟨hp, (h.free rfl).trans hp'.symm⟩
  free := fun hfree => nomatch hfree
  posts := h.posts
  calls := by
    by_cases hbt : Thread.bt = t
    · subst hbt
      have hne : pc .bt ≠ .idle := by
        rw [ht]
        exact nofun
      rw [Function.update_self]
      exact iff_of_false (ne_idle_of_locked hp) fun hcalls => hne (h.calls.mpr hcalls)
    · rw [Function.update_of_ne hbt]
      exact h.calls

theorem posts_resume (stage : BtStage) : stage.resume.posts = stage.posts := by
  cases stage <;> rfl

theorem calls_resume (stage : BtStage) : stage.resume.calls = false := by
  cases stage <;> rfl

/-- The holder of the mutex gives it back and returns. -/
theorem Coherent.release (h : Coherent mutex pc acks bt) (ht : (pc t).locked = true)
    (hfetches : (pc t).fetches = false) :
    Coherent none (Function.update pc t .idle) acks (if t = .bt then bt.resume else bt) where
  exclusive := h.exclusive.release ht
  held := fun _ hheld => nomatch hheld
  free := fun _ => (h.held t (h.exclusive t ht)).2.trans hfetches
  posts := by
    rw [h.posts]
    split_ifs
    · exact (posts_resume bt).symm
    · rfl
  calls := by
    by_cases hbt : t = .bt
    · subst hbt
      rw [Function.update_self, if_pos rfl]
      exact iff_of_true rfl (calls_resume bt)
    · rw [Function.update_of_ne (Ne.symm hbt), if_neg hbt]
      exact h.calls

end Coherent

/-- The system's state is coherent. -/
def SendSystem.Coherent (s : SendSystem) : Prop :=
  PhoneLink.Coherent s.sppSendProctectMutex s.pc s.acks s.bt

theorem locked_afterSend (call : Call) (hdr : Header) (i : ℕ) :
    (SendSystem.afterSend call hdr i).locked = true ∧
      (SendSystem.afterSend call hdr i).fetches = false := by
  unfold SendSystem.afterSend
  split_ifs <;> exact ⟨rfl, rfl⟩

theorem locked_afterFetch (call : Call) (hdr : Header) (i : ℕ) (ack : BtSppDalinkAck) :
    (SendSystem.afterFetch call hdr i ack).locked = true ∧
      (SendSystem.afterFetch call hdr i ack).fetches = false := by
  rw [SendSystem.afterFetch_eq]
  split_ifs <;> exact ⟨rfl, rfl⟩

theorem locked_afterTimeout (call : Call) (hdr : Header) (i : ℕ) :
    (SendSystem.afterTimeout call hdr i).locked = true ∧
      (SendSystem.afterTimeout call hdr i).fetches = false := by
  unfold SendSystem.afterTimeout
  split_ifs <;> exact ⟨rfl, rfl⟩

namespace SendSystem

/-- A create step leaves the thread with a call: the stage is then one that calls. -/
theorem Coherent.build {r : Request} {stage : BtStage} (h : s.Coherent)
    (hbuild : s.build t r = some s')
    (hcalls : stage.calls = if t = .bt then true else s.bt.calls)
    (hposts : stage.posts = s.bt.posts) : Coherent { s' with bt := stage } := by
  obtain ⟨hidle, rfl⟩ := SendSystem.build_eq_some hbuild
  refine h.enter (by rw [hidle]; rfl) rfl ?_ hposts
  by_cases hbt : t = .bt
  · subst hbt
    rw [Function.update_self, hcalls, if_pos rfl]
    exact iff_of_false nofun nofun
  · rw [Function.update_of_ne (Ne.symm hbt), hcalls, if_neg hbt]
    exact h.calls

theorem Coherent.step (h : s.Coherent) (hstep : s.step a = some s') : s'.Coherent := by
  cases a with
  | create t r =>
    have hne : t ≠ .bt := by
      rintro rfl
      cases hstep
    have hbuild := step_create hstep
    have hbt : s'.bt = s.bt := by
      obtain ⟨-, rfl⟩ := build_eq_some hbuild
      rfl
    have hcoherent : Coherent { s' with bt := s.bt } := h.build hbuild (if_neg hne).symm rfl
    rw [← hbt] at hcoherent
    exact hcoherent
  | lock t =>
    obtain ⟨call, hpc, hfree, rfl⟩ := step_lock hstep
    have hlock : PhoneLink.Coherent none s.pc s.acks s.bt := hfree ▸ h
    exact hlock.lock hpc rfl rfl
  | sendSppData t =>
    obtain ⟨call, hdr, i, hpc, rfl⟩ := step_sendSppData hstep
    have ht : (s.pc t).locked = true := by rw [hpc]; rfl
    have htaking := (h.held t (h.exclusive t ht)).2
    rw [hpc] at htaking
    obtain ⟨hlocked, hfetches⟩ := locked_afterSend call hdr i
    exact h.move ht hlocked (htaking.trans hfetches.symm) rfl
  | waitDalinkAckResponse t =>
    obtain ⟨call, hdr, i, q, hpc, hq, rfl⟩ := step_waitDalinkAckResponse hstep
    obtain ⟨-, rfl⟩ := SemQueue.wait_eq_some.mp hq
    exact h.move (by rw [hpc]; rfl) rfl rfl rfl
  | getDalinkAckData t =>
    obtain ⟨call, hdr, i, q, hpc, hq, rfl⟩ := step_getDalinkAckData hstep
    obtain ⟨-, rfl⟩ := takeAck_eq_some hq
    obtain ⟨hlocked, hfetches⟩ := locked_afterFetch call hdr i (getDalinkAckData s.acks.buffer).1
    exact h.move (by rw [hpc]; rfl) hlocked hfetches.symm rfl
  | timeout t =>
    obtain ⟨call, hdr, i, hpc, -, rfl⟩ := step_timeout hstep
    have ht : (s.pc t).locked = true := by rw [hpc]; rfl
    have htaking := (h.held t (h.exclusive t ht)).2
    rw [hpc] at htaking
    obtain ⟨hlocked, hfetches⟩ := locked_afterTimeout call hdr i
    exact h.move ht hlocked (htaking.trans hfetches.symm) rfl
  | release t =>
    obtain ⟨call, hdr, ret, hpc, rfl⟩ := step_release hstep
    exact h.release (by rw [hpc]; rfl) (by rw [hpc]; rfl)
  | bluetoothSppDataProc event =>
    obtain rfl := Option.some.inj hstep
    exact h
  | waitBtCommand =>
    obtain ⟨event, events, hbt, -, rfl⟩ := step_waitBtCommand hstep
    exact h.goOn (by rw [hbt]; rfl) rfl (by rw [h.posts, hbt]; rfl)
  | dalinkSppPacketDeal =>
    obtain ⟨hbt, rfl⟩ | ⟨f, rest, u, hbt, hu, rfl⟩ | ⟨f, rest, hbt, rfl⟩ :=
      step_dalinkSppPacketDeal hstep
    · exact h.goOn (by rw [hbt]; rfl) rfl (by rw [h.posts, hbt]; rfl)
    · exact h.build hu rfl (by rw [hbt]; rfl)
    · exact h.goOn (by rw [hbt]; rfl) rfl (by rw [h.posts, hbt]; rfl)
  | dispatchCommand =>
    obtain ⟨f, rest, q, hbt, -, hq, rfl⟩ | ⟨f, rest, u, hbt, -, hu, rfl⟩ |
      ⟨f, rest, hbt, -, rfl⟩ := step_dispatchCommand hstep
    · obtain ⟨-, rfl⟩ := SemQueue.put_eq_some.mp hq
      exact h.goOn (by rw [hbt]; rfl) rfl rfl
    · exact h.build hu rfl (by rw [hbt]; rfl)
    · exact h.goOn (by rw [hbt]; rfl) rfl (by rw [h.posts, hbt]; rfl)
  | semPost =>
    obtain ⟨f, rest, q, hbt, hq, rfl⟩ := step_semPost hstep
    obtain ⟨-, rfl⟩ := SemQueue.post_eq_some.mp hq
    exact h.goOn (by rw [hbt]; rfl) rfl rfl

theorem Coherent.of_exec {acts : List SendAction}
    (hrun : exec SendSystem.step sendStart acts = some s) : s.Coherent :=
  exec_invariant SendSystem.Coherent (fun _ _ _ h hstep => h.step hstep) coherent_start hrun

/-! ### Where the own steps end -/

/-- Between lock and unlock there is always a step: a wait succeeds or times out. -/
theorem Coherent.not_stuck_of_locked (h : s.Coherent) (ht : (s.pc t).locked = true) :
    ¬ Stuck SendSystem.step SendAction.Own s := by
  intro hstuck
  have htaking := (h.held t (h.exclusive t ht)).2
  cases hpc : s.pc t with
  | idle | created call =>
    rw [hpc] at ht
    cases ht
  | sending call hdr i =>
    have hnone := hstuck (.sendSppData t) trivial
    simp [SendSystem.step, hpc] at hnone
  | waiting call hdr i =>
    rw [hpc] at htaking
    have hwait := hstuck (.waitDalinkAckResponse t) trivial
    have htimeout := hstuck (.timeout t) trivial
    -- with nothing to take the wait times out, else it succeeds
    by_cases hsem : s.acks.sem = 0
    · simp [SendSystem.step, hpc, hsem] at htimeout
    · have hblocked : ¬ (s.acks.taking = true ∨ s.acks.sem = 0) := by
        simp [htaking, hsem, Pc.fetches]
      simp [SendSystem.step, hpc, SemQueue.wait, if_neg hblocked] at hwait
  | fetching call hdr i =>
    rw [hpc] at htaking
    have hfetch := hstuck (.getDalinkAckData t) trivial
    simp [SendSystem.step, hpc, takeAck, htaking, Pc.fetches] at hfetch
  | releasing call hdr ret =>
    have hnone := hstuck (.release t) trivial
    simp [SendSystem.step, hpc] at hnone

/-- A stuck system has no call under way. -/
theorem Coherent.idle_of_stuck (h : s.Coherent)
    (hstuck : Stuck SendSystem.step SendAction.Own s) :
    s.sppSendProctectMutex = none ∧ ∀ t, s.pc t = .idle := by
  have hunlocked : ∀ t, (s.pc t).locked = false := by
    intro t
    by_contra hlocked
    exact h.not_stuck_of_locked (by simpa using hlocked) hstuck
  have hfree : s.sppSendProctectMutex = none := by
    by_contra hne
    obtain ⟨t, ht⟩ := Option.ne_none_iff_exists'.mp hne
    exact nomatch (hunlocked t).symm.trans (h.held t ht).1
  refine ⟨hfree, fun t => ?_⟩
  cases hpc : s.pc t with
  | idle => rfl
  | created call =>
    -- the mutex is free, and the length check does not fail
    have hlen : ¬ call.cDataLen < 10 := UInt8.not_lt.mpr (UInt8.le_iff_toNat_le.mpr call.ten_le)
    have hnone := hstuck (.lock t) trivial
    simp [SendSystem.step, hpc, hfree, hlen] at hnone
  | sending call hdr i | waiting call hdr i | fetching call hdr i | releasing call hdr ret =>
    have hlocked := hunlocked t
    rw [hpc] at hlocked
    cases hlocked

/-- A stuck Bluetooth message thread waits for an event that is not there. -/
theorem Coherent.waiting_of_stuck (h : s.Coherent)
    (hstuck : Stuck SendSystem.step SendAction.Own s) (hidle : s.pc .bt = .idle) :
    s.bt = .waiting ∧ s.events = [] := by
  have hcalls := h.calls.mp hidle
  have hposts := h.posts
  have hwait := hstuck .waitBtCommand trivial
  have hdeal := hstuck .dalinkSppPacketDeal trivial
  have hswitch := hstuck .dispatchCommand trivial
  have hpost := hstuck .semPost trivial
  cases hbt : s.bt with
  | waiting =>
    cases hevents : s.events with
    | nil => exact ⟨rfl, rfl⟩
    | cons event events => simp [SendSystem.step, hbt, hevents] at hwait
  | dealing rest =>
    cases rest with
    | nil => simp [SendSystem.step, hbt] at hdeal
    | cons f rest =>
      simp only [SendSystem.step, hbt, SendSystem.build, hidle] at hdeal
      split_ifs at hdeal
      simp at hdeal
  | switching f rest =>
    rw [hbt] at hposts
    have hfree : s.acks.posting = false := hposts
    by_cases hack : f.cmd = btSppMessageDlHuAck
    · simp [SendSystem.step, hbt, hack, postBtSppAckWaitSem, SemQueue.put, hfree] at hswitch
    · by_cases hsiri : f.isSiriCmd = true
      · simp [SendSystem.step, hbt, hack, hsiri, SendSystem.build, hidle] at hswitch
      · simp [SendSystem.step, hbt, hack, hsiri] at hswitch
  | posting f rest =>
    rw [hbt] at hposts
    simp [SendSystem.step, hbt, SemQueue.post, hposts, BtStage.posts] at hpost
  | acking f rest | feedback rest =>
    rw [hbt] at hcalls
    cases hcalls

/-- At rest no own step is enabled. -/
theorem AtRest.stuck (h : s.AtRest) : Stuck SendSystem.step SendAction.Own s := by
  intro a hown
  by_contra hne
  obtain ⟨s', hstep⟩ := Option.ne_none_iff_exists'.mp hne
  cases a with
  | create t r | bluetoothSppDataProc event => exact hown
  | lock t =>
    obtain ⟨call, hpc, -⟩ := step_lock hstep
    exact nomatch (h.idle t).symm.trans hpc
  | sendSppData t =>
    obtain ⟨call, hdr, i, hpc, -⟩ := step_sendSppData hstep
    exact nomatch (h.idle t).symm.trans hpc
  | waitDalinkAckResponse t =>
    obtain ⟨call, hdr, i, q, hpc, -⟩ := step_waitDalinkAckResponse hstep
    exact nomatch (h.idle t).symm.trans hpc
  | getDalinkAckData t =>
    obtain ⟨call, hdr, i, q, hpc, -⟩ := step_getDalinkAckData hstep
    exact nomatch (h.idle t).symm.trans hpc
  | timeout t =>
    obtain ⟨call, hdr, i, hpc, -⟩ := step_timeout hstep
    exact nomatch (h.idle t).symm.trans hpc
  | release t =>
    obtain ⟨call, hdr, ret, hpc, -⟩ := step_release hstep
    exact nomatch (h.idle t).symm.trans hpc
  | waitBtCommand =>
    obtain ⟨event, events, -, hevents, -⟩ := step_waitBtCommand hstep
    exact nomatch h.events.symm.trans hevents
  | dalinkSppPacketDeal =>
    obtain ⟨hbt, -⟩ | ⟨f, rest, u, hbt, -⟩ | ⟨f, rest, hbt, -⟩ := step_dalinkSppPacketDeal hstep
    all_goals exact nomatch h.waiting.symm.trans hbt
  | dispatchCommand =>
    obtain ⟨f, rest, q, hbt, -⟩ | ⟨f, rest, u, hbt, -⟩ | ⟨f, rest, hbt, -⟩ :=
      step_dispatchCommand hstep
    all_goals exact nomatch h.waiting.symm.trans hbt
  | semPost =>
    obtain ⟨f, rest, q, hbt, -⟩ := step_semPost hstep
    exact nomatch h.waiting.symm.trans hbt

/-- Nothing blocks a coherent system but the lack of something to do. -/
theorem Coherent.stuck_iff (h : s.Coherent) :
    Stuck SendSystem.step SendAction.Own s ↔ s.AtRest := by
  refine ⟨fun hstuck => ?_, AtRest.stuck⟩
  obtain ⟨hfree, hidle⟩ := h.idle_of_stuck hstuck
  obtain ⟨hwaiting, hevents⟩ := h.waiting_of_stuck hstuck (hidle .bt)
  exact ⟨hidle, hfree, hwaiting, hevents⟩

end SendSystem

/-- **The sending threads come to rest.** From every state that a run reaches, a run of
own steps has no more of them than the work left in that state; it can go on unless every
call has returned, the mutex is free and every event has been dealt with; and some run of
own steps leads there. -/
theorem sends_come_to_rest {acts : List SendAction}
    (hrun : exec SendSystem.step sendStart acts = some s) :
    (∀ more t, (∀ a ∈ more, a.Own) → exec SendSystem.step s more = some t →
      more.length ≤ s.work ∧ (Stuck SendSystem.step SendAction.Own t ↔ t.AtRest)) ∧
    ∃ more t, (∀ a ∈ more, a.Own) ∧ exec SendSystem.step s more = some t ∧ t.AtRest := by
  have hreached : ∀ more t, exec SendSystem.step s more = some t → t.Coherent := by
    intro more t hmore
    exact .of_exec ((exec_append_of_eq_some hrun more).trans hmore)
  constructor
  · intro more t hown hmore
    have hlength := length_add_le_of_lowers work_lowers hown hmore
    exact ⟨Nat.le_of_add_right_le hlength, (hreached more t hmore).stuck_iff⟩
  · obtain ⟨more, t, hown, hmore, hstuck⟩ := exists_stuck_of_lowers work_lowers s
    exact ⟨more, t, hown, hmore, (hreached more t hmore).stuck_iff.mp hstuck⟩

/-- After three unanswered transmissions and a late ACK. -/
theorem sends_come_to_rest_unanswered :
    let s := (exec SendSystem.step sendStart requestUnanswered).get (by decide)
    (∀ more t, (∀ a ∈ more, a.Own) → exec SendSystem.step s more = some t →
      more.length ≤ s.work ∧ (Stuck SendSystem.step SendAction.Own t ↔ t.AtRest)) ∧
    ∃ more t, (∀ a ∈ more, a.Own) ∧ exec SendSystem.step s more = some t ∧ t.AtRest :=
  sends_come_to_rest (Option.some_get _).symm

end PhoneLink
