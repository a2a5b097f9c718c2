import PhoneLink.Send.Phantom
import PhoneLink.Send.Rest

/-!
# The Bluetooth message thread's own sends

The Bluetooth message thread is the one that posts the ACKs, and it sends frames itself while
it deals with received ones. As long as such a send lasts nothing is posted: an ACK for the
frame may be queued, but nobody deals with it before the send is over.

## Main definitions

* `Pc.Unanswered`: where a call stands for which nothing has been received

## Main results

* `own_sends_unacknowledged`: no ACK for a frame of the Bluetooth message thread is dealt with
  before the send of it returns, so that it is given up after three transmissions whenever it
  asks for an ACK
-/

namespace PhoneLink

open CS CS.Transition

/-- Where a call stands for which no ACK has been received since its first transmission. -/
def Pc.Unanswered (received : Bool) : Pc → Prop
  | .sending _ _ (_ + 1) | .waiting _ _ _ | .fetching _ _ _ => received = false
  | .releasing _ _ ret => received = false ∧ (ret = 0 ∨ ret = -2)
  | .idle | .created _ | .sending _ _ 0 => True

namespace SendSystem

variable {s s' : SendSystem} {a : SendAction} {t : Thread} {received : Bool} {call : Call}
  {hdr : Header} {i : ℕ}

theorem unanswered_afterSend (h : Pc.Unanswered received (.sending call hdr i)) :
    Pc.Unanswered (if i = 0 then false else received) (afterSend call hdr i) := by
  have hnone : (if i = 0 then false else received) = false := by
    cases i with
    | zero => rfl
    | succ i => exact h
  unfold afterSend
  split_ifs at hnone ⊢ <;> first | exact hnone | exact ⟨hnone, .inl rfl⟩

theorem unanswered_afterFetch (h : Pc.Unanswered received (.fetching call hdr i))
    (ack : BtSppDalinkAck) : Pc.Unanswered received (afterFetch call hdr i ack) := by
  rw [afterFetch_eq]
  split_ifs
  · exact ⟨h, .inl rfl⟩
  · exact h

theorem unanswered_afterTimeout (h : Pc.Unanswered received (.waiting call hdr i)) :
    Pc.Unanswered received (afterTimeout call hdr i) := by
  unfold afterTimeout
  split_ifs
  · cases i with
    | zero => trivial
    | succ i => exact h
  · exact ⟨h, .inr rfl⟩

/-- The Bluetooth message thread has received nothing for its own call. -/
def OwnUnanswered (s : SendSystem) : Prop := (s.pc .bt).Unanswered (s.received .bt)

/-- A thread moves on in its send. -/
theorem OwnUnanswered.move {p : Pc} (h : s.OwnUnanswered)
    (hpc : s'.pc = Function.update s.pc t p)
    (hother : t ≠ .bt → s'.received .bt = s.received .bt)
    (hown : t = .bt → p.Unanswered (s'.received .bt)) : s'.OwnUnanswered := by
  unfold OwnUnanswered
  rw [hpc]
  obtain rfl | hne := eq_or_ne t .bt
  · rw [Function.update_self]
    exact hown rfl
  · rw [Function.update_of_ne hne.symm, hother hne]
    exact h

theorem OwnUnanswered.build {r : Request} (h : s.OwnUnanswered)
    (hbuild : s.build t r = some s') : s'.OwnUnanswered := by
  obtain ⟨-, rfl⟩ := build_eq_some hbuild
  exact h.move rfl (fun _ => rfl) fun _ => trivial

theorem OwnUnanswered.step (h : s.OwnUnanswered) (hcoherent : s.Coherent)
    (hstep : s.step a = some s') : s'.OwnUnanswered := by
  cases a with
  | create t r => exact h.build (step_create hstep)
  | lock t =>
    obtain ⟨call, -, -, rfl⟩ := step_lock hstep
    exact h.move rfl (fun _ => rfl) fun _ => trivial
  | sendSppData t =>
    obtain ⟨call, hdr, i, hpc, rfl⟩ := step_sendSppData hstep
    refine h.move rfl (fun hne => forget_of_ne hne.symm) ?_
    rintro rfl
    dsimp only
    rw [forget_self]
    exact unanswered_afterSend (hpc ▸ h)
  | waitDalinkAckResponse t =>
    obtain ⟨call, hdr, i, q, hpc, -, rfl⟩ := step_waitDalinkAckResponse hstep
    refine h.move rfl (fun _ => rfl) ?_
    rintro rfl
    have hwaiting : (Pc.waiting call hdr i).Unanswered (s.received .bt) := hpc ▸ h
    exact hwaiting
  | getDalinkAckData t =>
    obtain ⟨call, hdr, i, q, hpc, -, rfl⟩ := step_getDalinkAckData hstep
    refine h.move rfl (fun _ => rfl) ?_
    rintro rfl
    exact unanswered_afterFetch (hpc ▸ h) _
  | timeout t =>
    obtain ⟨call, hdr, i, hpc, -, rfl⟩ := step_timeout hstep
    refine h.move rfl (fun _ => rfl) ?_
    rintro rfl
    exact unanswered_afterTimeout (hpc ▸ h)
  | release t =>
    obtain ⟨call, hdr, ret, -, rfl⟩ := step_release hstep
    exact h.move rfl (fun _ => rfl) fun _ => trivial
  | bluetoothSppDataProc event =>
    obtain rfl := Option.some.inj hstep
    exact h
  | waitBtCommand =>
    obtain ⟨event, events, -, -, rfl⟩ := step_waitBtCommand hstep
    exact h
  | dalinkSppPacketDeal =>
    obtain ⟨-, rfl⟩ | ⟨f, rest, u, -, hu, rfl⟩ | ⟨f, rest, -, rfl⟩ :=
      step_dalinkSppPacketDeal hstep
    · exact h
    · have hbuilt : u.OwnUnanswered := h.build hu
      exact hbuilt
    · exact h
  | dispatchCommand =>
    obtain ⟨f, rest, q, hbt, -, -, rfl⟩ | ⟨f, rest, u, -, -, hu, rfl⟩ | ⟨f, rest, -, -, rfl⟩ :=
      step_dispatchCommand hstep
    · -- an ACK is dealt with only outside the thread's own sends
      have hidle : s.pc .bt = .idle := hcoherent.calls.mpr (by rw [hbt]; rfl)
      unfold OwnUnanswered
      dsimp only
      rw [hidle]
      trivial
    · have hbuilt : u.OwnUnanswered := h.build hu
      exact hbuilt
    · exact h
  | semPost =>
    obtain ⟨f, rest, q, -, -, rfl⟩ := step_semPost hstep
    exact h

end SendSystem

/-- **The Bluetooth message thread's own sends.** In every run, when a send of the Bluetooth
message thread is about to return, no ACK for its frame has been dealt with since its first
transmission, wherever the phone's ACKs are; so if at first transmissions the ring cannot hand
out an old ACK for the frame, the send is given up whenever the header it read back asks for
an ACK. If moreover no other thread builds a frame between a create step and the transmissions
of its call, this header is that of the thread's own frame, and a frame that asks for an ACK
has been transmitted three times. -/
theorem own_sends_unacknowledged {s : SendSystem} {acts : List SendAction}
    (hrun : exec SendSystem.step sendStart acts = some s) {call : Call} {hdr : Header} {ret : ℤ}
    (hreturns : s.pc .bt = .releasing call hdr ret) :
    s.received .bt = false ∧
      (Meets SendSystem.step noStaleAck sendStart acts →
        (hdr.dFlag = dFlagNeedAck → ret = -2) ∧
        (Meets SendSystem.step noCreateSince sendStart acts →
          call.frame.dFlag = dFlagNeedAck → ret = -2 ∧ LastCarried 3 call s.transmitted)) := by
  have hinv : s.Coherent ∧ s.OwnUnanswered :=
    exec_invariant (fun s => s.Coherent ∧ s.OwnUnanswered)
      (fun s a s' h hstep => ⟨h.1.step hstep, h.2.step h.1 hstep⟩)
      ⟨coherent_start, trivial⟩ hrun
  obtain ⟨hnone, hret⟩ : s.received .bt = false ∧ (ret = 0 ∨ ret = -2) := by
    have hown := hinv.2
    unfold SendSystem.OwnUnanswered at hown
    rwa [hreturns] at hown
  refine ⟨hnone, fun hcond => ?_⟩
  have hlost : hdr.dFlag = dFlagNeedAck → ret = -2 := by
    refine fun hflag => hret.resolve_left fun hzero => ?_
    -- reported as sent, it would have received an ACK
    have hgenuine : Genuine s :=
      exec_invariant_of_meets Genuine (fun _ _ _ h hc hstep => h.step hc hstep)
        genuine_start hcond hrun
    have hreceived := hgenuine.genuine .bt
    rw [hreturns] at hreceived
    exact absurd (hreceived hzero hflag) (by rw [hnone]; exact Bool.false_ne_true)
  refine ⟨hlost, fun hown hflag => ?_⟩
  have hcall := own_calls hrun hown .bt
  rw [hreturns] at hcall
  obtain ⟨hheader, -, hthree⟩ := hcall
  have hreturned := hlost (by rw [hheader]; exact hflag)
  exact ⟨hreturned, hthree hreturned⟩

/-- A SIRI command is answered, and the ACK for the answer is queued at once. -/
theorem own_sends_unacknowledged_siri :
    let s := (exec SendSystem.step sendStart siriFeedbackAcknowledged).get (by decide)
    s.received .bt = false ∧ (s.pc .bt).ret = some (-2) ∧
      ∃ call, LastCarried 3 call s.transmitted :=
  have h := own_sends_unacknowledged (Option.some_get (by decide)).symm
    (show ((exec SendSystem.step sendStart siriFeedbackAcknowledged).get (by decide)).pc .bt =
      .releasing _ _ _ from rfl)
  have hlost := (h.2 (by decide)).2 (by decide) rfl
  ⟨h.1, congrArg some hlost.1, _, hlost.2⟩

end PhoneLink
