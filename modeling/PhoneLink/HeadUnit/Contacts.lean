import PhoneLink.HeadUnit.Wire

/-!
# The two contacts

A touch of two fingers carries an action for each contact, and is forwarded as two touch
frames, one for each. Both frames are sent with the action of the first contact, and a
touch that is not forwarded is lost for both, so the phone may believe a finger down that
has been lifted.

## Main definitions

* `touchAction?`: the action that a transmitted touch frame carries for a contact
* `HeadUnit.forwardedAction?`, `LastForwardedUp`: the touches of two fingers that are sent
  on, and the runs in which the last of them reports the first contact lifted
* `KeepsApart`: what a touch of two fingers leaves the phone with

## Main results

* `sent_sendContacts`: the two frames of a touch
* `lastOf_touchAction_run`: the last touch frame of a contact carries the action of the last
  touch that was sent on
* `contacts_apart_iff`: when all touches of a run keep the contacts apart
-/

namespace PhoneLink

open CS CS.Transition

/-! ### Touch frames -/

/-- The action that a transmitted frame carries, if it is a touch frame for the contact. -/
def touchAction? (serialNum : UInt8) (bytes : List UInt8) : Option UInt8 :=
  if bytes[2]? = some btSppMessageHuDlTouch ∧ bytes[12]? = some serialNum then bytes[11]?
  else none

theorem touchAction?_frame (x y : UInt16) (touchFlag multiSerial : UInt8) (tranID : UInt16)
    (serialNum : UInt8) :
    touchAction? serialNum ((Request.touchscreen x y touchFlag multiSerial).frame tranID).bytes =
      if multiSerial = serialNum then some touchFlag else none := by
  rw [Frame.bytes_eq, touchAction?]
  simp [Request.frame, Frame.short, packet, packetBody]

/-- No other frame carries an action. -/
theorem touchAction?_bytes_of_ne {f : Frame} (h : f.type ≠ btSppMessageHuDlTouch)
    (serialNum : UInt8) : touchAction? serialNum f.bytes = none := by
  refine if_neg fun ⟨htype, _⟩ => h ?_
  rw [f.bytes_eq] at htype
  exact Option.some.inj htype

variable {sent : List (List UInt8)} {spp : SppSender}

/-- One touch frame is transmitted once. -/
theorem sent_sendSppModeCotrolData (actionIn : TouchStatus) (serialNum : UInt8)
    (axisX axisY : ℤ) (spp : SppSender) :
    ∃ bytes, (TouchScreen.sendSppModeCotrolData actionIn serialNum axisX axisY spp).sent =
        spp.sent ++ [bytes] ∧
      ∀ k, touchAction? k bytes = if serialNum = k then some actionIn.toUInt8 else none := by
  obtain ⟨k, -, -, hone, hsent⟩ := SppSender.sent_sendCreated
    (.touchscreen (.ofInt axisX) (.ofInt axisY) actionIn.toUInt8 serialNum) spp
  -- touch frames have no D flag
  obtain rfl : k = 1 := hone (by decide : dFlagNoNeedAck ≠ 0x01)
  exact ⟨_, hsent, touchAction?_frame _ _ _ _ _⟩

namespace TouchScreen

variable {s : TouchScreen} {status : TouchStatus} {x y x1 y1 : ℤ} {action action1 : UInt8}
  {tick tickAfter : UInt32}

/-- A touch of two fingers is one frame for each contact, both with the same action. -/
theorem sent_sendContacts (s : TouchScreen) (status : TouchStatus) (x y x1 y1 : ℤ)
    (spp : SppSender) :
    ∃ first second, (s.sendContacts status x y x1 y1 spp).sent = spp.sent ++ [first, second] ∧
      (∀ k, touchAction? k first = if 0 = k then some status.toUInt8 else none) ∧
      ∀ k, touchAction? k second = if 1 = k then some status.toUInt8 else none := by
  unfold sendContacts
  obtain ⟨first, hfirst, hfirst'⟩ := sent_sendSppModeCotrolData status 0
    (s.scaled s.param.moveXfix x) (s.scaled s.param.moveYfix y) spp
  obtain ⟨second, hsecond, hsecond'⟩ := sent_sendSppModeCotrolData status 1
    (s.scaled s.param.moveXfix x1) (s.scaled s.param.moveYfix y1)
    (sendSppModeCotrolData status 0 (s.scaled s.param.moveXfix x)
      (s.scaled s.param.moveYfix y) spp)
  refine ⟨first, second, ?_, hfirst', hsecond'⟩
  dsimp only
  rw [hsecond, hfirst, List.append_assoc]
  rfl

end TouchScreen

namespace HeadUnit

/-- The first contact's action, if the step is a touch of two fingers that is sent on. -/
def forwardedAction? (s : HeadUnit) : HeadAction → Option UInt8
  | .doubleTouch x y action x1 y1 _ tick _ =>
    if s.touch.Forwarded x y action x1 y1 tick then some action else none
  | _ => none

variable {s : HeadUnit} {a : HeadAction} {action : UInt8}

/-- The other steps ask for no touch frame. -/
theorem type_of_mem_requests (h : s.forwardedAction? a = none) {r : Request}
    (hr : r ∈ s.requests a) (tranID : UInt16) :
    (r.frame tranID).type ≠ btSppMessageHuDlTouch := by
  cases a with
  | packet packetHeader len =>
    rw [requests] at hr
    split_ifs at hr
    · cases hr
    rcases List.mem_append.mp hr with hack | hanswer
    · split_ifs at hack
      · obtain rfl := List.mem_singleton.mp hack
        exact (by decide : btSppMessageDlHuAck ≠ btSppMessageHuDlTouch)
      · cases hack
    · -- only Siri is answered
      cases hcommand : commandOf packetHeader with
      | siriCmd openOrClose =>
        rw [hcommand, Command.answers] at hanswer
        split_ifs at hanswer
        · obtain rfl := List.mem_singleton.mp hanswer
          exact (by decide : btSppMessageHuDlSiri ≠ btSppMessageHuDlTouch)
        · obtain rfl := List.mem_singleton.mp hanswer
          exact (by decide : btSppMessageHuDlSiri ≠ btSppMessageHuDlTouch)
        · cases hanswer
      | _ =>
        rw [hcommand] at hanswer
        cases hanswer
  | hmi msgType =>
    have hrequest : msgType.request? = some r := Option.mem_toList.mp hr
    have htype : (r.frame tranID).type = (r.frame 0).type := by
      cases r <;> rfl
    rw [htype]
    cases msgType <;> cases hrequest <;> decide
  | touch x y action tick tickAfter => cases hr
  | doubleTouch x y action x1 y1 action1 tick tickAfter =>
    dsimp only [forwardedAction?, requests] at h hr
    split_ifs at h hr
    cases hr
  | updatePairList checkConnect => cases hr
  | timer =>
    dsimp only [requests] at hr
    split_ifs at hr
    · obtain rfl := List.mem_singleton.mp hr
      exact (by decide : btSppMessageDlHuHeartbeat ≠ btSppMessageHuDlTouch)
    · cases hr

/-- What any other step transmits is no touch frame. -/
theorem sent_step_of_none (h : s.forwardedAction? a = none) :
    ∃ new, (s.step a).spp.sent = s.spp.sent ++ new ∧
      ∀ bytes ∈ new, ∀ serialNum, touchAction? serialNum bytes = none := by
  obtain ⟨log, hlog, -, hsent, -⟩ := s.emits_step a
  refine ⟨_, hsent, fun bytes hbytes serialNum => ?_⟩
  obtain ⟨f, ⟨r, hr, tranID, rfl⟩, rfl⟩ := frameOf_of_mem_wire hbytes
  exact touchAction?_bytes_of_ne (type_of_mem_requests h (hlog ▸ hr) tranID) serialNum

/-- A touch that is sent on is two frames, and either carries the first contact's action. -/
theorem sent_step_of_some (h : s.forwardedAction? a = some action) :
    ∃ first second, (s.step a).spp.sent = s.spp.sent ++ [first, second] ∧
      (∀ k, touchAction? k first = if 0 = k then some action else none) ∧
      ∀ k, touchAction? k second = if 1 = k then some action else none := by
  cases a with
  | doubleTouch x y action' x1 y1 action1 tick tickAfter =>
    dsimp only [forwardedAction?] at h
    split_ifs at h with hforwarded
    obtain rfl := Option.some.inj h
    obtain ⟨status, hstatus, hspp⟩ :=
      TouchScreen.procDoubleTouchInfo_of_forwarded hforwarded action1 tickAfter s.spp
    obtain rfl := TouchScreen.toUInt8_of_touchStatus hstatus
    obtain ⟨first, second, hsent, hboth⟩ :=
      TouchScreen.sent_sendContacts s.touch status x y x1 y1 s.spp
    exact ⟨first, second, (congrArg SppSender.sent hspp).trans hsent, hboth⟩
  | _ => cases h

end HeadUnit

/-! ### Runs -/

/-- The first contact's actions of the touches of two fingers that are sent on, in order. -/
def forwardedActions (env : Environment) (acts : List HeadAction) : List UInt8 :=
  shownBy HeadUnit.step (fun s a => (s.forwardedAction? a).toList) (.start env) acts

/-- The last touch of two fingers that was sent on, if there was one, reported the first
contact lifted. -/
def LastForwardedUp (env : Environment) (acts : List HeadAction) : Prop :=
  ∀ action ∈ (forwardedActions env acts).getLast?, action = TouchStatus.touchUp.toUInt8

/-- The last touch frame of either contact carries the first contact's action in the last
touch that was sent on. -/
theorem lastOf_touchAction_run (env : Environment) (acts : List HeadAction) {serialNum : UInt8}
    (hserial : serialNum = 0 ∨ serialNum = 1) :
    lastOf (touchAction? serialNum) (run HeadUnit.step (.start env) acts).spp.sent =
      (forwardedActions env acts).getLast? := by
  induction acts using List.reverseRecOn with
  | nil => rfl
  | append_singleton acts a ih =>
    rw [run_concat, forwardedActions, shownBy_concat]
    cases hforwarded : (run HeadUnit.step (.start env) acts).forwardedAction? a with
    | none =>
      obtain ⟨new, hsent, hnone⟩ := HeadUnit.sent_step_of_none hforwarded
      rw [hsent, lastOf_append_of_none fun bytes hbytes => hnone bytes hbytes serialNum,
        Option.toList_none, List.append_nil]
      exact ih
    | some action =>
      obtain ⟨first, second, hsent, hfirst, hsecond⟩ := HeadUnit.sent_step_of_some hforwarded
      rw [hsent, Option.toList_some, List.getLast?_concat]
      have hpair : (run HeadUnit.step (.start env) acts).spp.sent ++ [first, second] =
          (run HeadUnit.step (.start env) acts).spp.sent ++ [first] ++ [second] := by simp
      rw [hpair]
      -- the frames of a touch: the first contact's, then the second's
      rcases hserial with rfl | rfl
      · rw [lastOf_concat_of_none (hsecond 0), lastOf_concat_of_some (hfirst 0)]
      · rw [lastOf_concat_of_some (hsecond 1)]

/-- The last touch frame for the contact, if there was one, is a touch up. -/
def Lifted (serialNum : UInt8) (sent : List (List UInt8)) : Prop :=
  ∀ action ∈ lastOf (touchAction? serialNum) sent, action = TouchStatus.touchUp.toUInt8

instance (serialNum : UInt8) (sent : List (List UInt8)) : Decidable (Lifted serialNum sent) :=
  inferInstanceAs (Decidable (∀ action ∈ lastOf (touchAction? serialNum) sent, _))

theorem lifted_run_iff (env : Environment) (acts : List HeadAction) {serialNum : UInt8}
    (hserial : serialNum = 0 ∨ serialNum = 1) :
    Lifted serialNum (run HeadUnit.step (.start env) acts).spp.sent ↔
      LastForwardedUp env acts := by
  rw [Lifted, LastForwardedUp, lastOf_touchAction_run env acts hserial]

/-- After a touch of two fingers a contact reported lifted is lifted for the phone, and
every touch frame sent for it carries the contact's own action. -/
def KeepsApart (s : HeadUnit) (a : HeadAction) (t : HeadUnit) : Prop :=
  ∀ x y action x1 y1 action1 tick tickAfter,
    a = .doubleTouch x y action x1 y1 action1 tick tickAfter →
      (action = 0 → Lifted 0 t.spp.sent) ∧ (action1 = 0 → Lifted 1 t.spp.sent) ∧
        ∃ new, t.spp.sent = s.spp.sent ++ new ∧ ∀ bytes ∈ new,
          (∀ carried ∈ touchAction? 0 bytes, carried = action) ∧
            ∀ carried ∈ touchAction? 1 bytes, carried = action1

theorem lifted_concat_of_some {serialNum action : UInt8} {bytes : List UInt8}
    (h : touchAction? serialNum bytes = some action) :
    Lifted serialNum (sent ++ [bytes]) ↔ action = TouchStatus.touchUp.toUInt8 := by
  rw [Lifted, lastOf_concat_of_some h]
  exact ⟨fun hlast => hlast action rfl, fun heq a ha => Option.mem_some.mp ha ▸ heq⟩

theorem lifted_concat_of_none {serialNum : UInt8} {bytes : List UInt8}
    (h : touchAction? serialNum bytes = none) :
    Lifted serialNum (sent ++ [bytes]) ↔ Lifted serialNum sent := by
  rw [Lifted, Lifted, lastOf_concat_of_none h]

/-- A frame with one action carries no other. -/
theorem carried_eq {serialNum action : UInt8} {bytes : List UInt8}
    (h : ∀ k, touchAction? k bytes = if serialNum = k then some action else none) (k : UInt8) :
    ∀ carried ∈ touchAction? k bytes, carried = action := by
  intro carried hcarried
  rw [h] at hcarried
  split_ifs at hcarried
  · exact (Option.mem_some.mp hcarried).symm
  · cases hcarried

section Touch

variable {s : HeadUnit} {x y x1 y1 : ℤ} {action action1 : UInt8} {tick tickAfter : UInt32}

/-- A touch that is sent on keeps the contacts apart exactly if they have one action. -/
theorem keepsApart_step_of_forwarded (h : s.touch.Forwarded x y action x1 y1 tick) :
    KeepsApart s (.doubleTouch x y action x1 y1 action1 tick tickAfter)
      (s.step (.doubleTouch x y action x1 y1 action1 tick tickAfter)) ↔ action1 = action := by
  obtain ⟨first, second, hsent, hfirst, hsecond⟩ := HeadUnit.sent_step_of_some
    (show s.forwardedAction? (.doubleTouch x y action x1 y1 action1 tick tickAfter) = some action
      from if_pos h)
  have hpair : s.spp.sent ++ [first, second] = s.spp.sent ++ [first] ++ [second] := by simp
  constructor
  · -- the second frame carries the first contact's action
    intro hapart
    obtain ⟨-, -, new, hnew, hown⟩ := hapart x y action x1 y1 action1 tick tickAfter rfl
    rw [hsent] at hnew
    obtain rfl := List.append_cancel_left hnew
    exact ((hown second (by simp)).2 action (hsecond 1)).symm
  · rintro rfl _ _ _ _ _ _ _ _ ⟨⟩
    rw [hsent]
    refine ⟨fun haction => ?_, fun haction => ?_, [first, second], rfl, ?_⟩
    · rw [hpair, lifted_concat_of_none (hsecond 0), lifted_concat_of_some (hfirst 0)]
      exact haction
    · rw [hpair, lifted_concat_of_some (hsecond 1)]
      exact haction
    · rw [List.forall_mem_cons, List.forall_mem_singleton]
      exact ⟨⟨carried_eq hfirst 0, carried_eq hfirst 1⟩, carried_eq hsecond 0,
        carried_eq hsecond 1⟩

/-- Any other touch leaves the phone with the frames of before. -/
theorem keepsApart_step_of_not_forwarded (h : ¬ s.touch.Forwarded x y action x1 y1 tick) :
    KeepsApart s (.doubleTouch x y action x1 y1 action1 tick tickAfter)
      (s.step (.doubleTouch x y action x1 y1 action1 tick tickAfter)) ↔
        (action = 0 → Lifted 0 s.spp.sent) ∧ (action1 = 0 → Lifted 1 s.spp.sent) := by
  have hstep : (s.step (.doubleTouch x y action x1 y1 action1 tick tickAfter)).spp = s.spp :=
    TouchScreen.procDoubleTouchInfo_of_not_forwarded h
  unfold KeepsApart
  rw [hstep]
  constructor
  · intro hapart
    obtain ⟨hfirst, hsecond, -⟩ := hapart x y action x1 y1 action1 tick tickAfter rfl
    exact ⟨hfirst, hsecond⟩
  · rintro ⟨hfirst, hsecond⟩ _ _ _ _ _ _ _ _ ⟨⟩
    exact ⟨hfirst, hsecond, [], (List.append_nil _).symm, by simp⟩

end Touch

/-- **Two fingers.** In every run, however the machine rounds, after every touch of two
fingers each contact reported lifted is lifted for the phone, and no touch frame carries
another contact's action, exactly when every touch that is sent on has one action for both
contacts, and every other touch that reports a contact lifted comes when the last touch that
was sent on reported the first contact lifted, or before any was. -/
theorem contacts_apart_iff (env : Environment) (acts : List HeadAction) :
    Throughout HeadUnit.step KeepsApart (.start env) acts ↔
      ∀ before x y action x1 y1 action1 tick tickAfter after,
        acts = before ++ .doubleTouch x y action x1 y1 action1 tick tickAfter :: after →
          if (run HeadUnit.step (.start env) before).touch.Forwarded x y action x1 y1 tick
          then action1 = action
          else action = 0 ∨ action1 = 0 → LastForwardedUp env before := by
  have hstep (before : List HeadAction) (x y : ℤ) (action : UInt8) (x1 y1 : ℤ) (action1 : UInt8)
      (tick tickAfter : UInt32) :
      let s := run HeadUnit.step (.start env) before
      KeepsApart s (.doubleTouch x y action x1 y1 action1 tick tickAfter)
          (s.step (.doubleTouch x y action x1 y1 action1 tick tickAfter)) ↔
        if s.touch.Forwarded x y action x1 y1 tick then action1 = action
        else action = 0 ∨ action1 = 0 → LastForwardedUp env before := by
    intro s
    split_ifs with hforwarded
    · exact keepsApart_step_of_forwarded hforwarded
    · -- nothing is sent, so it depends on what the last touch that was sent on left
      rw [keepsApart_step_of_not_forwarded hforwarded, lifted_run_iff env before (.inl rfl),
        lifted_run_iff env before (.inr rfl), or_imp]
  rw [throughout_iff_split]
  constructor
  · rintro h before x y action x1 y1 action1 tick tickAfter after rfl
    exact (hstep before x y action x1 y1 action1 tick tickAfter).mp (h before _ after rfl)
  · rintro h before a after rfl x y action x1 y1 action1 tick tickAfter rfl
    exact (hstep before x y action x1 y1 action1 tick tickAfter).mpr
      (h before x y action x1 y1 action1 tick tickAfter after rfl)
      x y action x1 y1 action1 tick tickAfter rfl

/-- Two fingers go down on a phone held horizontally, and the second is lifted while the
first moves. -/
theorem second_finger_lifted_during_move :
    ¬ Throughout HeadUnit.step KeepsApart (.start (.quiet .binary))
      [.resolution 1280 720, .doubleTouch 100 100 1 200 200 1 1000 1000,
        .doubleTouch 110 100 2 200 200 0 2000 2000] := by
  intro hrun
  have hlifted := (hrun.2.2.1 110 100 2 200 200 0 2000 2000 rfl).2.1 rfl
  revert hlifted
  decide +kernel

end PhoneLink
