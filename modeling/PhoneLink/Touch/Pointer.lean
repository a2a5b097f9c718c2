import PhoneLink.Send.Protected
import PhoneLink.Touch.Geometry

/-!
# Touches

A touch of one finger becomes reports of a mouse whose left button is held from the
touch down to the touch up; a touch of two fingers becomes touch frames. A touch outside
the valid window is dropped, whatever it reports, and so is a move that comes less than
80 milliseconds after the last one sent.

## Main definitions

* `TouchScreen.procTouchInfo`, `TouchScreen.procDoubleTouchInfo`
* `TouchScreen.Forwarded`: the touches of two fingers that are sent on
* `TouchScreen.Released`: the last mouse report leaves the button up
* `TouchScreen.buttonSet?`: where a touch puts the button

## Main results

* `released_procTouchInfo_up_iff`: a touch up leaves the button up exactly when it is
  valid or the button was up
-/

namespace PhoneLink

open CS

inductive TouchStatus
  | touchUp
  | touchDown
  | touchMove
  deriving DecidableEq, Repr

def TouchStatus.toUInt8 : TouchStatus → UInt8
  | touchUp => 0x00
  | touchDown => 0x01
  | touchMove => 0x02

/-- What the byte of an HMI message stands for. -/
def touchStatus (action : UInt8) : Option TouchStatus :=
  if action = 0x02 then some .touchMove
  else if action = 0x01 then some .touchDown
  else if action = 0x00 then some .touchUp
  else none

/-- The test that rejects a touch message. -/
def InvalidTouch (g : TouchGeometry) (x y : ℤ) : Prop :=
  x < g.vaildAxisXStart ∨ x > g.vaildAxisXEnd ∨ y < g.vaildAxisYStart ∨ y > g.vaildAxisYEnd

instance (g : TouchGeometry) (x y : ℤ) : Decidable (InvalidTouch g x y) :=
  inferInstanceAs (Decidable (_ ∨ _))

namespace TouchScreen

/-- A number of pixels times a factor, as an `int`. -/
def scaled (s : TouchScreen) (factor : ℚ) (n : ℤ) : ℤ :=
  trunc (s.arithmetic.toDouble (n * factor))

/-- The offsets are narrowed to `short`. -/
def sendHidModeCotrolData (actionIn : TouchStatus) (axisX axisY : ℤ) (s : TouchScreen) :
    TouchScreen :=
  match actionIn with
  | .touchMove => s.sendMouseData ⟨.ofInt axisX, .ofInt axisY, .btHidButtonLDown⟩
  | .touchDown => s.sendMouseData ⟨.ofInt axisX, .ofInt axisY, .btHidButtonLDown⟩
  | .touchUp => (s.sendMouseData ⟨.ofInt axisX, .ofInt axisY, .btHidButtonNoneOrUp⟩).btMouseAdjust

/-- The touched position becomes the current one. -/
def touchAt (x y : ℤ) (s : TouchScreen) : TouchScreen :=
  { s with param := { s.param with axisX := x, axisY := y } }

/-- The position of the second contact. -/
def touchSecondAt (x1 y1 : ℤ) (s : TouchScreen) : TouchScreen :=
  { s with param := { s.param with axisX1 := x1, axisY1 := y1 } }

/-- Make the current position the previous one. -/
def rememberAxis (s : TouchScreen) : TouchScreen :=
  { s with param := { s.param with axisXp := s.param.axisX, axisYp := s.param.axisY } }

/-- A move: the way since the previous position, scaled on its way in and again on its
way out. -/
def sendMove (s : TouchScreen) : TouchScreen :=
  let moveXtemp := s.scaled s.param.moveXfix (s.param.axisX - s.param.axisXp)
  let moveYtemp := s.scaled s.param.moveYfix (s.param.axisY - s.param.axisYp)
  (s.sendHidModeCotrolData .touchMove (s.scaled s.param.moveXfix moveXtemp)
    (s.scaled s.param.moveYfix moveYtemp)).rememberAxis

/-- Touch of one finger. `tick` and `tickAfter` are what `GetPhoneLinkTickCount` returns
before and after a move is sent. -/
def procTouchInfo (x y : ℤ) (action : UInt8) (tick tickAfter : UInt32) (s : TouchScreen) :
    TouchScreen :=
  let s := s.touchAt x y
  if InvalidTouch s.geometry x y then s
  else
    match s.displayMode with
    | .phoneHorizontal =>
      match touchStatus action with
      | some .touchMove =>
        if tick - s.sTouchMsgClickTick < 80 then s
        else { s.sendMove with sTouchMsgClickTick := tickAfter }
      | some .touchDown =>
        (s.sendHidModeCotrolData .touchDown (s.scaled s.param.moveXfix x)
          (s.scaled s.param.moveYfix y)).rememberAxis
      | some .touchUp =>
        s.sendHidModeCotrolData .touchUp (s.scaled s.param.moveXfix x)
          (s.scaled s.param.moveYfix y)
      | none => s
    | .phoneVertical =>
      let x := x - s.param.vaildAxisXStart
      match touchStatus action with
      | some .touchMove => s.sendMove
      | some .touchDown =>
        (s.sendHidModeCotrolData .touchDown (s.scaled s.param.moveXfix x)
          (s.scaled s.param.moveYfix y)).rememberAxis
      | some .touchUp =>
        s.sendHidModeCotrolData .touchUp (s.scaled s.param.moveXfix x)
          (s.scaled s.param.moveYfix y)
      | none => s

/-! ### Touch of two fingers -/

/-- A touch frame for one contact. -/
def sendSppModeCotrolData (actionIn : TouchStatus) (serialNum : UInt8) (axisX axisY : ℤ)
    (spp : SppSender) : SppSender :=
  spp.sendCreated (.touchscreen (.ofInt axisX) (.ofInt axisY) actionIn.toUInt8 serialNum)

/-- The two touch frames, both with the action of the first contact. -/
def sendContacts (actionIn : TouchStatus) (x y x1 y1 : ℤ) (s : TouchScreen) (spp : SppSender) :
    SppSender :=
  let spp := sendSppModeCotrolData actionIn 0 (s.scaled s.param.moveXfix x)
    (s.scaled s.param.moveYfix y) spp
  sendSppModeCotrolData actionIn 1 (s.scaled s.param.moveXfix x1)
    (s.scaled s.param.moveYfix y1) spp

/-- Touch of two fingers. The second contact's action is never looked at. -/
def procDoubleTouchInfo (x y : ℤ) (action : UInt8) (x1 y1 : ℤ) (_action1 : UInt8)
    (tick tickAfter : UInt32) (s : TouchScreen) (spp : SppSender) : TouchScreen × SppSender :=
  let s := (s.touchAt x y).touchSecondAt x1 y1
  if InvalidTouch s.geometry x y ∨ InvalidTouch s.geometry x1 y1 then (s, spp)
  else
    match s.displayMode with
    | .phoneHorizontal =>
      match touchStatus action with
      | some .touchMove =>
        if tick - s.sDoubleTouchMsgClickTick < 80 then (s, spp)
        else ({ s with sDoubleTouchMsgClickTick := tickAfter },
          s.sendContacts .touchMove x y x1 y1 spp)
      | some status => (s, s.sendContacts status x y x1 y1 spp)
      | none => (s, spp)
    | .phoneVertical => (s, spp)

/-! ### What touches leave alone -/

/-- Arithmetic, display mode, connect mode and geometry are the same. -/
structure SameGeometry (s t : TouchScreen) : Prop where
  arithmetic_eq : t.arithmetic = s.arithmetic
  displayMode_eq : t.displayMode = s.displayMode
  phoneCurrentMode_eq : t.phoneCurrentMode = s.phoneCurrentMode
  geometry_eq : t.geometry = s.geometry

variable {s : TouchScreen} {x y x1 y1 : ℤ} {action action1 : UInt8} {tick tickAfter : UInt32}
  {spp : SppSender} {status : TouchStatus}

theorem sameGeometry_procTouchInfo :
    SameGeometry s (s.procTouchInfo x y action tick tickAfter) := by
  dsimp only [procTouchInfo]
  by_cases hinvalid : InvalidTouch (s.touchAt x y).geometry x y
  · rw [if_pos hinvalid]
    exact ⟨rfl, rfl, rfl, rfl⟩
  · rw [if_neg hinvalid]
    cases (s.touchAt x y).displayMode with
    | phoneHorizontal =>
      rcases touchStatus action with - | - | - | -
      · exact ⟨rfl, rfl, rfl, rfl⟩
      · exact ⟨rfl, rfl, rfl, rfl⟩
      · exact ⟨rfl, rfl, rfl, rfl⟩
      · -- only here the clock is asked
        dsimp only
        split_ifs
        · exact ⟨rfl, rfl, rfl, rfl⟩
        · exact ⟨rfl, rfl, rfl, rfl⟩
    | phoneVertical =>
      rcases touchStatus action with - | - | - | -
      · exact ⟨rfl, rfl, rfl, rfl⟩
      · exact ⟨rfl, rfl, rfl, rfl⟩
      · exact ⟨rfl, rfl, rfl, rfl⟩
      · exact ⟨rfl, rfl, rfl, rfl⟩

theorem sameGeometry_procDoubleTouchInfo :
    SameGeometry s (s.procDoubleTouchInfo x y action x1 y1 action1 tick tickAfter spp).1 := by
  have htouched : SameGeometry s ((s.touchAt x y).touchSecondAt x1 y1) := ⟨rfl, rfl, rfl, rfl⟩
  rw [procDoubleTouchInfo]
  generalize (s.touchAt x y).touchSecondAt x1 y1 = t at htouched
  by_cases hinvalid : InvalidTouch t.geometry x y ∨ InvalidTouch t.geometry x1 y1
  · rw [if_pos hinvalid]
    exact htouched
  · rw [if_neg hinvalid]
    cases hmode : t.displayMode with
    | phoneHorizontal =>
      rcases touchStatus action with - | - | - | -
      · exact htouched
      · exact htouched
      · exact htouched
      · dsimp only
        split_ifs
        · exact htouched
        · exact ⟨htouched.arithmetic_eq, hmode.symm.trans htouched.displayMode_eq,
            htouched.phoneCurrentMode_eq, htouched.geometry_eq⟩
    | phoneVertical => exact htouched

/-- Two fingers send no mouse report. -/
theorem mouseData_procDoubleTouchInfo :
    (s.procDoubleTouchInfo x y action x1 y1 action1 tick tickAfter spp).1.mouseData =
      s.mouseData := by
  have htouched : ((s.touchAt x y).touchSecondAt x1 y1).mouseData = s.mouseData := rfl
  rw [procDoubleTouchInfo, ← htouched]
  generalize (s.touchAt x y).touchSecondAt x1 y1 = t
  by_cases hinvalid : InvalidTouch t.geometry x y ∨ InvalidTouch t.geometry x1 y1
  · rw [if_pos hinvalid]
  · rw [if_neg hinvalid]
    cases t.displayMode with
    | phoneHorizontal =>
      rcases touchStatus action with - | - | - | -
      · rfl
      · rfl
      · rfl
      · dsimp only
        split_ifs <;> rfl
    | phoneVertical => rfl

/-! ### Touches of two fingers that are sent on -/

/-- A touch of two fingers that is sent on: both contacts are valid, the phone is held
horizontally, the first contact's action is known, and a move does not come too early. -/
structure Forwarded (s : TouchScreen) (x y : ℤ) (action : UInt8) (x1 y1 : ℤ) (tick : UInt32) :
    Prop where
  valid : ¬ (InvalidTouch s.geometry x y ∨ InvalidTouch s.geometry x1 y1)
  horizontal : s.displayMode = .phoneHorizontal
  known : touchStatus action ≠ none
  unthrottled : touchStatus action = some .touchMove → ¬ tick - s.sDoubleTouchMsgClickTick < 80

instance (s : TouchScreen) (x y : ℤ) (action : UInt8) (x1 y1 : ℤ) (tick : UInt32) :
    Decidable (s.Forwarded x y action x1 y1 tick) :=
  decidable_of_iff (¬ (InvalidTouch s.geometry x y ∨ InvalidTouch s.geometry x1 y1) ∧
      s.displayMode = .phoneHorizontal ∧ touchStatus action ≠ none ∧
      (touchStatus action = some .touchMove → ¬ tick - s.sDoubleTouchMsgClickTick < 80))
    ⟨fun ⟨hvalid, hmode, hknown, htick⟩ => ⟨hvalid, hmode, hknown, htick⟩,
      fun ⟨hvalid, hmode, hknown, htick⟩ => ⟨hvalid, hmode, hknown, htick⟩⟩

theorem toUInt8_of_touchStatus (h : touchStatus action = some status) :
    status.toUInt8 = action := by
  unfold touchStatus at h
  split_ifs at h with hmove hdown hup
  · obtain rfl := Option.some.inj h
    exact hmove.symm
  · obtain rfl := Option.some.inj h
    exact hdown.symm
  · obtain rfl := Option.some.inj h
    exact hup.symm

/-- A forwarded touch sends the two frames. -/
theorem procDoubleTouchInfo_of_forwarded (h : s.Forwarded x y action x1 y1 tick)
    (action1 : UInt8) (tickAfter : UInt32) (spp : SppSender) :
    ∃ status, touchStatus action = some status ∧
      (s.procDoubleTouchInfo x y action x1 y1 action1 tick tickAfter spp).2 =
        s.sendContacts status x y x1 y1 spp := by
  obtain ⟨hvalid, hmode, hknown, htick⟩ := h
  obtain ⟨status, hstatus⟩ := Option.ne_none_iff_exists'.mp hknown
  refine ⟨status, hstatus, ?_⟩
  have hmode' : ((s.touchAt x y).touchSecondAt x1 y1).displayMode = .phoneHorizontal := hmode
  have hvalid' : ¬ (InvalidTouch ((s.touchAt x y).touchSecondAt x1 y1).geometry x y ∨
    InvalidTouch ((s.touchAt x y).touchSecondAt x1 y1).geometry x1 y1) := hvalid
  rw [procDoubleTouchInfo, if_neg hvalid', hmode', hstatus]
  cases status with
  | touchMove => exact congrArg Prod.snd (if_neg (htick hstatus))
  | _ => rfl

/-- A touch that is not forwarded sends nothing. -/
theorem procDoubleTouchInfo_of_not_forwarded (h : ¬ s.Forwarded x y action x1 y1 tick) :
    (s.procDoubleTouchInfo x y action x1 y1 action1 tick tickAfter spp).2 = spp := by
  rw [procDoubleTouchInfo]
  by_cases hinvalid : InvalidTouch s.geometry x y ∨ InvalidTouch s.geometry x1 y1
  · exact congrArg Prod.snd (if_pos hinvalid)
  · refine (congrArg Prod.snd (if_neg hinvalid)).trans ?_
    cases hmode : ((s.touchAt x y).touchSecondAt x1 y1).displayMode with
    | phoneVertical => rfl
    | phoneHorizontal =>
      cases hstatus : touchStatus action with
      | none => rfl
      | some status =>
        have hknown : touchStatus action ≠ none := hstatus ▸ Option.some_ne_none _
        cases status with
        | touchMove =>
          refine congrArg Prod.snd (if_pos ?_)
          by_contra hlate
          exact h ⟨hinvalid, hmode, hknown, fun _ => hlate⟩
        | touchDown => exact (h ⟨hinvalid, hmode, hknown, by simp [hstatus]⟩).elim
        | touchUp => exact (h ⟨hinvalid, hmode, hknown, by simp [hstatus]⟩).elim

/-! ### The button -/

/-- No mouse report was sent, or the last one leaves the button up. -/
def Released (s : TouchScreen) : Prop :=
  ∀ data ∈ s.mouseData.getLast?, data.eButtonStatus = .btHidButtonNoneOrUp

instance (s : TouchScreen) : Decidable s.Released :=
  inferInstanceAs (Decidable (∀ data ∈ s.mouseData.getLast?, _))

/-- The last report decides. -/
theorem released_sendMouseData (data : BtHidMouseData) :
    (s.sendMouseData data).Released ↔ data.eButtonStatus = .btHidButtonNoneOrUp := by
  unfold Released sendMouseData
  rw [List.getLast?_concat]
  exact ⟨fun h => h data rfl, fun h data' hdata => by rwa [← Option.mem_some.mp hdata]⟩

theorem released_btMouseAdjust (s : TouchScreen) : s.btMouseAdjust.Released :=
  (released_sendMouseData _).mpr rfl

/-- Where a touch of one finger puts the button: nowhere if it is not valid, or a move that
comes too early. -/
def buttonSet? (s : TouchScreen) (x y : ℤ) (action : UInt8) (tick : UInt32) :
    Option BtButtonStatus :=
  if InvalidTouch s.geometry x y then none
  else
    match touchStatus action with
    | some .touchUp => some .btHidButtonNoneOrUp
    | some .touchDown => some .btHidButtonLDown
    | some .touchMove =>
      if s.displayMode = .phoneHorizontal ∧ tick - s.sTouchMsgClickTick < 80 then none
      else some .btHidButtonLDown
    | none => none

/-- A touch that puts the button nowhere is not reported. -/
theorem mouseData_procTouchInfo_of_none (h : s.buttonSet? x y action tick = none) :
    (s.procTouchInfo x y action tick tickAfter).mouseData = s.mouseData := by
  rw [procTouchInfo]
  dsimp only
  by_cases hinvalid : InvalidTouch (s.touchAt x y).geometry x y
  · rw [if_pos hinvalid]
    rfl
  · rw [if_neg hinvalid]
    rw [buttonSet?, if_neg (show ¬ InvalidTouch s.geometry x y from hinvalid)] at h
    cases hstatus : touchStatus action with
    | none => cases (s.touchAt x y).displayMode <;> rfl
    | some status =>
      rw [hstatus] at h
      cases status with
      | touchUp | touchDown => cases h
      | touchMove =>
        -- a move that comes too early
        dsimp only at h
        split_ifs at h with hearly
        have hmode : (s.touchAt x y).displayMode = .phoneHorizontal := hearly.1
        have hlt : tick - (s.touchAt x y).sTouchMsgClickTick < 80 := hearly.2
        rw [hmode]
        dsimp only
        rw [if_pos hlt]
        rfl

/-- The report of a touch leaves the button where the touch puts it. -/
theorem released_procTouchInfo_of_some {button : BtButtonStatus}
    (h : s.buttonSet? x y action tick = some button) :
    (s.procTouchInfo x y action tick tickAfter).Released ↔ button = .btHidButtonNoneOrUp := by
  rw [procTouchInfo]
  dsimp only
  by_cases hinvalid : InvalidTouch (s.touchAt x y).geometry x y
  · rw [buttonSet?, if_pos (show InvalidTouch s.geometry x y from hinvalid)] at h
    cases h
  · rw [if_neg hinvalid]
    rw [buttonSet?, if_neg (show ¬ InvalidTouch s.geometry x y from hinvalid)] at h
    cases hstatus : touchStatus action with
    | none =>
      rw [hstatus] at h
      cases h
    | some status =>
      rw [hstatus] at h
      cases status with
      | touchUp =>
        obtain rfl := Option.some.inj h
        -- the report of a touch up is followed by `bt_mouse_adjust`
        cases (s.touchAt x y).displayMode <;> exact iff_of_true (released_btMouseAdjust _) rfl
      | touchDown =>
        obtain rfl := Option.some.inj h
        cases (s.touchAt x y).displayMode <;> exact released_sendMouseData _
      | touchMove =>
        dsimp only at h
        split_ifs at h with hearly
        obtain rfl := Option.some.inj h
        -- only in horizontal mode a move can come too early
        cases hmode : (s.touchAt x y).displayMode with
        | phoneHorizontal =>
          have hlate : ¬ tick - (s.touchAt x y).sTouchMsgClickTick < 80 :=
            fun hlt => hearly ⟨hmode, hlt⟩
          dsimp only
          rw [if_neg hlate]
          exact released_sendMouseData _
        | phoneVertical => exact released_sendMouseData _

/-- A touch up leaves the button up exactly when it is valid or the button was up. -/
theorem released_procTouchInfo_up_iff :
    (s.procTouchInfo x y 0 tick tickAfter).Released ↔
      ¬ InvalidTouch s.geometry x y ∨ s.Released := by
  have htouched : (s.touchAt x y).Released ↔ s.Released := Iff.rfl
  have hwindow : InvalidTouch (s.touchAt x y).geometry x y ↔ InvalidTouch s.geometry x y := Iff.rfl
  rw [← htouched, ← hwindow, procTouchInfo]
  generalize s.touchAt x y = t
  dsimp only
  by_cases hinvalid : InvalidTouch t.geometry x y
  · -- the touch is dropped: the reports are those of before
    rw [if_pos hinvalid]
    exact ⟨.inr, fun h => h.resolve_left (not_not_intro hinvalid)⟩
  · rw [if_neg hinvalid]
    refine iff_of_true ?_ (.inl hinvalid)
    cases t.displayMode
    · exact released_btMouseAdjust _
    · exact released_btMouseAdjust _

end TouchScreen

end PhoneLink
