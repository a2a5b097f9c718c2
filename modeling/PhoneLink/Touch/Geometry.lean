import PhoneLink.CS.FloatArithmetic
import PhoneLink.CS.Trunc
import PhoneLink.Hmi.Status

/-!
# Touch geometry

The phone's picture stands on the car's screen in one of two ways: over the whole
screen when the phone is held horizontally, between two borders when it is held
vertically. Frames of the phone set the display mode, and some of them compute the
window in which touches are valid and the factors that map it to the phone's pixels.

The factors are quotients of `float`s, kept and used as `double`s. How a machine rounds
them is a parameter, of which exact rational numbers are one instance.

## Main definitions

* `TouchGeometry`, `TouchOperationParam`: `pl_screen_operation_param`
* `TouchScreen`: the parameters with the display mode and the mouse reports sent
* `TouchScreen.resolve`, `TouchScreen.direct`, `TouchScreen.setAppState`: what the three
  kinds of frames do to them
* `TouchScreen.Coherent`: window and factors are those of the display mode
-/

namespace PhoneLink

open CS

abbrev vehicleLcdWidth : ℤ := 800
abbrev vehicleLcdHeight : ℤ := 480

inductive PhoneDisplayMode
  | phoneHorizontal
  | phoneVertical
  deriving DecidableEq, Repr

inductive PhoneConnectMode
  | btConnectNone
  | btConnectedAndroidSpp
  | btConnectedAndroidHid
  deriving DecidableEq, Repr

/-- The part of `TOUCH_OPERATION_PARAM` that frames of the phone set: the sizes of the
phone and of the screen, the valid window, and the factors. -/
structure TouchGeometry where
  phoneHeight : ℤ
  phoneWidth : ℤ
  screenWidth : ℤ
  screenHeight : ℤ
  vaildAxisXStart : ℤ
  vaildAxisXEnd : ℤ
  vaildAxisYStart : ℤ
  vaildAxisYEnd : ℤ
  moveXfix : ℚ
  moveYfix : ℚ
  deriving DecidableEq

/-- `TOUCH_OPERATION_PARAM`: the geometry, and the positions of the touches. -/
structure TouchOperationParam extends TouchGeometry where
  axisX : ℤ
  axisY : ℤ
  axisXp : ℤ
  axisYp : ℤ
  axisX1 : ℤ
  axisY1 : ℤ
  deriving DecidableEq

namespace TouchGeometry

/-- After `init_phone_link`: zero but for the screen's size. -/
def start : TouchGeometry := ⟨0, 0, vehicleLcdWidth, vehicleLcdHeight, 0, 0, 0, 0, 0, 0⟩

/-- A new resolution of the phone. -/
def resize (phoneHeight phoneWidth : ℤ) (g : TouchGeometry) : TouchGeometry :=
  { g with phoneHeight := phoneHeight, phoneWidth := phoneWidth }

/-- The valid window and the factors for a phone held horizontally. -/
def horizontalWindow (arithmetic : FloatArithmetic) (g : TouchGeometry) : TouchGeometry :=
  { g with
    vaildAxisXStart := 0
    vaildAxisXEnd := g.screenWidth
    vaildAxisYStart := 0
    vaildAxisYEnd := g.screenHeight
    moveXfix := arithmetic.toFloat (g.phoneWidth / g.screenWidth)
    moveYfix := arithmetic.toFloat (g.phoneHeight / g.screenHeight) }

/-- The valid window and the factors for a phone held vertically. -/
def verticalWindow (arithmetic : FloatArithmetic) (g : TouchGeometry) : TouchGeometry :=
  let moveXfix := arithmetic.toFloat (g.phoneWidth / g.screenHeight)
  let picture := arithmetic.toDouble (g.phoneHeight / moveXfix)
  let vaildAxisXStart := arithmetic.toInt moveXfix
    (arithmetic.toDouble (arithmetic.toDouble (g.screenWidth - picture) / 2))
  { g with
    moveXfix := moveXfix
    moveYfix := moveXfix
    vaildAxisXStart := vaildAxisXStart
    vaildAxisXEnd := arithmetic.toInt moveXfix (arithmetic.toDouble (vaildAxisXStart + picture))
    vaildAxisYStart := 0
    vaildAxisYEnd := g.screenHeight }

/-- Window and factors are those for the way the phone is held, in exact numbers. -/
def Fits (g : TouchGeometry) : PhoneDisplayMode → Prop
  | .phoneHorizontal =>
    (g.vaildAxisXStart = 0 ∧ g.vaildAxisXEnd = g.screenWidth) ∧
      (g.vaildAxisYStart = 0 ∧ g.vaildAxisYEnd = g.screenHeight) ∧
      g.moveXfix = g.phoneWidth / g.screenWidth ∧ g.moveYfix = g.phoneHeight / g.screenHeight
  | .phoneVertical =>
    let s : ℚ := g.phoneWidth / g.screenHeight
    (g.moveXfix = s ∧ g.moveYfix = s) ∧
      g.vaildAxisXStart = trunc ((g.screenWidth - g.phoneHeight / s) / 2) ∧
      g.vaildAxisXEnd = trunc (g.vaildAxisXStart + g.phoneHeight / s) ∧
      g.vaildAxisYStart = 0 ∧ g.vaildAxisYEnd = g.screenHeight

instance decidableFits (g : TouchGeometry) : ∀ mode, Decidable (g.Fits mode)
  | .phoneHorizontal => inferInstanceAs (Decidable ((_ ∧ _) ∧ (_ ∧ _) ∧ _ ∧ _))
  | .phoneVertical => inferInstanceAs (Decidable ((_ ∧ _) ∧ _ ∧ _ ∧ _ ∧ _))

theorem fits_horizontalWindow (g : TouchGeometry) :
    (g.horizontalWindow .exact).Fits .phoneHorizontal :=
  ⟨⟨rfl, rfl⟩, ⟨rfl, rfl⟩, rfl, rfl⟩

/-- The window of an upright phone, as long as the phone has a size. -/
theorem fits_verticalWindow {g : TouchGeometry} (hwidth : g.phoneWidth ≠ 0)
    (hheight : g.screenHeight ≠ 0) : (g.verticalWindow .exact).Fits .phoneVertical := by
  have hfactor : (g.phoneWidth : ℚ) / g.screenHeight ≠ 0 :=
    div_ne_zero (Int.cast_ne_zero.mpr hwidth) (Int.cast_ne_zero.mpr hheight)
  exact ⟨⟨rfl, rfl⟩, FloatArithmetic.toInt_of_ne_zero hfactor,
    FloatArithmetic.toInt_of_ne_zero hfactor, rfl, rfl⟩

/-- The window of a phone of 720 × 1280 pixels ends a pixel earlier than it should. -/
example : ((start.resize 720 1280).verticalWindow .binary).vaildAxisXEnd = 534 ∧
    ((start.resize 720 1280).verticalWindow .exact).vaildAxisXEnd = 535 := by
  decide +kernel

end TouchGeometry

inductive BtButtonStatus
  | btHidButtonNoneOrUp
  | btHidButtonLDown
  | btHidButtonRDown
  | btHidButtonMDown
  deriving DecidableEq, Repr

/-- `BTHidMouseData`. The middle button is always reported as not moved. -/
structure BtHidMouseData where
  xOffset : Int16
  yOffset : Int16
  eButtonStatus : BtButtonStatus
  deriving DecidableEq

structure TouchScreen where
  /-- How the machine computes with `float` and `double`. -/
  arithmetic : FloatArithmetic
  displayMode : PhoneDisplayMode
  phoneCurrentMode : PhoneConnectMode
  param : TouchOperationParam
  /-- The tick of the last move of one finger sent in horizontal mode. -/
  sTouchMsgClickTick : UInt32
  /-- The tick of the last move of two fingers. -/
  sDoubleTouchMsgClickTick : UInt32
  /-- History: the reports given to `sendMouseData`. -/
  mouseData : List BtHidMouseData

namespace TouchScreen

/-- After `init_phone_link`. -/
def start (arithmetic : FloatArithmetic) : TouchScreen where
  arithmetic
  displayMode := .phoneHorizontal
  phoneCurrentMode := .btConnectedAndroidHid
  param := ⟨.start, 0, 0, 0, 0, 0, 0⟩
  sTouchMsgClickTick := 0
  sDoubleTouchMsgClickTick := 0
  mouseData := []

abbrev geometry (s : TouchScreen) : TouchGeometry := s.param.toTouchGeometry

/-- Change the geometry. -/
def reshape (f : TouchGeometry → TouchGeometry) (s : TouchScreen) : TouchScreen :=
  { s with param.toTouchGeometry := f s.geometry }

def setDisplayMode (displayMode : PhoneDisplayMode) (s : TouchScreen) : TouchScreen :=
  { s with displayMode := displayMode }

def sendMouseData (data : BtHidMouseData) (s : TouchScreen) : TouchScreen :=
  { s with mouseData := s.mouseData ++ [data] }

/-- Move the phone's pointer into its corner, button pressed and released. -/
def btMouseAdjust (s : TouchScreen) : TouchScreen :=
  (s.sendMouseData ⟨-4000, -4000, .btHidButtonLDown⟩).sendMouseData
    ⟨-4000, -4000, .btHidButtonNoneOrUp⟩

/-- The position after `bt_mouse_adjust`: the far corner of the window. -/
def toCorner (s : TouchScreen) : TouchScreen :=
  { s with param := { s.param with
      axisXp := s.param.vaildAxisXEnd
      axisYp := s.param.vaildAxisYEnd
      axisX := s.param.vaildAxisXEnd
      axisY := s.param.vaildAxisYEnd } }

/-- `dalink_spp_resolution_data_dispose`, with the two numbers of the frame. Equal
sides leave everything as it is. -/
def resolve (ratioWidth ratioHeight : ℕ) (s : TouchScreen) : TouchScreen :=
  if ratioHeight > ratioWidth then
    ((s.setDisplayMode .phoneVertical).reshape (.resize ratioWidth ratioHeight)).reshape
      (.verticalWindow s.arithmetic)
  else if ratioWidth > ratioHeight then
    ((s.setDisplayMode .phoneHorizontal).reshape (.resize ratioHeight ratioWidth)).reshape
      (.horizontalWindow s.arithmetic)
  else s

/-- The part of `dalink_spp_phone_dirction_data_dispose` before the status notice. -/
def direct (dirction : UInt8) (s : TouchScreen) : TouchScreen :=
  if dirction = 1 ∨ dirction = 3 then
    let s := (s.setDisplayMode .phoneHorizontal).reshape (.horizontalWindow s.arithmetic)
    if s.phoneCurrentMode = .btConnectedAndroidHid then s.btMouseAdjust.toCorner else s
  else
    let s := s.setDisplayMode .phoneVertical
    if s.phoneCurrentMode = .btConnectedAndroidHid then
      (s.reshape (.verticalWindow s.arithmetic)).btMouseAdjust.toCorner
    else if s.phoneCurrentMode = .btConnectedAndroidSpp then
      s.reshape (.horizontalWindow s.arithmetic)
    else s

/-- The part of `dalink_spp_phone_dalink_app_state_dispose` before the status notice:
the display mode alone. -/
def setAppState (state : UInt8) (s : TouchScreen) : TouchScreen :=
  if state = 0 then s.setDisplayMode .phoneHorizontal
  else if state = 1 then s.setDisplayMode .phoneVertical
  else s

/-- Window and factors are those of the display mode. -/
def Coherent (s : TouchScreen) : Prop := s.geometry.Fits s.displayMode

instance (s : TouchScreen) : Decidable s.Coherent :=
  inferInstanceAs (Decidable (s.geometry.Fits s.displayMode))

end TouchScreen

end PhoneLink
