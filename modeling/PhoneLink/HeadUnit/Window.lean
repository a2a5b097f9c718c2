import PhoneLink.HeadUnit.Pointing
import PhoneLink.Touch.Gesture

/-!
# The valid window

The frames that set the valid window divide by the screen's size, which never changes,
and by a factor computed from the phone's size, which is zero until a resolution with
unequal sides has come. Once one has come the window lies on the screen, and the place
where a valid touch goes down lies on the phone.

## Main definitions

* `Command.sizeSet?`: the phone's size that a command sets
* `Command.onTouch?`: what a command does to the touch parameters, undefined if it
  divides by zero
* `PhoneDisplayMode.extent`: the phone's extent along the axes of the screen

## Main results

* `phoneSize_run`: the phone's size is the one set last
* `divisions_defined_iff`: no division by zero exactly when no frame turns the phone
  upright before its size is known
* `accepted_touches_on_phone`: window and touches after resolutions and directions
-/

namespace PhoneLink

open CS CS.Transition

/-! ### The phone's size -/

/-- The shorter and the longer side of the phone. -/
def TouchGeometry.phoneSize (g : TouchGeometry) : ℤ × ℤ := (g.phoneHeight, g.phoneWidth)

namespace Command

/-- The size of the phone that a command sets. -/
def sizeSet? : Command → Option (ℤ × ℤ)
  | phoneInfoResolution ratioWidth ratioHeight =>
    if ratioHeight > ratioWidth then some (ratioWidth, ratioHeight)
    else if ratioWidth > ratioHeight then some (ratioHeight, ratioWidth)
    else none
  | _ => none

variable {c : Command} {s : TouchScreen} {size : ℤ × ℤ}

theorem phoneSize_onTouch :
    (c.onTouch s).geometry.phoneSize = c.sizeSet?.getD s.geometry.phoneSize := by
  cases c with
  | phoneInfoResolution ratioWidth ratioHeight =>
    dsimp only [onTouch, TouchScreen.resolve, sizeSet?]
    split_ifs <;> rfl
  | phoneDirection dirction =>
    dsimp only [onTouch, TouchScreen.direct]
    split_ifs <;> rfl
  | phoneDalinkAppState state =>
    dsimp only [onTouch, TouchScreen.setAppState]
    split_ifs <;> rfl
  | _ => rfl

/-- A size is set by a resolution with unequal sides. -/
theorem sizeSet?_eq_some_iff : c.sizeSet? = some size ↔ ∃ ratioWidth ratioHeight,
    c = phoneInfoResolution ratioWidth ratioHeight ∧ ratioWidth ≠ ratioHeight ∧
      size = (((min ratioWidth ratioHeight : ℕ) : ℤ), ((max ratioWidth ratioHeight : ℕ) : ℤ)) := by
  constructor
  · intro h
    cases c with
    | phoneInfoResolution ratioWidth ratioHeight =>
      dsimp only [sizeSet?] at h
      refine ⟨ratioWidth, ratioHeight, rfl, ?_⟩
      split_ifs at h with hvertical hhorizontal
      · rw [min_eq_left hvertical.le, max_eq_right hvertical.le]
        exact ⟨hvertical.ne, (Option.some.inj h).symm⟩
      · rw [min_eq_right hhorizontal.le, max_eq_left hhorizontal.le]
        exact ⟨hhorizontal.ne', (Option.some.inj h).symm⟩
    | _ => cases h
  · rintro ⟨ratioWidth, ratioHeight, rfl, hne, rfl⟩
    dsimp only [sizeSet?]
    rcases lt_or_gt_of_ne hne with hvertical | hhorizontal
    · rw [if_pos hvertical, min_eq_left hvertical.le, max_eq_right hvertical.le]
    · rw [if_neg hhorizontal.not_gt, if_pos hhorizontal, min_eq_right hhorizontal.le,
        max_eq_left hhorizontal.le]

end Command

/-- In every run the phone's size is the one set last, and zero before. -/
theorem phoneSize_run (env : Environment) (acts : List HeadAction) :
    (run HeadUnit.step (.start env) acts).touch.geometry.phoneSize =
      (lastOf Command.sizeSet? (commands acts)).getD (0, 0) := by
  induction acts using List.reverseRecOn with
  | nil => rfl
  | append_singleton acts a ih =>
    rw [run_concat]
    cases hcommand : a.command? with
    | none =>
      rw [commands_concat_of_none hcommand, ← ih]
      exact congrArg _ (HeadUnit.sameGeometry_step hcommand).geometry_eq
    | some c =>
      rw [commands_concat_of_some hcommand, HeadUnit.touch_step hcommand,
        Command.phoneSize_onTouch, ih]
      cases hset : c.sizeSet? with
      | none => rw [lastOf_concat_of_none hset, Option.getD_none]
      | some size => rw [lastOf_concat_of_some hset, Option.getD_some, Option.getD_some]

theorem phoneWidth_run (env : Environment) (acts : List HeadAction) :
    (run HeadUnit.step (.start env) acts).touch.geometry.phoneWidth =
      ((lastOf Command.sizeSet? (commands acts)).getD (0, 0)).2 :=
  congrArg Prod.snd (phoneSize_run env acts)

/-- The longer side is known once a resolution with unequal sides has come. -/
theorem phoneWidth_run_ne_zero_iff (env : Environment) (acts : List HeadAction) :
    (run HeadUnit.step (.start env) acts).touch.geometry.phoneWidth ≠ 0 ↔
      ∃ ratioWidth ratioHeight,
        .phoneInfoResolution ratioWidth ratioHeight ∈ commands acts ∧
          ratioWidth ≠ ratioHeight := by
  rw [phoneWidth_run]
  cases hlast : lastOf Command.sizeSet? (commands acts) with
  | none =>
    refine iff_of_false (not_not_intro rfl) ?_
    rintro ⟨ratioWidth, ratioHeight, hmem, hne⟩
    have hset := Command.sizeSet?_eq_some_iff.mpr ⟨ratioWidth, ratioHeight, rfl, hne, rfl⟩
    exact absurd (hset.symm.trans (lastOf_eq_none_iff.mp hlast _ hmem)) (Option.some_ne_none _)
  | some size =>
    obtain ⟨c, hmem, hset⟩ := exists_of_lastOf hlast
    obtain ⟨ratioWidth, ratioHeight, rfl, hne, rfl⟩ := Command.sizeSet?_eq_some_iff.mp hset
    refine iff_of_true ?_ ⟨ratioWidth, ratioHeight, hmem, hne⟩
    rw [Option.getD_some]
    dsimp only
    omega

/-! ### Divisions -/

/-- A division of the source. -/
def quotient (a b : ℚ) : Option ℚ := if b = 0 then none else some (a / b)

namespace TouchGeometry

/-- `horizontalWindow`, undefined if it divides by zero. -/
def horizontalWindow? (arithmetic : FloatArithmetic) (g : TouchGeometry) :
    Option TouchGeometry := do
  let moveXfix ← quotient g.phoneWidth g.screenWidth
  let moveYfix ← quotient g.phoneHeight g.screenHeight
  return { g with
    vaildAxisXStart := 0
    vaildAxisXEnd := g.screenWidth
    vaildAxisYStart := 0
    vaildAxisYEnd := g.screenHeight
    moveXfix := arithmetic.toFloat moveXfix
    moveYfix := arithmetic.toFloat moveYfix }

/-- `verticalWindow`, undefined if it divides by zero. -/
def verticalWindow? (arithmetic : FloatArithmetic) (g : TouchGeometry) :
    Option TouchGeometry := do
  let moveXfix := arithmetic.toFloat (← quotient g.phoneWidth g.screenHeight)
  let border := arithmetic.toDouble (← quotient g.phoneHeight moveXfix)
  let vaildAxisXStart :=
    trunc (arithmetic.toDouble (arithmetic.toDouble (g.screenWidth - border) / 2))
  let picture := arithmetic.toDouble (← quotient g.phoneHeight moveXfix)
  return { g with
    moveXfix := moveXfix
    moveYfix := moveXfix
    vaildAxisXStart := vaildAxisXStart
    vaildAxisXEnd := trunc (arithmetic.toDouble (vaildAxisXStart + picture))
    vaildAxisYStart := 0
    vaildAxisYEnd := g.screenHeight }

end TouchGeometry

open TouchGeometry (horizontalWindow? verticalWindow?)

namespace TouchScreen

/-- `reshape`, undefined where the new geometry is. -/
def reshape? (f : TouchGeometry → Option TouchGeometry) (s : TouchScreen) : Option TouchScreen :=
  (f s.geometry).map fun g => s.reshape fun _ => g

/-- `resolve`, undefined if it divides by zero. -/
def resolve? (ratioWidth ratioHeight : ℕ) (s : TouchScreen) : Option TouchScreen :=
  if ratioHeight > ratioWidth then
    ((s.setDisplayMode .phoneVertical).reshape (.resize ratioWidth ratioHeight)).reshape?
      (verticalWindow? s.arithmetic)
  else if ratioWidth > ratioHeight then
    ((s.setDisplayMode .phoneHorizontal).reshape (.resize ratioHeight ratioWidth)).reshape?
      (horizontalWindow? s.arithmetic)
  else some s

/-- `direct`, undefined if it divides by zero. -/
def direct? (dirction : UInt8) (s : TouchScreen) : Option TouchScreen := do
  if dirction = 1 ∨ dirction = 3 then
    let s ← (s.setDisplayMode .phoneHorizontal).reshape? (horizontalWindow? s.arithmetic)
    return if s.phoneCurrentMode = .btConnectedAndroidHid then s.btMouseAdjust.toCorner else s
  else
    let s := s.setDisplayMode .phoneVertical
    if s.phoneCurrentMode = .btConnectedAndroidHid then
      let s ← s.reshape? (verticalWindow? s.arithmetic)
      return s.btMouseAdjust.toCorner
    else if s.phoneCurrentMode = .btConnectedAndroidSpp then
      s.reshape? (horizontalWindow? s.arithmetic)
    else return s

end TouchScreen

/-- `onTouch`, undefined if it divides by zero. -/
def Command.onTouch? (c : Command) (s : TouchScreen) : Option TouchScreen :=
  match c with
  | phoneInfoResolution ratioWidth ratioHeight => s.resolve? ratioWidth ratioHeight
  | phoneDirection dirction => s.direct? dirction
  | phoneDalinkAppState state => some (s.setAppState state)
  | _ => some s

theorem quotient_of_ne_zero {a b : ℚ} (h : b ≠ 0) : quotient a b = some (a / b) := if_neg h

section Division

variable {arithmetic : FloatArithmetic} {g : TouchGeometry} {s : TouchScreen} {c : Command}

theorem horizontalWindow?_eq (hwidth : g.screenWidth ≠ 0) (hheight : g.screenHeight ≠ 0) :
    g.horizontalWindow? arithmetic = some (g.horizontalWindow arithmetic) := by
  have hwidth' : (g.screenWidth : ℚ) ≠ 0 := Int.cast_ne_zero.mpr hwidth
  have hheight' : (g.screenHeight : ℚ) ≠ 0 := Int.cast_ne_zero.mpr hheight
  rw [TouchGeometry.horizontalWindow?, quotient_of_ne_zero hwidth', quotient_of_ne_zero hheight']
  rfl

/-- The factor of the upright window is a divisor too. However it is rounded, it is zero
only for a phone without a size. -/
theorem verticalWindow?_eq (hheight : g.screenHeight ≠ 0) :
    g.verticalWindow? arithmetic =
      if g.phoneWidth = 0 then none else some (g.verticalWindow arithmetic) := by
  have hheight' : (g.screenHeight : ℚ) ≠ 0 := Int.cast_ne_zero.mpr hheight
  rw [TouchGeometry.verticalWindow?, quotient_of_ne_zero hheight']
  split_ifs with hwidth
  · have hfactor : arithmetic.toFloat (g.phoneWidth / g.screenHeight) = 0 := by
      rw [arithmetic.toFloat_eq_zero_iff, hwidth, Int.cast_zero, zero_div]
    simp [hfactor, quotient]
  · have hfactor : arithmetic.toFloat (g.phoneWidth / g.screenHeight) ≠ 0 := by
      rw [Ne, arithmetic.toFloat_eq_zero_iff]
      exact div_ne_zero (Int.cast_ne_zero.mpr hwidth) hheight'
    rw [TouchGeometry.verticalWindow]
    simp only [Option.bind_eq_bind, Option.bind_some, quotient_of_ne_zero hfactor,
      FloatArithmetic.toInt_of_ne_zero hfactor]
    rfl

theorem reshape?_horizontalWindow? (hwidth : s.geometry.screenWidth ≠ 0)
    (hheight : s.geometry.screenHeight ≠ 0) :
    s.reshape? (horizontalWindow? arithmetic) =
      some (s.reshape (.horizontalWindow arithmetic)) := by
  rw [TouchScreen.reshape?, horizontalWindow?_eq hwidth hheight]
  rfl

theorem reshape?_verticalWindow? (hheight : s.geometry.screenHeight ≠ 0) :
    s.reshape? (verticalWindow? arithmetic) =
      if s.geometry.phoneWidth = 0 then none
      else some (s.reshape (.verticalWindow arithmetic)) := by
  rw [TouchScreen.reshape?, verticalWindow?_eq hheight]
  split_ifs <;> rfl

/-- On a screen with a size, only a direction that turns the phone upright can divide by
zero: by the factor of a phone without a size. -/
theorem onTouch?_eq_some_iff (hid : s.phoneCurrentMode = .btConnectedAndroidHid)
    (hwidth : s.geometry.screenWidth ≠ 0) (hheight : s.geometry.screenHeight ≠ 0) :
    c.onTouch? s = some (c.onTouch s) ↔
      ∀ dirction, c = .phoneDirection dirction → dirction ≠ 1 → dirction ≠ 3 →
        s.geometry.phoneWidth ≠ 0 := by
  cases c with
  | phoneInfoResolution ratioWidth ratioHeight =>
    refine iff_of_true ?_ fun dirction h => nomatch h
    dsimp only [Command.onTouch?, Command.onTouch, TouchScreen.resolve?, TouchScreen.resolve]
    split_ifs with hvertical hhorizontal
    · -- the longer side is above zero
      rw [reshape?_verticalWindow?, if_neg]
      · exact Int.natCast_ne_zero.mpr (by omega)
      · exact hheight
    · exact reshape?_horizontalWindow? hwidth hheight
    · rfl
  | phoneDirection dirction =>
    dsimp only [Command.onTouch?, Command.onTouch, TouchScreen.direct?, TouchScreen.direct]
    by_cases hdirction : dirction = 1 ∨ dirction = 3
    · have hwindow :
          (s.setDisplayMode .phoneHorizontal).reshape? (horizontalWindow? s.arithmetic) =
            some ((s.setDisplayMode .phoneHorizontal).reshape (.horizontalWindow s.arithmetic)) :=
        reshape?_horizontalWindow? hwidth hheight
      rw [if_pos hdirction, if_pos hdirction, hwindow]
      refine iff_of_true rfl ?_
      rintro _ ⟨⟩ hone hthree
      exact (hdirction.elim hone hthree).elim
    · have hmode : (s.setDisplayMode .phoneVertical).phoneCurrentMode =
        .btConnectedAndroidHid := hid
      have hwindow :
          (s.setDisplayMode .phoneVertical).reshape?
              (verticalWindow? (s.setDisplayMode .phoneVertical).arithmetic) =
            if s.geometry.phoneWidth = 0 then none
            else some ((s.setDisplayMode .phoneVertical).reshape
              (.verticalWindow (s.setDisplayMode .phoneVertical).arithmetic)) :=
        reshape?_verticalWindow? hheight
      rw [if_neg hdirction, if_neg hdirction, if_pos hmode, if_pos hmode, hwindow]
      rw [not_or] at hdirction
      by_cases hsize : s.geometry.phoneWidth = 0
      · rw [if_pos hsize]
        refine iff_of_false (Option.some_ne_none _).symm fun h => ?_
        exact h dirction rfl hdirction.1 hdirction.2 hsize
      · rw [if_neg hsize]
        exact iff_of_true rfl fun _ _ _ _ => hsize
  | _ => exact iff_of_true rfl fun dirction h => nomatch h

end Division

/-- The command of a run between those before and behind it. -/
theorem commands_eq_split {acts : List HeadAction} {cs cs' : List Command} {c : Command} :
    commands acts = cs ++ c :: cs' ↔ ∃ before a after, acts = before ++ a :: after ∧
      a.command? = some c ∧ commands before = cs ∧ commands after = cs' := by
  constructor
  · intro h
    obtain ⟨before, rest, rfl, hbefore, hrest⟩ := List.filterMap_eq_append_iff.mp h
    obtain ⟨quiet, a, after, rfl, hquiet, ha, hafter⟩ := List.filterMap_eq_cons_iff.mp hrest
    refine ⟨before ++ quiet, a, after, by simp, ha, ?_, hafter⟩
    rw [commands, List.filterMap_append, hbefore, List.filterMap_eq_nil_iff.mpr hquiet,
      List.append_nil]
  · rintro ⟨before, a, after, rfl, ha, rfl, rfl⟩
    rw [commands, List.filterMap_append, List.filterMap_cons_some ha]
    rfl

/-- The handlers of the step's command divide by no zero, and the state after the step is
the one they compute. -/
def DividesByNoZero (s : HeadUnit) (a : HeadAction) (t : HeadUnit) : Prop :=
  ∀ c, a.command? = some c → c.onTouch? s.touch = some t.touch

/-- **Divisions.** In every run, however the machine rounds, all divisions of the handlers of
resolutions and directions are defined exactly when every direction that turns the phone
upright comes behind some resolution with unequal sides. -/
theorem divisions_defined_iff (env : Environment) (acts : List HeadAction) :
    Throughout HeadUnit.step DividesByNoZero (.start env) acts ↔
      ∀ cs dirction cs', commands acts = cs ++ .phoneDirection dirction :: cs' →
        dirction ≠ 1 → dirction ≠ 3 → ∃ ratioWidth ratioHeight,
          .phoneInfoResolution ratioWidth ratioHeight ∈ cs ∧ ratioWidth ≠ ratioHeight := by
  have hstep (before : List HeadAction) (a : HeadAction) (c : Command)
      (ha : a.command? = some c) :=
    let htracks := tracks_run env before
    HeadUnit.touch_step (s := run HeadUnit.step (.start env) before) ha ▸
      onTouch?_eq_some_iff (c := c) htracks.hid (htracks.screenWidth_eq ▸ by decide)
        (htracks.screenHeight_eq ▸ by decide)
  rw [throughout_iff_split]
  constructor
  · intro h cs dirction cs' hsplit hone hthree
    obtain ⟨before, a, after, rfl, ha, rfl, -⟩ := commands_eq_split.mp hsplit
    have hdefined := (hstep before a _ ha).mp (h before a after rfl _ ha)
    exact (phoneWidth_run_ne_zero_iff env before).mp
      (hdefined dirction rfl hone hthree)
  · rintro h before a after rfl c ha
    refine (hstep before a c ha).mpr ?_
    rintro dirction rfl hone hthree
    exact (phoneWidth_run_ne_zero_iff env before).mpr
      (h _ dirction _ (commands_eq_split.mpr ⟨before, a, after, rfl, ha, rfl, rfl⟩) hone hthree)

/-- The first frame after the start says that the phone is held upright. -/
theorem upright_before_resolution_divides_by_zero :
    ¬ Throughout HeadUnit.step DividesByNoZero (.start (.quiet .exact))
      [.phonestate btSppMessagePhoneDirection 0] := by
  intro hrun
  have hdefined := hrun.1 (.phoneDirection 0) (by decide +kernel)
  have hnone : ((Command.phoneDirection 0).onTouch? (.start .exact)).isNone = true := by
    decide +kernel
  exact absurd (hdefined.symm.trans (Option.isNone_iff_eq_none.mp hnone)) (Option.some_ne_none _)

/-! ### Window and touches -/

namespace TouchGeometry

variable {g : TouchGeometry} {mode : PhoneDisplayMode}

/-- The valid window lies on the screen. -/
structure OnScreen (g : TouchGeometry) : Prop where
  vaildAxisXStart_nonneg : 0 ≤ g.vaildAxisXStart
  vaildAxisX_le : g.vaildAxisXStart ≤ g.vaildAxisXEnd
  vaildAxisXEnd_le : g.vaildAxisXEnd ≤ g.screenWidth
  vaildAxisYStart_nonneg : 0 ≤ g.vaildAxisYStart
  vaildAxisY_le : g.vaildAxisYStart ≤ g.vaildAxisYEnd
  vaildAxisYEnd_le : g.vaildAxisYEnd ≤ g.screenHeight

theorem onScreen_of_fits (hwidth : g.screenWidth = vehicleLcdWidth)
    (hheight : g.screenHeight = vehicleLcdHeight) (hresolved : g.Resolved) (hfits : g.Fits mode) :
    g.OnScreen := by
  have hwidth' : g.screenWidth = 800 := hwidth
  have hheight' : g.screenHeight = 480 := hheight
  cases mode with
  | phoneHorizontal =>
    obtain ⟨⟨hxs, hxe⟩, ⟨hys, hye⟩, -⟩ := hfits
    constructor <;> omega
  | phoneVertical =>
    have hstart := vaildAxisXStart_of_vertical hwidth hheight hresolved hfits
    obtain ⟨hnonneg, hle⟩ := picture_bounds hheight hresolved
    obtain ⟨-, hxs, hxe, hys, hye⟩ := hfits
    rw [← picture] at hxs hxe
    have hstart' : (0 : ℚ) ≤ g.vaildAxisXStart := by
      exact_mod_cast (by decide : (0 : ℤ) ≤ 160).trans hstart
    -- half of what the picture leaves free stands before it
    have hborder : (g.vaildAxisXStart : ℚ) ≤ (800 - g.picture) / 2 := by
      rw [hxs, hwidth']
      push_cast
      exact trunc_le (by linarith)
    have hend : (g.vaildAxisXEnd : ℚ) ≤ 800 := by
      have htrunc := trunc_le (add_nonneg hstart' hnonneg)
      rw [← hxe] at htrunc
      linarith
    constructor
    · omega
    · exact hxe ▸ le_trunc (add_nonneg hstart' hnonneg) (by linarith)
    · rw [hwidth']
      exact_mod_cast hend
    · omega
    · omega
    · omega

end TouchGeometry

/-- The extent along the axes of the screen of a phone with a shorter and a longer side. -/
def PhoneDisplayMode.extent (size : ℤ × ℤ) : PhoneDisplayMode → ℤ × ℤ
  | .phoneHorizontal => (size.2, size.1)
  | .phoneVertical => size

namespace TouchScreen

variable {s : TouchScreen} {x y x' y' : ℤ} {tick tickAfter : UInt32}

/-- A valid touch down is one report, with the button down. -/
theorem mouseData_procTouchInfo_down (hvalid : ¬ InvalidTouch s.geometry x y) :
    (s.procTouchInfo x y 1 tick tickAfter).mouseData = s.mouseData ++
      [⟨.ofInt (s.downOffset x y).1, .ofInt (s.downOffset x y).2, .btHidButtonLDown⟩] := by
  rw [procTouchInfo_of_down hvalid rfl]
  rfl

/-- Scaling by a nonnegative factor keeps the order. -/
theorem trunc_mul_mono {f : ℚ} (hf : 0 ≤ f) (h : x ≤ x') :
    trunc ((x : ℚ) * f) ≤ trunc ((x' : ℚ) * f) :=
  trunc_mono (mul_le_mul_of_nonneg_right (Int.cast_le.mpr h) hf)

/-- A position between `0` and `n` pixels of the screen lands between `0` and `m` pixels of
the phone, if the factor takes `n` to no more than `m`. -/
theorem trunc_mul_bounds {f n : ℚ} {m : ℤ} (hf : 0 ≤ f) (hx : 0 ≤ x) (hxn : (x : ℚ) ≤ n)
    (hnm : n * f ≤ m) : 0 ≤ trunc ((x : ℚ) * f) ∧ trunc ((x : ℚ) * f) ≤ m := by
  have hx' : (0 : ℚ) ≤ x := by exact_mod_cast hx
  have hnonneg : 0 ≤ (x : ℚ) * f := mul_nonneg hx' hf
  refine ⟨trunc_nonneg hnonneg, ?_⟩
  have hle : (trunc ((x : ℚ) * f) : ℚ) ≤ m :=
    (trunc_le hnonneg).trans ((mul_le_mul_of_nonneg_right hxn hf).trans hnm)
  exact_mod_cast hle

section Coherent

variable (hwidth : s.geometry.screenWidth = vehicleLcdWidth)
  (hheight : s.geometry.screenHeight = vehicleLcdHeight) (hresolved : s.geometry.Resolved)
  (hcoherent : s.Coherent)

include hwidth hheight hresolved hcoherent

/-- The factors are those of the display mode, so they are not negative. -/
theorem factors_nonneg : 0 ≤ s.geometry.moveXfix ∧ 0 ≤ s.geometry.moveYfix := by
  have hshort : (0 : ℚ) ≤ s.geometry.phoneHeight := by exact_mod_cast hresolved.1
  have hlong : (0 : ℚ) ≤ s.geometry.phoneWidth := by
    exact_mod_cast hresolved.1.trans hresolved.2.le
  rw [Coherent] at hcoherent
  cases hmode : s.displayMode with
  | phoneHorizontal =>
    rw [hmode] at hcoherent
    obtain ⟨-, -, hx, hy⟩ := hcoherent
    rw [hx, hy, hwidth, hheight]
    push_cast
    exact ⟨by positivity, by positivity⟩
  | phoneVertical =>
    rw [hmode] at hcoherent
    obtain ⟨⟨hx, hy⟩, -⟩ := hcoherent
    rw [hx, hy, hheight]
    push_cast
    exact ⟨by positivity, by positivity⟩

theorem downOffset_mono (hexact : s.arithmetic = .exact) :
    (x ≤ x' → (s.downOffset x y).1 ≤ (s.downOffset x' y').1) ∧
      (y ≤ y' → (s.downOffset x y).2 ≤ (s.downOffset x' y').2) := by
  obtain ⟨hx, hy⟩ := factors_nonneg hwidth hheight hresolved hcoherent
  rw [downOffset_of_exact hexact, downOffset_of_exact hexact]
  unfold mapped
  cases s.displayMode with
  | phoneHorizontal => exact ⟨trunc_mul_mono hx, trunc_mul_mono hy⟩
  | phoneVertical =>
    exact ⟨fun h => trunc_mul_mono hx (Int.sub_le_sub_right h _), trunc_mul_mono hy⟩

/-- A valid touch goes down on the phone. -/
theorem downOffset_bounds (hexact : s.arithmetic = .exact)
    (hvalid : ¬ InvalidTouch s.geometry x y) :
    (0 ≤ (s.downOffset x y).1 ∧
      (s.downOffset x y).1 ≤ (s.displayMode.extent s.geometry.phoneSize).1) ∧
      0 ≤ (s.downOffset x y).2 ∧
        (s.downOffset x y).2 ≤ (s.displayMode.extent s.geometry.phoneSize).2 := by
  obtain ⟨hx, hy⟩ := factors_nonneg hwidth hheight hresolved hcoherent
  simp only [InvalidTouch, not_or, not_lt] at hvalid
  obtain ⟨hleft, hright, htop, hbottom⟩ := hvalid
  have hwidth' : (s.geometry.screenWidth : ℚ) = 800 := by
    rw [hwidth]
    rfl
  have hheight' : (s.geometry.screenHeight : ℚ) = 480 := by
    rw [hheight]
    rfl
  rw [Coherent] at hcoherent
  rw [downOffset_of_exact hexact]
  unfold mapped PhoneDisplayMode.extent TouchGeometry.phoneSize
  cases hmode : s.displayMode with
  | phoneHorizontal =>
    rw [hmode] at hcoherent
    obtain ⟨⟨hxs, hxe⟩, ⟨hys, hye⟩, hxfix, hyfix⟩ := hcoherent
    refine ⟨trunc_mul_bounds (n := 800) hx (by omega) ?_ ?_,
      trunc_mul_bounds (n := 480) hy (by omega) ?_ ?_⟩
    · rw [← hwidth', ← hxe]
      exact_mod_cast hright
    · rw [hxfix, hwidth']
      linarith
    · rw [← hheight', ← hye]
      exact_mod_cast hbottom
    · rw [hyfix, hheight']
      linarith
  | phoneVertical =>
    have hstart := TouchGeometry.vaildAxisXStart_of_vertical hwidth hheight hresolved
      (hmode ▸ hcoherent)
    have hpicture := (TouchGeometry.picture_bounds hheight hresolved).1
    rw [hmode] at hcoherent
    obtain ⟨⟨hxfix, hyfix⟩, -, hxe, hys, hye⟩ := hcoherent
    rw [← TouchGeometry.picture] at hxe
    have hlong : (0 : ℚ) < s.geometry.phoneWidth := by
      exact_mod_cast hresolved.1.trans_lt hresolved.2
    refine ⟨trunc_mul_bounds (n := s.geometry.picture) hx (sub_nonneg.mpr hleft) ?_ ?_,
      trunc_mul_bounds (n := 480) hy (by omega) ?_ ?_⟩
    · -- the window ends where the picture does, or before
      have hstart' : (0 : ℚ) ≤ s.geometry.vaildAxisXStart := by
        exact_mod_cast (by decide : (0 : ℤ) ≤ 160).trans hstart
      have hend := trunc_le (add_nonneg hstart' hpicture)
      rw [← hxe] at hend
      have hright' : (x : ℚ) ≤ s.geometry.vaildAxisXEnd := by exact_mod_cast hright
      push_cast
      linarith
    · rw [hxfix, TouchGeometry.picture, hheight', div_mul_cancel₀]
      positivity
    · rw [← hheight', ← hye]
      exact_mod_cast hbottom
    · rw [hyfix, hheight']
      linarith

end Coherent

end TouchScreen

/-- A frame of a sequence of resolutions and directions, the resolutions with unequal sides
that a `short` can hold. -/
def OrientationCommand (c : Command) : Prop :=
  (∃ dirction, c = .phoneDirection dirction) ∨ ∃ ratioWidth ratioHeight,
    c = .phoneInfoResolution ratioWidth ratioHeight ∧ ratioWidth ≠ ratioHeight ∧
      ratioWidth < 2 ^ 15 ∧ ratioHeight < 2 ^ 15

namespace OrientationCommand

variable {acts : List HeadAction}

/-- Resolutions and directions set the display mode together with its window. -/
theorem lastOf_eq (hall : ∀ c ∈ commands acts, OrientationCommand c) :
    lastOf Command.displaySet? (commands acts) = lastOf Command.windowSet? (commands acts) := by
  have hsame : ∀ c ∈ commands acts, Command.displaySet? c = Command.windowSet? c := by
    intro c hc
    rcases hall c hc with ⟨dirction, rfl⟩ | ⟨ratioWidth, ratioHeight, rfl, -⟩
    · rfl
    · rfl
  exact congrArg List.getLast? (List.filterMap_congr hsame)

/-- The phone's sides stay below `2 ^ 15`. -/
theorem phoneWidth_lt (env : Environment)
    (hall : ∀ c ∈ commands acts, OrientationCommand c) :
    (run HeadUnit.step (.start env) acts).touch.geometry.phoneWidth < 2 ^ 15 := by
  rw [phoneWidth_run]
  cases hlast : lastOf Command.sizeSet? (commands acts) with
  | none => exact Int.pow_pos (by decide)
  | some size =>
    obtain ⟨c, hmem, hset⟩ := exists_of_lastOf hlast
    obtain ⟨ratioWidth, ratioHeight, rfl, -, rfl⟩ := Command.sizeSet?_eq_some_iff.mp hset
    rcases hall _ hmem with ⟨dirction, heq⟩ | ⟨_, _, ⟨⟩, -, hw, hh⟩
    · cases heq
    · rw [Option.getD_some]
      dsimp only
      exact_mod_cast max_lt hw hh

end OrientationCommand

/-- **Accepted touches.** In exact numbers, after any sequence of resolutions and directions
that starts with a resolution, whatever comes between them: the valid window lies on the
screen, a valid touch down is one report of a place that a `short` can hold and that lies on
a phone of the size announced last, and a touch further to the right or further down is
reported no further to the left or up. -/
theorem accepted_touches_on_phone (arrivals : List (ℕ × BtSppDalinkAck))
    (writeResults : ℕ → Bool) (acts : List HeadAction)
    (hfirst : ∃ ratioWidth ratioHeight cs,
      commands acts = .phoneInfoResolution ratioWidth ratioHeight :: cs)
    (hall : ∀ c ∈ commands acts, OrientationCommand c) :
    let s := (run HeadUnit.step (.start ⟨.exact, arrivals, writeResults⟩) acts).touch
    ∃ size, lastOf Command.sizeSet? (commands acts) = some size ∧
      s.geometry.OnScreen ∧
      (∀ x y tick tickAfter, ¬ InvalidTouch s.geometry x y → ∃ data,
        (s.procTouchInfo x y 1 tick tickAfter).mouseData = s.mouseData ++ [data] ∧
          data.eButtonStatus = .btHidButtonLDown ∧
          (data.xOffset.toInt, data.yOffset.toInt) = s.downOffset x y ∧
          (0 ≤ data.xOffset.toInt ∧ data.xOffset.toInt ≤ (s.displayMode.extent size).1) ∧
          0 ≤ data.yOffset.toInt ∧ data.yOffset.toInt ≤ (s.displayMode.extent size).2) ∧
      ∀ x y x' y', (x ≤ x' → (s.downOffset x y).1 ≤ (s.downOffset x' y').1) ∧
        (y ≤ y' → (s.downOffset x y).2 ≤ (s.downOffset x' y').2) := by
  intro s
  have htracks : Tracks .exact (commands acts) s :=
    tracks_run ⟨.exact, arrivals, writeResults⟩ acts
  obtain ⟨ratioWidth, ratioHeight, cs, hcommands⟩ := hfirst
  have hmem : .phoneInfoResolution ratioWidth ratioHeight ∈ commands acts :=
    hcommands ▸ List.mem_cons_self
  have hne : ratioWidth ≠ ratioHeight := by
    rcases hall _ hmem with ⟨dirction, heq⟩ | ⟨_, _, ⟨⟩, hne, -⟩
    · cases heq
    · exact hne
  have hresolved := htracks.resolved _ _ hmem hne
  have hlong : s.geometry.phoneWidth < 2 ^ 15 :=
    OrientationCommand.phoneWidth_lt ⟨.exact, arrivals, writeResults⟩ hall
  -- the resolution has set a size, and the parameters have kept the last one
  obtain ⟨size, hlast⟩ :=
    exists_lastOf hmem (Command.sizeSet?_eq_some_iff.mpr ⟨_, _, rfl, hne, rfl⟩)
  have hsize : s.geometry.phoneSize = size :=
    (phoneSize_run ⟨.exact, arrivals, writeResults⟩ acts).trans (by rw [hlast]; rfl)
  -- display mode and window are always set together
  have hcoherent : s.Coherent := by
    obtain ⟨set, hset⟩ := Command.exists_displaySet hne
    obtain ⟨mode, hdisplay⟩ := exists_lastOf hmem hset
    rw [TouchScreen.Coherent, htracks.display _ hdisplay]
    exact htracks.window rfl hresolved _
      ((OrientationCommand.lastOf_eq hall).symm.trans hdisplay)
  have hexact := htracks.arithmetic_eq
  have hwidth := htracks.screenWidth_eq
  have hheight := htracks.screenHeight_eq
  refine ⟨size, hlast, TouchGeometry.onScreen_of_fits hwidth hheight hresolved hcoherent, ?_,
    fun x y x' y' => TouchScreen.downOffset_mono hwidth hheight hresolved hcoherent hexact⟩
  intro x y tick tickAfter hvalid
  obtain ⟨hx, hy⟩ := TouchScreen.downOffset_bounds hwidth hheight hresolved hcoherent hexact hvalid
  rw [hsize] at hx hy
  have hextent : (s.displayMode.extent size).1 < 2 ^ 15 ∧
      (s.displayMode.extent size).2 < 2 ^ 15 := by
    have hshort := hresolved.2
    rw [← hsize]
    unfold PhoneDisplayMode.extent
    cases s.displayMode with
    | phoneHorizontal => exact ⟨hlong, hshort.trans hlong⟩
    | phoneVertical => exact ⟨hshort.trans hlong, hlong⟩
  have hxshort := Int16.toInt_ofInt_of_le (by omega) (hx.2.trans_lt hextent.1)
  have hyshort := Int16.toInt_ofInt_of_le (by omega) (hy.2.trans_lt hextent.2)
  refine ⟨_, TouchScreen.mouseData_procTouchInfo_down hvalid, rfl, ?_, ?_, ?_⟩
  · rw [hxshort, hyshort]
  · rwa [hxshort]
  · rwa [hyshort]

/-- A phone of 640 × 960 pixels, held upright and then turned. -/
theorem accepted_touches_on_phone_turned :
    let acts := [.resolution 640 960, .phonestate btSppMessagePhoneDirection 1]
    let s := (run HeadUnit.step (.start (.quiet .exact)) acts).touch
    ∃ size, lastOf Command.sizeSet? (commands acts) = some size ∧
      s.geometry.OnScreen ∧
      (∀ x y tick tickAfter, ¬ InvalidTouch s.geometry x y → ∃ data,
        (s.procTouchInfo x y 1 tick tickAfter).mouseData = s.mouseData ++ [data] ∧
          data.eButtonStatus = .btHidButtonLDown ∧
          (data.xOffset.toInt, data.yOffset.toInt) = s.downOffset x y ∧
          (0 ≤ data.xOffset.toInt ∧ data.xOffset.toInt ≤ (s.displayMode.extent size).1) ∧
          0 ≤ data.yOffset.toInt ∧ data.yOffset.toInt ≤ (s.displayMode.extent size).2) ∧
      ∀ x y x' y', (x ≤ x' → (s.downOffset x y).1 ≤ (s.downOffset x' y').1) ∧
        (y ≤ y' → (s.downOffset x y).2 ≤ (s.downOffset x' y').2) := by
  have hcommands : commands [.resolution 640 960, .phonestate btSppMessagePhoneDirection 1] =
      [.phoneInfoResolution 640 960, .phoneDirection 1] := by decide +kernel
  refine accepted_touches_on_phone [] (fun _ => true) _ ⟨640, 960, _, hcommands⟩ ?_
  rw [hcommands, List.forall_mem_cons, List.forall_mem_singleton]
  exact ⟨.inr ⟨640, 960, rfl, by decide, by decide, by decide⟩, .inl ⟨1, rfl⟩⟩

end PhoneLink
