import PhoneLink.CS.Simulation
import PhoneLink.HeadUnit.Machine

/-!
# Pointing

What the frames of the phone and the touches do to each other over whole runs. A finger
that is lifted outside the valid window, or in a window that has changed meanwhile,
leaves the button held. Display mode and window are set by different sets of frames, so
they agree only if the last frame of the one set and the last frame of the other ask for
the same.

## Main definitions

* `HeadUnit.buttonSet?`, `Unpressed`: the steps that set the button, and the runs whose last
  one releases it
* `Command.displaySet?`, `Command.windowSet?`: the mode that a command sets, and the one
  whose window it sets
* `Tracks`: what the touch parameters have kept of the commands handled

## Main results

* `released_run`: the button after a run
* `touch_up_releases_iff`: the button is up after every touch up exactly in the runs in
  which every touch up is valid or comes when the last step that set the button released it
* `coherent_iff_lastOf`: after a resolution with unequal sides, window and factors are
  those of the display mode exactly when the last modes agree
-/

namespace PhoneLink

open CS CS.Transition

/-! ### The modes that commands set -/

namespace Command

/-- The display mode that a command sets. -/
def displaySet? : Command → Option PhoneDisplayMode
  | phoneInfoResolution ratioWidth ratioHeight =>
    if ratioHeight > ratioWidth then some .phoneVertical
    else if ratioWidth > ratioHeight then some .phoneHorizontal
    else none
  | phoneDirection dirction =>
    some (if dirction = 1 ∨ dirction = 3 then .phoneHorizontal else .phoneVertical)
  | phoneDalinkAppState state =>
    if state = 0 then some .phoneHorizontal else if state = 1 then some .phoneVertical else none
  | _ => none

/-- The display mode whose window and factors a command computes. -/
def windowSet? : Command → Option PhoneDisplayMode
  | phoneDalinkAppState _ => none
  | c => c.displaySet?

end Command

open Command (displaySet? windowSet?)

/-! ### What a command does to mode and window -/

/-- The size of a phone whose sides are not equal, longer side first. -/
def TouchGeometry.Resolved (g : TouchGeometry) : Prop :=
  0 ≤ g.phoneHeight ∧ g.phoneHeight < g.phoneWidth

theorem TouchGeometry.Resolved.phoneWidth_ne_zero {g : TouchGeometry} (h : g.Resolved) :
    g.phoneWidth ≠ 0 := (h.1.trans_lt h.2).ne'

namespace Command

variable {c : Command} {s : TouchScreen} {mode : PhoneDisplayMode}

theorem displayMode_onTouch :
    (c.onTouch s).displayMode = c.displaySet?.getD s.displayMode := by
  cases c with
  | phoneInfoResolution ratioWidth ratioHeight =>
    dsimp only [onTouch, TouchScreen.resolve, displaySet?]
    split_ifs <;> rfl
  | phoneDirection dirction =>
    dsimp only [onTouch, TouchScreen.direct, displaySet?]
    split_ifs <;> rfl
  | phoneDalinkAppState state =>
    dsimp only [onTouch, TouchScreen.setAppState, displaySet?]
    split_ifs <;> rfl
  | _ => rfl

/-- The arithmetic, the connect mode and the screen's size never change. -/
theorem fixed_onTouch :
    (c.onTouch s).arithmetic = s.arithmetic ∧
      (c.onTouch s).phoneCurrentMode = s.phoneCurrentMode ∧
      (c.onTouch s).geometry.screenWidth = s.geometry.screenWidth ∧
      (c.onTouch s).geometry.screenHeight = s.geometry.screenHeight := by
  cases c with
  | phoneInfoResolution ratioWidth ratioHeight =>
    dsimp only [onTouch, TouchScreen.resolve]
    split_ifs <;> exact ⟨rfl, rfl, rfl, rfl⟩
  | phoneDirection dirction =>
    dsimp only [onTouch, TouchScreen.direct]
    split_ifs <;> exact ⟨rfl, rfl, rfl, rfl⟩
  | phoneDalinkAppState state =>
    dsimp only [onTouch, TouchScreen.setAppState]
    split_ifs <;> exact ⟨rfl, rfl, rfl, rfl⟩
  | _ => exact ⟨rfl, rfl, rfl, rfl⟩

/-- A command that sets no window leaves the geometry alone. -/
theorem geometry_onTouch_of_none (h : c.windowSet? = none) :
    (c.onTouch s).geometry = s.geometry := by
  cases c with
  | phoneInfoResolution ratioWidth ratioHeight =>
    dsimp only [windowSet?, displaySet?] at h
    dsimp only [onTouch, TouchScreen.resolve]
    split_ifs at h ⊢
    rfl
  | phoneDirection dirction => cases h
  | phoneDalinkAppState state =>
    dsimp only [onTouch, TouchScreen.setAppState]
    split_ifs <;> rfl
  | _ => rfl

/-- A command that sets a window leaves that of its mode, if the phone has a size then. -/
theorem fits_onTouch (hexact : s.arithmetic = .exact)
    (hid : s.phoneCurrentMode = .btConnectedAndroidHid) (hheight : s.geometry.screenHeight ≠ 0)
    (hresolved : (c.onTouch s).geometry.Resolved) (h : c.windowSet? = some mode) :
    (c.onTouch s).geometry.Fits mode := by
  have hwidth := hresolved.phoneWidth_ne_zero
  revert hwidth
  cases c with
  | phoneInfoResolution ratioWidth ratioHeight =>
    dsimp only [windowSet?, displaySet?] at h
    dsimp only [onTouch, TouchScreen.resolve]
    split_ifs at h ⊢
    · obtain rfl := Option.some.inj h
      intro hwidth
      exact hexact ▸ TouchGeometry.fits_verticalWindow hwidth hheight
    · obtain rfl := Option.some.inj h
      exact fun _ => hexact ▸ TouchGeometry.fits_horizontalWindow _
  | phoneDirection dirction =>
    dsimp only [windowSet?, displaySet?] at h
    obtain rfl := Option.some.inj h
    dsimp only [onTouch, TouchScreen.direct]
    by_cases hdirction : dirction = 1 ∨ dirction = 3
    · rw [if_pos hdirction, if_pos hdirction]
      split_ifs with hmode
      · exact fun _ => hexact ▸ TouchGeometry.fits_horizontalWindow _
      · exact absurd hid hmode
    · -- upright, the window is computed from the height of the screen
      rw [if_neg hdirction, if_neg hdirction, if_pos (by exact hid)]
      intro hwidth
      exact hexact ▸ TouchGeometry.fits_verticalWindow hwidth hheight
  | _ => cases h

/-- A resolution of unequal sides sets the display mode. -/
theorem exists_displaySet {ratioWidth ratioHeight : ℕ} (hne : ratioWidth ≠ ratioHeight) :
    ∃ mode, displaySet? (.phoneInfoResolution ratioWidth ratioHeight) = some mode := by
  rcases lt_or_gt_of_ne hne with hvertical | hhorizontal
  · exact ⟨_, if_pos hvertical⟩
  · exact ⟨_, (if_neg hhorizontal.not_gt).trans (if_pos hhorizontal)⟩

/-- A resolution of unequal sides gives the phone a size. -/
theorem resolved_resolve {ratioWidth ratioHeight : ℕ} (hne : ratioWidth ≠ ratioHeight) :
    (s.resolve ratioWidth ratioHeight).geometry.Resolved := by
  unfold TouchScreen.resolve
  split_ifs with hvertical hhorizontal
  · exact ⟨Int.natCast_nonneg _, Int.ofNat_lt.mpr hvertical⟩
  · exact ⟨Int.natCast_nonneg _, Int.ofNat_lt.mpr hhorizontal⟩
  · omega

/-- The phone keeps a size once it has one. -/
theorem resolved_onTouch (h : s.geometry.Resolved) : (c.onTouch s).geometry.Resolved := by
  cases c with
  | phoneInfoResolution ratioWidth ratioHeight =>
    rcases eq_or_ne ratioWidth ratioHeight with rfl | hne
    · rwa [geometry_onTouch_of_none]
      dsimp only [windowSet?, displaySet?]
      rw [if_neg (lt_irrefl _), if_neg (lt_irrefl _)]
    · exact resolved_resolve hne
  | phoneDirection dirction =>
    dsimp only [onTouch, TouchScreen.direct]
    split_ifs <;> exact h
  | phoneDalinkAppState state => rwa [geometry_onTouch_of_none rfl]
  | _ => exact h

end Command

/-! ### Histories -/

/-- What the touch parameters have kept of the commands handled: the display mode set
last, the window set last, and whether the phone's size is known. -/
structure Tracks (arithmetic : FloatArithmetic) (cs : List Command) (s : TouchScreen) : Prop where
  arithmetic_eq : s.arithmetic = arithmetic
  hid : s.phoneCurrentMode = .btConnectedAndroidHid
  screenWidth_eq : s.geometry.screenWidth = vehicleLcdWidth
  screenHeight_eq : s.geometry.screenHeight = vehicleLcdHeight
  display : ∀ mode, lastOf displaySet? cs = some mode → s.displayMode = mode
  window : arithmetic = .exact → s.geometry.Resolved → ∀ mode,
    lastOf windowSet? cs = some mode → s.geometry.Fits mode
  resolved : ∀ w h, .phoneInfoResolution w h ∈ cs → w ≠ h → s.geometry.Resolved

namespace Tracks

variable {arithmetic : FloatArithmetic} {cs : List Command} {c : Command} {s t : TouchScreen}

theorem start : Tracks arithmetic [] (.start arithmetic) where
  arithmetic_eq := rfl
  hid := rfl
  screenWidth_eq := rfl
  screenHeight_eq := rfl
  display _ h := nomatch h
  window _ _ _ h := nomatch h
  resolved _ _ h := nomatch h

theorem of_sameGeometry (h : Tracks arithmetic cs s) (hsame : s.SameGeometry t) :
    Tracks arithmetic cs t := by
  obtain ⟨harithmetic, hdisplay, hphone, hgeometry⟩ := hsame
  constructor
  · exact harithmetic.trans h.arithmetic_eq
  · exact hphone.trans h.hid
  · exact hgeometry ▸ h.screenWidth_eq
  · exact hgeometry ▸ h.screenHeight_eq
  · exact fun mode hmode => hdisplay.trans (h.display mode hmode)
  · exact fun hexact hresolved mode hmode =>
      hgeometry ▸ h.window hexact (hgeometry ▸ hresolved) mode hmode
  · exact fun width height hmem hne => hgeometry ▸ h.resolved width height hmem hne

/-- One more command. -/
theorem concat (h : Tracks arithmetic cs s) : Tracks arithmetic (cs ++ [c]) (c.onTouch s) := by
  obtain ⟨harithmetic, hphone, hwidth, hheight⟩ := Command.fixed_onTouch (c := c) (s := s)
  constructor
  · exact harithmetic.trans h.arithmetic_eq
  · exact hphone.trans h.hid
  · exact hwidth.trans h.screenWidth_eq
  · exact hheight.trans h.screenHeight_eq
  · intro mode hlast
    rw [Command.displayMode_onTouch]
    cases hset : c.displaySet? with
    | none =>
      rw [lastOf_concat_of_none hset] at hlast
      exact h.display mode hlast
    | some mode' =>
      rw [lastOf_concat_of_some hset] at hlast
      exact Option.some.inj hlast
  · intro hexact hresolved mode hlast
    cases hset : c.windowSet? with
    | none =>
      rw [lastOf_concat_of_none hset] at hlast
      rw [Command.geometry_onTouch_of_none hset] at hresolved ⊢
      exact h.window hexact hresolved mode hlast
    | some mode' =>
      rw [lastOf_concat_of_some hset] at hlast
      obtain rfl := Option.some.inj hlast
      exact Command.fits_onTouch (h.arithmetic_eq.trans hexact) h.hid
        (h.screenHeight_eq ▸ by decide) hresolved hset
  · intro width height hmem hne
    rcases List.mem_append.mp hmem with hearlier | hlast
    · exact Command.resolved_onTouch (h.resolved width height hearlier hne)
    · obtain rfl := List.mem_singleton.mp hlast
      exact Command.resolved_resolve hne

end Tracks

/-- The touch parameters track the commands of every run. -/
theorem tracks_run (env : Environment) (acts : List HeadAction) :
    Tracks env.arithmetic (commands acts) (run HeadUnit.step (.start env) acts).touch := by
  induction acts using List.reverseRecOn with
  | nil => exact Tracks.start
  | append_singleton acts a ih =>
    rw [run_concat]
    cases hcommand : a.command? with
    | none =>
      rw [commands_concat_of_none hcommand]
      exact ih.of_sameGeometry (HeadUnit.sameGeometry_step hcommand)
    | some c =>
      rw [commands_concat_of_some hcommand, HeadUnit.touch_step hcommand]
      exact ih.concat

/-! ### The button -/

/-- Where a command puts the button: a direction moves the pointer into its corner, which
ends with the button up. -/
def Command.buttonSet? : Command → Option BtButtonStatus
  | phoneDirection _ => some .btHidButtonNoneOrUp
  | _ => none

/-- Where a step puts the button. -/
def HeadUnit.buttonSet? (s : HeadUnit) : HeadAction → Option BtButtonStatus
  | .touch x y action tick _ => s.touch.buttonSet? x y action tick
  | a => a.command?.bind Command.buttonSet?

/-- Where the steps of a run put the button, in order. -/
def buttonsSet (env : Environment) (acts : List HeadAction) : List BtButtonStatus :=
  shownBy HeadUnit.step (fun s a => (s.buttonSet? a).toList) (.start env) acts

/-- The last step that put the button anywhere put it up: behind the last valid touch down
and the last forwarded move there came a valid touch up or a direction. -/
def Unpressed (env : Environment) (acts : List HeadAction) : Prop :=
  ∀ button ∈ (buttonsSet env acts).getLast?, button = .btHidButtonNoneOrUp

instance (env : Environment) (acts : List HeadAction) : Decidable (Unpressed env acts) :=
  inferInstanceAs (Decidable (∀ button ∈ (buttonsSet env acts).getLast?, _))

section Button

variable {s : HeadUnit} {a : HeadAction} {c : Command} {button : BtButtonStatus}

theorem mouseData_onTouch_of_none (h : c.buttonSet? = none) (t : TouchScreen) :
    (c.onTouch t).mouseData = t.mouseData := by
  cases c with
  | phoneDirection dirction => cases h
  | phoneInfoResolution ratioWidth ratioHeight =>
    dsimp only [Command.onTouch, TouchScreen.resolve]
    split_ifs <;> rfl
  | phoneDalinkAppState state =>
    dsimp only [Command.onTouch, TouchScreen.setAppState]
    split_ifs <;> rfl
  | _ => rfl

theorem released_direct {t : TouchScreen} (hid : t.phoneCurrentMode = .btConnectedAndroidHid)
    (dirction : UInt8) : (t.direct dirction).Released := by
  unfold TouchScreen.direct
  by_cases hdirction : dirction = 1 ∨ dirction = 3
  · rw [if_pos hdirction]
    dsimp only
    rw [if_pos (by exact hid)]
    exact TouchScreen.released_btMouseAdjust _
  · rw [if_neg hdirction]
    dsimp only
    rw [if_pos (by exact hid)]
    exact TouchScreen.released_btMouseAdjust _

/-- A step that puts the button nowhere sends no report. -/
theorem mouseData_step_of_none (h : s.buttonSet? a = none) :
    (s.step a).touch.mouseData = s.touch.mouseData := by
  cases hcommand : a.command? with
  | some c =>
    rw [HeadUnit.touch_step hcommand]
    refine mouseData_onTouch_of_none ?_ _
    cases a with
    | packet packetHeader len =>
      have hset : (some c).bind Command.buttonSet? = none := hcommand ▸ h
      exact hset
    | _ => cases hcommand
  | none =>
    cases a with
    | packet packetHeader len => rw [HeadUnit.step_packet_of_none hcommand]
    | hmi msgType => rw [HeadUnit.step, HeadUnit.touch_dealWithHmiData]
    | touch x y action tick tickAfter => exact TouchScreen.mouseData_procTouchInfo_of_none h
    | doubleTouch x y action x1 y1 action1 tick tickAfter =>
      exact TouchScreen.mouseData_procDoubleTouchInfo
    | updatePairList checkConnect => rfl
    | timer =>
      dsimp only [HeadUnit.step]
      split_ifs <;> rfl

/-- The last report of any other step leaves the button where the step puts it. -/
theorem released_step_of_some (hid : s.touch.phoneCurrentMode = .btConnectedAndroidHid)
    (h : s.buttonSet? a = some button) :
    (s.step a).touch.Released ↔ button = .btHidButtonNoneOrUp := by
  cases a with
  | touch x y action tick tickAfter => exact TouchScreen.released_procTouchInfo_of_some h
  | packet packetHeader len =>
    obtain ⟨c, hcommand, hset⟩ := Option.bind_eq_some_iff.mp h
    rw [HeadUnit.touch_step hcommand]
    cases c with
    | phoneDirection dirction =>
      obtain rfl := Option.some.inj hset
      exact iff_of_true (released_direct hid dirction) rfl
    | _ => cases hset
  | _ => cases h

end Button

/-- **The button.** After every run the button is up exactly when the last step that put it
anywhere put it up. -/
theorem released_run (env : Environment) (acts : List HeadAction) :
    (run HeadUnit.step (.start env) acts).touch.Released ↔ Unpressed env acts := by
  induction acts using List.reverseRecOn with
  | nil =>
    refine iff_of_true ?_ ?_
    · intro data hdata
      cases hdata
    · intro button hbutton
      cases hbutton
  | append_singleton acts a ih =>
    rw [run_concat, Unpressed, buttonsSet, shownBy_concat]
    -- either the step puts the button nowhere, or it is the last one that does
    cases hset : (run HeadUnit.step (.start env) acts).buttonSet? a with
    | none =>
      rw [Option.toList_none, List.append_nil, TouchScreen.Released, mouseData_step_of_none hset]
      exact ih
    | some button =>
      rw [released_step_of_some (tracks_run env acts).hid hset, Option.toList_some,
        List.getLast?_concat]
      exact ⟨fun h button' hbutton' => Option.mem_some.mp hbutton' ▸ h, fun h => h button rfl⟩

/-- If the step is a touch up, no button is held after it. -/
def ReleasedAfter (_s : HeadUnit) (a : HeadAction) (t : HeadUnit) : Prop :=
  ∀ x y tick tickAfter, a = .touch x y 0 tick tickAfter → t.touch.Released

/-- **Touch up.** In every run, however the machine rounds, the button is up after every touch
up exactly when every touch up is valid where it comes, or comes when the last step that put
the button anywhere put it up. -/
theorem touch_up_releases_iff (env : Environment) (acts : List HeadAction) :
    Throughout HeadUnit.step ReleasedAfter (.start env) acts ↔
      ∀ before x y tick tickAfter after, acts = before ++ .touch x y 0 tick tickAfter :: after →
        ¬ InvalidTouch (run HeadUnit.step (.start env) before).touch.geometry x y ∨
          Unpressed env before := by
  have hstep (before : List HeadAction) (x y : ℤ) (tick tickAfter : UInt32) :
      ((run HeadUnit.step (.start env) before).touch.procTouchInfo x y 0 tick tickAfter).Released ↔
        ¬ InvalidTouch (run HeadUnit.step (.start env) before).touch.geometry x y ∨
          Unpressed env before := by
    rw [TouchScreen.released_procTouchInfo_up_iff, released_run]
  rw [throughout_iff_split]
  constructor
  · rintro h before x y tick tickAfter after rfl
    exact (hstep before x y tick tickAfter).mp (h before _ after rfl x y tick tickAfter rfl)
  · rintro h before _ after rfl x y tick tickAfter rfl
    exact (hstep before x y tick tickAfter).mpr (h before x y tick tickAfter after rfl)

/-- A phone of 640 × 960 pixels held vertically is valid from 240 to 560; the finger goes
down at 300 and leaves at 600. -/
theorem touch_up_outside_leaves_button_down :
    ¬ Throughout HeadUnit.step ReleasedAfter (.start (.quiet .binary))
      [.resolution 640 960, .touch 300 100 1 1000 1000, .touch 600 100 0 2000 2000] := by
  intro hrun
  have hup := hrun.2.2.1 600 100 2000 2000 rfl
  revert hup
  decide +kernel

/-! ### Coherence -/

namespace TouchGeometry

variable {g : TouchGeometry}

/-- The width on the screen of the picture of an upright phone. -/
def picture (g : TouchGeometry) : ℚ := g.phoneHeight / (g.phoneWidth / g.screenHeight)

/-- The picture is no wider than the screen is high. -/
theorem picture_bounds (hheight : g.screenHeight = vehicleLcdHeight) (hresolved : g.Resolved) :
    0 ≤ g.picture ∧ g.picture ≤ 480 := by
  obtain ⟨hnonneg, hlt⟩ := hresolved
  have hpos : (0 : ℚ) < g.phoneWidth := by exact_mod_cast hnonneg.trans_lt hlt
  have hnonneg' : (0 : ℚ) ≤ g.phoneHeight := by exact_mod_cast hnonneg
  have hle : (g.phoneHeight : ℚ) ≤ g.phoneWidth := by exact_mod_cast hlt.le
  rw [picture, hheight, div_div_eq_mul_div]
  push_cast
  refine ⟨by positivity, ?_⟩
  rw [div_le_iff₀ hpos]
  linarith

/-- Upright, a phone leaves at least 160 pixels free on either side. -/
theorem vaildAxisXStart_of_vertical (hwidth : g.screenWidth = vehicleLcdWidth)
    (hheight : g.screenHeight = vehicleLcdHeight) (hresolved : g.Resolved)
    (hfits : g.Fits .phoneVertical) : 160 ≤ g.vaildAxisXStart := by
  have hpicture := (picture_bounds hheight hresolved).2
  rw [hfits.2.1, ← picture]
  have hborder : (160 : ℚ) ≤ (g.screenWidth - g.picture) / 2 := by
    rw [hwidth]
    push_cast
    linarith
  exact le_trunc (le_trans (by norm_num) hborder) (by exact_mod_cast hborder)

/-- Window and factors fit one mode only. -/
theorem fits_unique (hwidth : g.screenWidth = vehicleLcdWidth)
    (hheight : g.screenHeight = vehicleLcdHeight) (hresolved : g.Resolved)
    {mode mode' : PhoneDisplayMode} (h : g.Fits mode) (h' : g.Fits mode') : mode = mode' := by
  have hclash (hhorizontal : g.Fits .phoneHorizontal) (hvertical : g.Fits .phoneVertical) :
      False := by
    have hstart := vaildAxisXStart_of_vertical hwidth hheight hresolved hvertical
    rw [hhorizontal.1.1] at hstart
    exact absurd hstart (by decide)
  cases mode <;> cases mode'
  · rfl
  · exact (hclash h h').elim
  · exact (hclash h' h).elim
  · rfl

end TouchGeometry

/-- **Display mode and window.** In exact numbers, after a resolution with unequal sides,
window and factors are those of the display mode exactly when the last command that set the
display mode and the last one that set the window set the same mode. -/
theorem coherent_iff_lastOf (arrivals : List (ℕ × BtSppDalinkAck)) (writeResults : ℕ → Bool)
    (acts : List HeadAction) (ratioWidth ratioHeight : ℕ)
    (hresolution : .phoneInfoResolution ratioWidth ratioHeight ∈ commands acts)
    (hne : ratioWidth ≠ ratioHeight) :
    (run HeadUnit.step (.start ⟨.exact, arrivals, writeResults⟩) acts).touch.Coherent ↔
      lastOf displaySet? (commands acts) = lastOf windowSet? (commands acts) := by
  have htracks := tracks_run ⟨.exact, arrivals, writeResults⟩ acts
  have hresolved := htracks.resolved _ _ hresolution hne
  -- the resolution has set both
  obtain ⟨set, hset⟩ := Command.exists_displaySet hne
  obtain ⟨display, hdisplay⟩ := exists_lastOf hresolution hset
  obtain ⟨window, hwindow⟩ := exists_lastOf hresolution (show windowSet? _ = some set from hset)
  rw [hdisplay, hwindow, Option.some_inj, TouchScreen.Coherent, htracks.display _ hdisplay]
  have hfits := htracks.window rfl hresolved _ hwindow
  constructor
  · intro hcoherent
    exact TouchGeometry.fits_unique htracks.screenWidth_eq htracks.screenHeight_eq hresolved
      hcoherent hfits
  · rintro rfl
    exact hfits

/-- The window of a phone turned upright after the main application has left the
foreground. -/
theorem coherent_iff_lastOf_turned :
    let acts := [.resolution 1280 720, .phonestate btSppMessagePhoneDalinkAppState 1,
      .phonestate btSppMessagePhoneDirection 0]
    (run HeadUnit.step (.start (.quiet .exact)) acts).touch.Coherent ↔
      lastOf displaySet? (commands acts) = lastOf windowSet? (commands acts) :=
  coherent_iff_lastOf [] (fun _ => true) _ 1280 720 (by decide +kernel) (by decide)

/-- When DaLink leaves the foreground the display mode becomes vertical, and window and
factors stay those of the horizontal mode. -/
theorem app_state_keeps_window :
    let acts := [.resolution 1280 720, .phonestate btSppMessagePhoneDalinkAppState 1]
    commands acts = [.phoneInfoResolution 1280 720, .phoneDalinkAppState 1] ∧
      ¬ (run HeadUnit.step (.start (.quiet .exact)) acts).touch.Coherent := by
  decide +kernel

end PhoneLink
