import PhoneLink.HeadUnit.Window

/-!
# The pointer and the finger

A touch down moves the phone's pointer to the place that stands at the finger, rounded
towards zero. A move sends the way of the finger, and scales it twice, so the pointer keeps
up with the finger only as far as scaling twice comes close to scaling once. All of this is
in exact numbers.

## Main definitions

* `pointer`: where a list of mouse reports moves a pointer from the origin
* `Follows`: the pointer is where the finger is, up to one pixel for each report
* `SmallStep`: what a touch may send for the pointer to keep up

## Main results

* `pointer_follows_finger`: the pointer follows the finger through every gesture of small
  steps
-/

namespace PhoneLink

open CS CS.Transition

/-- Where the reports move a pointer that stands at the origin. -/
def pointer (reports : List BtHidMouseData) : ℤ × ℤ :=
  (reports.map fun data => (data.xOffset.toInt, data.yOffset.toInt)).sum

theorem pointer_concat (reports : List BtHidMouseData) (data : BtHidMouseData) :
    pointer (reports ++ [data]) =
      pointer reports + (data.xOffset.toInt, data.yOffset.toInt) := by
  rw [pointer, pointer, List.map_append, List.sum_append, List.map_singleton, List.sum_singleton]

namespace TouchScreen

/-- After the first `n` reports the pointer stood at the origin; now it is at the place of the
phone that stands at the finger, up to one pixel for each report since, on either axis. -/
def Follows (n : ℕ) (s : TouchScreen) (x y : ℤ) : Prop :=
  |((pointer (s.mouseData.drop n)).1 : ℚ) - (s.mapped x y).1| ≤ (s.mouseData.drop n).length ∧
    |((pointer (s.mouseData.drop n)).2 : ℚ) - (s.mapped x y).2| ≤ (s.mouseData.drop n).length

instance (n : ℕ) (s : TouchScreen) (x y : ℤ) : Decidable (s.Follows n x y) :=
  inferInstanceAs (Decidable (_ ∧ _))

/-- After a touch that sends a report the pointer follows it. -/
def FollowsAfter (n : ℕ) (s : TouchScreen) (e : TouchEvent) (t : TouchScreen) : Prop :=
  t.mouseData ≠ s.mouseData → t.Follows n e.x e.y

/-- A touch down is at a place that a `short` can hold, and scaling the way of a forwarded
move twice is nearly exact. -/
def SmallStep (s : TouchScreen) (e : TouchEvent) (_t : TouchScreen) : Prop :=
  (AcceptedDown s.geometry e →
      (s.downOffset e.x e.y).1 < 2 ^ 15 ∧ (s.downOffset e.x e.y).2 < 2 ^ 15) ∧
    (s.MoveForwarded e →
      NearlyExact s.param.moveXfix (e.x - s.param.axisXp : ℤ) ∧
        NearlyExact s.param.moveYfix (e.y - s.param.axisYp : ℤ))

variable {s t : TouchScreen} {e : TouchEvent} {n : ℕ}

/-- The way on the phone is the way of the finger, scaled. -/
theorem mapped_sub (s : TouchScreen) (x y x' y' : ℤ) :
    (s.mapped x y).1 = (s.mapped x' y').1 + ((x - x' : ℤ) : ℚ) * s.param.moveXfix ∧
      (s.mapped x y).2 = (s.mapped x' y').2 + ((y - y' : ℤ) : ℚ) * s.param.moveYfix := by
  unfold mapped
  cases s.displayMode with
  | phoneHorizontal =>
    push_cast
    constructor <;> ring
  | phoneVertical =>
    push_cast
    constructor <;> ring

theorem mapped_congr (h : SameGeometry s t) (x y : ℤ) : t.mapped x y = s.mapped x y := by
  have hgeometry := h.geometry_eq
  have hx : t.param.moveXfix = s.param.moveXfix := congrArg TouchGeometry.moveXfix hgeometry
  have hy : t.param.moveYfix = s.param.moveYfix := congrArg TouchGeometry.moveYfix hgeometry
  have hstart : t.param.vaildAxisXStart = s.param.vaildAxisXStart :=
    congrArg TouchGeometry.vaildAxisXStart hgeometry
  rw [mapped, mapped, h.displayMode_eq, hx, hy, hstart]

/-- One report more, and the deviation grows by what the report is off. -/
theorem deviation_concat {p o : ℤ} {q d : ℚ} {k : ℕ} (h : |(p : ℚ) - q| ≤ k)
    (hreport : |(o : ℚ) - d| ≤ 1) : |((p + o : ℤ) : ℚ) - (q + d)| ≤ (k + 1 : ℕ) := by
  have hsplit : ((p + o : ℤ) : ℚ) - (q + d) = (p - q) + (o - d) := by
    push_cast
    ring
  rw [hsplit]
  push_cast
  exact (abs_add_le _ _).trans (add_le_add h hreport)

/-- The pointer after one report more. -/
theorem follows_concat {data : BtHidMouseData} {x y x' y' : ℤ} (hn : n ≤ s.mouseData.length)
    (hdata : t.mouseData = s.mouseData ++ [data]) (hfollows : s.Follows n x' y')
    (hsame : SameGeometry s t)
    (hx : |(data.xOffset.toInt : ℚ) - ((x - x' : ℤ) : ℚ) * s.param.moveXfix| ≤ 1)
    (hy : |(data.yOffset.toInt : ℚ) - ((y - y' : ℤ) : ℚ) * s.param.moveYfix| ≤ 1) :
    t.Follows n x y := by
  obtain ⟨hmapx, hmapy⟩ := mapped_sub s x y x' y'
  rw [Follows, hdata, List.drop_append_of_le_length hn, pointer_concat, List.length_append,
    List.length_singleton, mapped_congr hsame, hmapx, hmapy]
  exact ⟨deviation_concat hfollows.1 hx, deviation_concat hfollows.2 hy⟩

/-- A nearly exact way on the screen fits a `short`. -/
theorem toInt_rescale {f : ℚ} {d : ℤ} (hf : 0 ≤ f) (hd : |d| ≤ 800) (h : NearlyExact f d) :
    (Int16.ofInt (rescale f d)).toInt = rescale f d := by
  have hle : |rescale f (d : ℚ)| ≤ 2 * |d| + 4 := by exact_mod_cast abs_rescale_le hf h
  obtain ⟨hlow, hhigh⟩ := abs_le.mp hle
  exact Int16.toInt_ofInt_of_le (by omega) (by omega)

theorem moveReport_of_exact (hexact : s.arithmetic = .exact) (way : ℤ × ℤ) :
    s.moveReport way = ⟨.ofInt (rescale s.param.moveXfix way.1),
      .ofInt (rescale s.param.moveYfix way.2), .btHidButtonLDown⟩ := by
  rw [moveReport, scaled_of_exact hexact, scaled_of_exact hexact, scaled_of_exact hexact,
    scaled_of_exact hexact]
  rfl

/-- The way between two valid positions is no longer than the screen. -/
theorem abs_way_le {g : TouchGeometry} {x y x' y' : ℤ} (hwidth : g.screenWidth = vehicleLcdWidth)
    (hheight : g.screenHeight = vehicleLcdHeight) (hscreen : g.OnScreen)
    (hvalid : ¬ InvalidTouch g x y) (hvalid' : ¬ InvalidTouch g x' y') :
    |x - x'| ≤ 800 ∧ |y - y'| ≤ 800 := by
  have hwidth' : g.screenWidth = 800 := hwidth
  have hheight' : g.screenHeight = 480 := hheight
  obtain ⟨hxs, -, hxe, hys, -, hye⟩ := hscreen
  simp only [InvalidTouch, not_or, not_lt] at hvalid hvalid'
  rw [abs_le, abs_le]
  omega

/-- A gesture on its way from the state `start`: window and factors are those of then, the
previous position is valid, and the pointer follows it. -/
structure Following (start s : TouchScreen) : Prop where
  same : SameGeometry start s
  length_le : start.mouseData.length ≤ s.mouseData.length
  valid : ¬ InvalidTouch start.geometry s.param.axisXp s.param.axisYp
  follows : s.Follows start.mouseData.length s.param.axisXp s.param.axisYp

section Gesture

variable {start : TouchScreen} (hwidth : start.geometry.screenWidth = vehicleLcdWidth)
  (hheight : start.geometry.screenHeight = vehicleLcdHeight)
  (hresolved : start.geometry.Resolved) (hcoherent : start.Coherent)
  (hexact : start.arithmetic = .exact)

include hwidth hheight hresolved hcoherent hexact

/-- The touch down is the first report. -/
theorem Following.down (hdown : AcceptedDown start.geometry e) (hsmall : SmallStep start e t) :
    Following start (start.touch e) ∧
      FollowsAfter start.mouseData.length start e (start.touch e) := by
  have hdata : (start.touch e).mouseData = start.mouseData ++
      [⟨.ofInt (start.downOffset e.x e.y).1, .ofInt (start.downOffset e.x e.y).2,
        .btHidButtonLDown⟩] := by
    rw [touch_of_down hdown]
    rfl
  have hprevious := previous_of_down hdown
  have hsame : SameGeometry start (start.touch e) := sameGeometry_procTouchInfo
  obtain ⟨hx, hy⟩ := downOffset_bounds hwidth hheight hresolved hcoherent hexact hdown.1
  obtain ⟨hxlt, hylt⟩ := hsmall.1 hdown
  have hfollows : (start.touch e).Follows start.mouseData.length e.x e.y := by
    rw [Follows, hdata, List.drop_left, pointer, List.map_singleton, List.sum_singleton,
      mapped_congr hsame, List.length_singleton, Nat.cast_one]
    dsimp only
    rw [Int16.toInt_ofInt_of_le (by omega) hxlt, Int16.toInt_ofInt_of_le (by omega) hylt,
      downOffset_of_exact hexact]
    exact ⟨(abs_trunc_sub_lt_one _).le, (abs_trunc_sub_lt_one _).le⟩
  have hxp : (start.touch e).param.axisXp = e.x := congrArg Prod.fst hprevious
  have hyp : (start.touch e).param.axisYp = e.y := congrArg Prod.snd hprevious
  refine ⟨⟨hsame, ?_, ?_, ?_⟩, fun _ => hfollows⟩
  · rw [hdata, List.length_append]
    exact Nat.le_add_right _ _
  · rw [hxp, hyp]
    exact hdown.1
  · rw [hxp, hyp]
    exact hfollows

/-- A move of a small step, forwarded or not. -/
theorem Following.move (h : Following start s) (hvalid : ¬ InvalidTouch start.geometry e.x e.y)
    (hstatus : touchStatus e.action = some .touchMove) (hsmall : SmallStep s e t) :
    Following start (s.touch e) ∧ FollowsAfter start.mouseData.length s e (s.touch e) := by
  obtain ⟨hsame, hlength, hprevious, hfollows⟩ := h
  by_cases hforwarded : s.MoveForwarded e
  · have hmove : s.move? e = some ⟨e.time, e.timeAfter, (e.x, e.y),
      (e.x - s.param.axisXp, e.y - s.param.axisYp)⟩ := if_pos hforwarded
    have hdata := mouseData_of_move? hmove
    rw [moveReport_of_exact (hsame.arithmetic_eq.trans hexact)] at hdata
    have hleft := (previous_of_move? hmove).1
    have hgeometry := hsame.geometry_eq
    have htouch : SameGeometry s (s.touch e) := sameGeometry_procTouchInfo
    obtain ⟨hfx, hfy⟩ := factors_nonneg hwidth hheight hresolved hcoherent
    rw [← hgeometry] at hfx hfy
    obtain ⟨hwayx, hwayy⟩ := abs_way_le hwidth hheight
      (TouchGeometry.onScreen_of_fits hwidth hheight hresolved hcoherent) hvalid hprevious
    obtain ⟨hexactx, hexacty⟩ := hsmall.2 hforwarded
    -- scaled twice, the way is at most a pixel from what it is scaled once
    have hnew : (s.touch e).Follows start.mouseData.length e.x e.y := by
      refine follows_concat hlength hdata hfollows htouch ?_ ?_
      · dsimp only
        rw [toInt_rescale hfx hwayx hexactx]
        exact (abs_rescale_sub_le_one_iff hfx _).mpr hexactx
      · dsimp only
        rw [toInt_rescale hfy hwayy hexacty]
        exact (abs_rescale_sub_le_one_iff hfy _).mpr hexacty
    have hxp : (s.touch e).param.axisXp = e.x := congrArg Prod.fst hleft
    have hyp : (s.touch e).param.axisYp = e.y := congrArg Prod.snd hleft
    refine ⟨⟨hsame.trans htouch, ?_, ?_, ?_⟩, fun _ => hnew⟩
    · rw [hdata, List.length_append]
      exact hlength.trans (Nat.le_add_right _ _)
    · rw [hxp, hyp]
      exact hvalid
    · rw [hxp, hyp]
      exact hnew
  · -- a dropped move sends nothing, and the next one starts where this one would have
    rw [touch_of_dropped hstatus hforwarded]
    exact ⟨⟨hsame.trans ⟨rfl, rfl, rfl, rfl⟩, hlength, hprevious, hfollows⟩,
      fun hreport => absurd rfl hreport⟩

/-- The moves of a gesture, one after the other. -/
theorem Following.moves {es : List TouchEvent} (h : Following start s)
    (hvalid : ∀ e ∈ es, ¬ InvalidTouch start.geometry e.x e.y)
    (hstatus : ∀ e ∈ es, touchStatus e.action = some .touchMove)
    (hsmall : Throughout touch SmallStep s es) :
    Throughout touch (FollowsAfter start.mouseData.length) s es := by
  induction es generalizing s with
  | nil => trivial
  | cons e es ih =>
    obtain ⟨hfirst, hrest⟩ := hsmall
    obtain ⟨hnext, hafter⟩ := Following.move hwidth hheight hresolved hcoherent hexact h
      (hvalid e List.mem_cons_self) (hstatus e List.mem_cons_self) hfirst
    refine ⟨hafter, ih hnext ?_ ?_ hrest⟩
    · exact fun e' he' => hvalid e' (List.mem_cons_of_mem e he')
    · exact fun e' he' => hstatus e' (List.mem_cons_of_mem e he')

end Gesture

/-- A resolution of unequal sides fixes window and factors, and sends no report. -/
theorem resolve_spec {ratioWidth ratioHeight : ℕ} (hexact : s.arithmetic = .exact)
    (hheight : s.geometry.screenHeight ≠ 0) (hne : ratioWidth ≠ ratioHeight) :
    (s.resolve ratioWidth ratioHeight).Coherent ∧
      (s.resolve ratioWidth ratioHeight).mouseData = s.mouseData := by
  unfold resolve
  split_ifs with hvertical hhorizontal
  · have hwidth : (ratioHeight : ℤ) ≠ 0 := by omega
    exact ⟨hexact ▸ TouchGeometry.fits_verticalWindow hwidth hheight, rfl⟩
  · exact ⟨hexact ▸ TouchGeometry.fits_horizontalWindow _, rfl⟩
  · omega

/-- **The pointer and the finger.** In exact numbers, after any resolution with unequal sides,
whatever the touch parameters were before, a finger goes down in the valid window and moves in
it any number of times. If every step of the gesture is small, then after each report the
pointer, at the origin before, is at the place of the finger up to one pixel for each
report. -/
theorem pointer_follows_finger (s : TouchScreen) (ratioWidth ratioHeight : ℕ)
    (down : TouchEvent) (moves : List TouchEvent) (hexact : s.arithmetic = .exact)
    (hwidth : s.geometry.screenWidth = vehicleLcdWidth)
    (hheight : s.geometry.screenHeight = vehicleLcdHeight) (hne : ratioWidth ≠ ratioHeight)
    (hdown : down.action = 1) (hmoves : ∀ e ∈ moves, e.action = 2)
    (hvalid : ∀ e ∈ down :: moves,
      ¬ InvalidTouch (s.resolve ratioWidth ratioHeight).geometry e.x e.y)
    (hsmall : Throughout touch SmallStep (s.resolve ratioWidth ratioHeight) (down :: moves)) :
    Throughout touch (FollowsAfter s.mouseData.length) (s.resolve ratioWidth ratioHeight)
      (down :: moves) := by
  obtain ⟨hcoherent, hdata⟩ := resolve_spec hexact (hheight ▸ by decide) hne
  have hresolved := Command.resolved_resolve (s := s) hne
  obtain ⟨hexact', -, hwidth', hheight'⟩ := Command.fixed_onTouch
    (c := .phoneInfoResolution ratioWidth ratioHeight) (s := s)
  replace hexact' := hexact'.trans hexact
  replace hwidth' := hwidth'.trans hwidth
  replace hheight' := hheight'.trans hheight
  have haccepted : AcceptedDown (s.resolve ratioWidth ratioHeight).geometry down :=
    ⟨hvalid down List.mem_cons_self, hdown ▸ rfl⟩
  -- the resolution sent no report, so the reports of the gesture are counted from here
  rw [← hdata]
  obtain ⟨hfirst, hafter⟩ :=
    Following.down hwidth' hheight' hresolved hcoherent hexact' haccepted hsmall.1
  refine ⟨hafter,
    Following.moves hwidth' hheight' hresolved hcoherent hexact' hfirst ?_ ?_ hsmall.2⟩
  · exact fun e he => hvalid e (List.mem_cons_of_mem down he)
  · exact fun e he => hmoves e he ▸ rfl

/-- A phone of 1280 × 768 pixels has 1.6 pixels for one of the screen. Moves by a pixel or
two are followed: the third report moves the pointer by -4 where -3.2 is due. -/
theorem pointer_follows_finger_small_moves :
    Throughout touch (FollowsAfter 0) ((start .exact).resolve 1280 768)
      [⟨100, 100, 1, 1000, 1000⟩, ⟨101, 102, 2, 2000, 2000⟩, ⟨99, 101, 2, 3000, 3000⟩] :=
  pointer_follows_finger (.start .exact) 1280 768 ⟨100, 100, 1, 1000, 1000⟩
    [⟨101, 102, 2, 2000, 2000⟩, ⟨99, 101, 2, 3000, 3000⟩] rfl rfl rfl (by decide) rfl (by decide)
    (by decide +kernel) (by
      refine ⟨?_, ?_, ?_, trivial⟩
      all_goals exact ⟨by decide +kernel, by decide +kernel⟩)

/-- A phone of 640 × 960 pixels held upright has two pixels for one of the screen: a move by
two of these moves the pointer by eight instead of four. -/
theorem double_scaling_overtakes_finger :
    (∀ e ∈ ([⟨300, 100, 1, 1000, 1000⟩, ⟨302, 100, 2, 2000, 2000⟩] : List TouchEvent),
        ¬ InvalidTouch ((start .exact).resolve 640 960).geometry e.x e.y) ∧
      ¬ Throughout touch (FollowsAfter 0) ((start .exact).resolve 640 960)
        [⟨300, 100, 1, 1000, 1000⟩, ⟨302, 100, 2, 2000, 2000⟩] := by
  refine ⟨by decide +kernel, fun hrun => ?_⟩
  have hfollows := hrun.2.1 (by decide +kernel)
  revert hfollows
  decide +kernel

end TouchScreen

end PhoneLink
