import PhoneLink.CS.Rescale
import PhoneLink.CS.Run
import PhoneLink.Touch.Pointer

/-!
# Gestures of one finger

A sequence of touches with no frame of the phone in between. The touches that matter for
the pointer are the accepted touch downs, which send a place, and the forwarded moves, which
send the way since the last place sent. All other touches leave the previous position and
the tick alone.

The clock is a number of milliseconds that never decreases; the program reads it modulo
`2 ^ 32`.

## Main definitions

* `TouchEvent`, `TouchScreen.touch`: a touch with its times, and what is done about it
* `AcceptedDown`, `TouchScreen.MoveForwarded`
* `TouchScreen.downOffset`, `rescale`: what is sent for them
* `TouchScreen.moves`: the forwarded moves of a gesture

## Main results

* `touch_of_down`, `touch_of_move`, `touch_of_dropped`, `keeps_of_other`: what a touch does,
  case by case
* `throttling_loses_no_way`: the ways of the forwarded moves add up, and are sent 80
  milliseconds apart, each in its report
-/

namespace PhoneLink

open CS CS.Transition

/-- A touch of one finger. The times are those before and after a move is sent. -/
structure TouchEvent where
  x : ℤ
  y : ℤ
  action : UInt8
  time : ℕ
  timeAfter : ℕ

/-- A touch down in the valid window. -/
def AcceptedDown (g : TouchGeometry) (e : TouchEvent) : Prop :=
  ¬ InvalidTouch g e.x e.y ∧ touchStatus e.action = some .touchDown

instance (g : TouchGeometry) (e : TouchEvent) : Decidable (AcceptedDown g e) :=
  inferInstanceAs (Decidable (_ ∧ _))

namespace TouchScreen

/-- `GetPhoneLinkTickCount` is the low half of the clock. -/
def touch (s : TouchScreen) (e : TouchEvent) : TouchScreen :=
  s.procTouchInfo e.x e.y e.action (.ofNat e.time) (.ofNat e.timeAfter)

/-- A move in the valid window, not too early for a phone held horizontally. -/
def MoveForwarded (s : TouchScreen) (e : TouchEvent) : Prop :=
  ¬ InvalidTouch s.geometry e.x e.y ∧ touchStatus e.action = some .touchMove ∧
    (s.displayMode = .phoneHorizontal → ¬ UInt32.ofNat e.time - s.sTouchMsgClickTick < 80)

instance (s : TouchScreen) (e : TouchEvent) : Decidable (s.MoveForwarded e) :=
  inferInstanceAs (Decidable (_ ∧ _ ∧ (_ → _)))

/-- The place on the phone that stands at a place of the screen, in exact numbers. -/
def mapped (s : TouchScreen) (x y : ℤ) : ℚ × ℚ :=
  match s.displayMode with
  | .phoneHorizontal => (x * s.param.moveXfix, y * s.param.moveYfix)
  | .phoneVertical =>
    (((x - s.param.vaildAxisXStart : ℤ) : ℚ) * s.param.moveXfix, y * s.param.moveYfix)

/-- Where a touch goes down on the phone, before the narrowing to `short`. -/
def downOffset (s : TouchScreen) (x y : ℤ) : ℤ × ℤ :=
  match s.displayMode with
  | .phoneHorizontal => (s.scaled s.param.moveXfix x, s.scaled s.param.moveYfix y)
  | .phoneVertical =>
    (s.scaled s.param.moveXfix (x - s.param.vaildAxisXStart), s.scaled s.param.moveYfix y)

variable {s t u : TouchScreen} {e : TouchEvent} {es : List TouchEvent}

/-! ### What a touch does -/

theorem scaled_of_exact (hexact : s.arithmetic = .exact) (factor : ℚ) (n : ℤ) :
    s.scaled factor n = trunc ((n : ℚ) * factor) := by
  rw [scaled, hexact]
  rfl

theorem downOffset_of_exact (hexact : s.arithmetic = .exact) (x y : ℤ) :
    s.downOffset x y = (trunc (s.mapped x y).1, trunc (s.mapped x y).2) := by
  unfold downOffset mapped
  cases s.displayMode with
  | phoneHorizontal => exact Prod.ext (scaled_of_exact hexact _ _) (scaled_of_exact hexact _ _)
  | phoneVertical => exact Prod.ext (scaled_of_exact hexact _ _) (scaled_of_exact hexact _ _)

theorem SameGeometry.refl (s : TouchScreen) : SameGeometry s s := ⟨rfl, rfl, rfl, rfl⟩

theorem SameGeometry.trans (h : SameGeometry s t) (h' : SameGeometry t u) : SameGeometry s u where
  arithmetic_eq := h'.arithmetic_eq.trans h.arithmetic_eq
  displayMode_eq := h'.displayMode_eq.trans h.displayMode_eq
  phoneCurrentMode_eq := h'.phoneCurrentMode_eq.trans h.phoneCurrentMode_eq
  geometry_eq := h'.geometry_eq.trans h.geometry_eq

theorem sameGeometry_run (s : TouchScreen) (es : List TouchEvent) :
    SameGeometry s (run touch s es) := by
  induction es generalizing s with
  | nil => exact .refl s
  | cons e es ih => exact sameGeometry_procTouchInfo.trans (ih (s.touch e))

/-- A valid touch down sends its place and remembers it. -/
theorem procTouchInfo_of_down {x y : ℤ} {action : UInt8} {tick tickAfter : UInt32}
    (hvalid : ¬ InvalidTouch s.geometry x y) (hstatus : touchStatus action = some .touchDown) :
    s.procTouchInfo x y action tick tickAfter =
      ((s.touchAt x y).sendHidModeCotrolData .touchDown (s.downOffset x y).1
        (s.downOffset x y).2).rememberAxis := by
  have hvalid' : ¬ InvalidTouch (s.touchAt x y).geometry x y := hvalid
  have hmode : (s.touchAt x y).displayMode = s.displayMode := rfl
  rw [procTouchInfo, downOffset]
  dsimp only
  rw [if_neg hvalid', hmode, hstatus]
  cases s.displayMode with
  | phoneHorizontal => rfl
  | phoneVertical => rfl

theorem touch_of_down (h : AcceptedDown s.geometry e) :
    s.touch e = ((s.touchAt e.x e.y).sendHidModeCotrolData .touchDown
      (s.downOffset e.x e.y).1 (s.downOffset e.x e.y).2).rememberAxis :=
  procTouchInfo_of_down h.1 h.2

/-- A forwarded move sends the way since the previous position. Only a phone held
horizontally has the tick set. -/
theorem touch_of_move (h : s.MoveForwarded e) :
    s.touch e = { (s.touchAt e.x e.y).sendMove with
      sTouchMsgClickTick := if s.displayMode = .phoneHorizontal then .ofNat e.timeAfter
        else s.sTouchMsgClickTick } := by
  obtain ⟨hvalid, hstatus, htick⟩ := h
  have hvalid' : ¬ InvalidTouch (s.touchAt e.x e.y).geometry e.x e.y := hvalid
  rw [touch, procTouchInfo]
  dsimp only
  rw [if_neg hvalid', hstatus]
  cases hmode : s.displayMode with
  | phoneHorizontal =>
    have hmode' : (s.touchAt e.x e.y).displayMode = .phoneHorizontal := hmode
    rw [hmode', if_pos rfl]
    exact if_neg (htick hmode)
  | phoneVertical =>
    have hmode' : (s.touchAt e.x e.y).displayMode = .phoneVertical := hmode
    have hother : ¬ PhoneDisplayMode.phoneVertical = .phoneHorizontal := by decide
    rw [hmode', if_neg hother]
    rfl

/-- A move that is not forwarded only changes the current position. -/
theorem touch_of_dropped (hstatus : touchStatus e.action = some .touchMove)
    (h : ¬ s.MoveForwarded e) : s.touch e = s.touchAt e.x e.y := by
  rw [touch, procTouchInfo]
  by_cases hinvalid : InvalidTouch s.geometry e.x e.y
  · exact if_pos hinvalid
  · refine (if_neg hinvalid).trans ?_
    cases hmode : (s.touchAt e.x e.y).displayMode with
    | phoneHorizontal =>
      rw [hstatus]
      refine if_pos ?_
      by_contra hlate
      exact h ⟨hinvalid, hstatus, fun _ => hlate⟩
    | phoneVertical =>
      refine absurd ⟨hinvalid, hstatus, fun hhorizontal => ?_⟩ h
      exact absurd (hmode.symm.trans hhorizontal) (by decide)

/-- Previous position and tick are the same. -/
structure Keeps (s t : TouchScreen) : Prop where
  axisXp_eq : t.param.axisXp = s.param.axisXp
  axisYp_eq : t.param.axisYp = s.param.axisYp
  sTouchMsgClickTick_eq : t.sTouchMsgClickTick = s.sTouchMsgClickTick

/-- Every other touch keeps them. -/
theorem keeps_of_other (hdown : ¬ AcceptedDown s.geometry e) (hmove : ¬ s.MoveForwarded e) :
    Keeps s (s.touch e) := by
  cases hstatus : touchStatus e.action with
  | some status =>
    cases status with
    | touchMove =>
      rw [touch_of_dropped hstatus hmove]
      exact ⟨rfl, rfl, rfl⟩
    | touchDown =>
      have hinvalid : InvalidTouch s.geometry e.x e.y :=
        of_not_not fun hvalid => hdown ⟨hvalid, hstatus⟩
      have htouch : s.touch e = s.touchAt e.x e.y := if_pos hinvalid
      rw [htouch]
      exact ⟨rfl, rfl, rfl⟩
    | touchUp =>
      rw [touch, procTouchInfo, hstatus]
      dsimp only
      split_ifs
      · exact ⟨rfl, rfl, rfl⟩
      · cases (s.touchAt e.x e.y).displayMode <;> exact ⟨rfl, rfl, rfl⟩
  | none =>
    rw [touch, procTouchInfo, hstatus]
    dsimp only
    split_ifs
    · exact ⟨rfl, rfl, rfl⟩
    · cases (s.touchAt e.x e.y).displayMode <;> exact ⟨rfl, rfl, rfl⟩

/-! ### The forwarded moves -/

/-- The previous position. -/
def previous (s : TouchScreen) : ℤ × ℤ := (s.param.axisXp, s.param.axisYp)

end TouchScreen

/-- A forwarded move: its times, where the finger is, and the way it has come, before any
scaling. -/
structure ForwardedMove where
  time : ℕ
  timeAfter : ℕ
  position : ℤ × ℤ
  way : ℤ × ℤ

namespace TouchScreen

variable {s : TouchScreen} {e : TouchEvent} {es : List TouchEvent} {m : ForwardedMove}

/-- The move that is forwarded for a touch. -/
def move? (s : TouchScreen) (e : TouchEvent) : Option ForwardedMove :=
  if s.MoveForwarded e then
    some ⟨e.time, e.timeAfter, (e.x, e.y), (e.x - s.param.axisXp, e.y - s.param.axisYp)⟩
  else none

/-- The forwarded moves of a gesture, in order. -/
def moves : TouchScreen → List TouchEvent → List ForwardedMove
  | _, [] => []
  | s, e :: es => (s.move? e).toList ++ moves (s.touch e) es

theorem moves_concat (s : TouchScreen) (es : List TouchEvent) (e : TouchEvent) :
    s.moves (es ++ [e]) = s.moves es ++ ((run touch s es).move? e).toList := by
  induction es generalizing s with
  | nil => simp [moves]
  | cons a es ih => rw [List.cons_append, moves, moves, ih, run_cons, List.append_assoc]

/-- The report of a move: its way, scaled twice. -/
def moveReport (s : TouchScreen) (way : ℤ × ℤ) : BtHidMouseData :=
  ⟨.ofInt (s.scaled s.param.moveXfix (s.scaled s.param.moveXfix way.1)),
    .ofInt (s.scaled s.param.moveYfix (s.scaled s.param.moveYfix way.2)), .btHidButtonLDown⟩

theorem mouseData_of_move? (h : s.move? e = some m) :
    (s.touch e).mouseData = s.mouseData ++ [s.moveReport m.way] := by
  unfold move? at h
  split_ifs at h with hforwarded
  obtain rfl := Option.some.inj h
  rw [touch_of_move hforwarded]
  rfl

theorem moveReport_of_sameGeometry (h : SameGeometry s t) (way : ℤ × ℤ) :
    t.moveReport way = s.moveReport way := by
  have hxfix : t.param.moveXfix = s.param.moveXfix := congrArg TouchGeometry.moveXfix h.geometry_eq
  have hyfix : t.param.moveYfix = s.param.moveYfix := congrArg TouchGeometry.moveYfix h.geometry_eq
  simp only [moveReport, scaled, h.arithmetic_eq, hxfix, hyfix]

/-- A move adds its report, if it is forwarded, and otherwise nothing. -/
theorem mouseData_touch_of_move (hstatus : touchStatus e.action = some .touchMove) :
    (s.touch e).mouseData =
      s.mouseData ++ ((s.move? e).map fun m => s.moveReport m.way).toList := by
  cases hmove : s.move? e with
  | none =>
    have hdropped : ¬ s.MoveForwarded e := fun hforwarded =>
      absurd (hmove.symm.trans (if_pos hforwarded)) (Option.some_ne_none _).symm
    rw [touch_of_dropped hstatus hdropped]
    exact (List.append_nil _).symm
  | some m => exact mouseData_of_move? hmove

/-- A forwarded move has come from the previous position to the one it leaves behind. -/
theorem previous_of_move? (h : s.move? e = some m) :
    (s.touch e).previous = m.position ∧ m.position = s.previous + m.way := by
  unfold move? at h
  split_ifs at h with hforwarded
  obtain rfl := Option.some.inj h
  rw [touch_of_move hforwarded]
  refine ⟨rfl, Prod.ext ?_ ?_⟩
  · exact (add_sub_cancel _ _).symm
  · exact (add_sub_cancel _ _).symm

theorem previous_of_down (h : AcceptedDown s.geometry e) :
    (s.touch e).previous = (e.x, e.y) := by
  rw [touch_of_down h]
  rfl

/-- Without a touch down the ways add up to the way from the previous position. -/
theorem previous_run (s : TouchScreen) (es : List TouchEvent)
    (hdown : ∀ e ∈ es, ¬ AcceptedDown s.geometry e) :
    (run touch s es).previous = s.previous + ((s.moves es).map ForwardedMove.way).sum ∧
      ∀ m ∈ (s.moves es).getLast?, m.position = (run touch s es).previous := by
  induction es using List.reverseRecOn with
  | nil => exact ⟨(add_zero _).symm, fun m hm => nomatch hm⟩
  | append_singleton es e ih =>
    obtain ⟨hsum, hlast⟩ := ih fun e he => hdown e (List.mem_append_left _ he)
    have hgeometry := (sameGeometry_run s es).geometry_eq
    have hother : ¬ AcceptedDown (run touch s es).geometry e :=
      hgeometry ▸ hdown e (by simp)
    rw [run_concat, moves_concat]
    cases hmove : (run touch s es).move? e with
    | none =>
      have hdropped : ¬ (run touch s es).MoveForwarded e := fun hforwarded =>
        absurd (hmove.symm.trans (if_pos hforwarded)) (Option.some_ne_none _).symm
      obtain ⟨hx, hy, -⟩ := keeps_of_other hother hdropped
      have hkept : ((run touch s es).touch e).previous = (run touch s es).previous :=
        Prod.ext hx hy
      rw [Option.toList_none, List.append_nil, hkept]
      exact ⟨hsum, hlast⟩
    | some m =>
      obtain ⟨hprevious, hway⟩ := previous_of_move? hmove
      rw [Option.toList_some, List.map_append, List.sum_append, List.map_singleton,
        List.sum_singleton, List.getLast?_concat, hprevious, hway, hsum, add_assoc]
      refine ⟨rfl, fun m' hm' => ?_⟩
      rw [← Option.mem_some.mp hm', hway, hsum, add_assoc]

/-! ### The throttle -/

/-- Every forwarded move is one of the touches. -/
theorem exists_of_mem_moves (hm : m ∈ s.moves es) :
    ∃ e ∈ es, m.time = e.time ∧ m.timeAfter = e.timeAfter := by
  induction es generalizing s with
  | nil => cases hm
  | cons e es ih =>
    rcases List.mem_append.mp hm with hfirst | hrest
    · have hmove : s.move? e = some m := Option.mem_toList.mp hfirst
      unfold move? at hmove
      split_ifs at hmove
      obtain rfl := Option.some.inj hmove
      exact ⟨e, List.mem_cons_self, rfl, rfl⟩
    · obtain ⟨e', he', htimes⟩ := ih hrest
      exact ⟨e', List.mem_cons_of_mem e he', htimes⟩

/-- The tick of a phone held horizontally is that of the last forwarded move. -/
theorem sTouchMsgClickTick_run (hmode : s.displayMode = .phoneHorizontal) :
    ∀ m ∈ (s.moves es).getLast?, (run touch s es).sTouchMsgClickTick = .ofNat m.timeAfter := by
  induction es using List.reverseRecOn with
  | nil => exact fun m hm => nomatch hm
  | append_singleton es e ih =>
    intro m hm
    have hmode' : (run touch s es).displayMode = .phoneHorizontal :=
      (sameGeometry_run s es).displayMode_eq.trans hmode
    rw [moves_concat] at hm
    rw [run_concat]
    by_cases hforwarded : (run touch s es).MoveForwarded e
    · rw [move?, if_pos hforwarded, Option.toList_some, List.getLast?_concat] at hm
      obtain rfl := Option.mem_some.mp hm
      rw [touch_of_move hforwarded]
      exact if_pos hmode'
    · rw [move?, if_neg hforwarded, Option.toList_none, List.append_nil] at hm
      rw [← ih m hm]
      by_cases hdown : AcceptedDown (run touch s es).geometry e
      · rw [touch_of_down hdown]
        rfl
      · exact (keeps_of_other hdown hforwarded).sTouchMsgClickTick_eq

/-- A difference of readings modulo `2 ^ 32` is no more than the time between them. -/
theorem toNat_tick_sub_le {time time' : ℕ} (h : time ≤ time') :
    (UInt32.ofNat time' - UInt32.ofNat time).toNat ≤ time' - time := by
  rw [UInt32.toNat_sub, UInt32.toNat_ofNat', UInt32.toNat_ofNat']
  omega

/-- From one forwarded move to the next 80 milliseconds pass. -/
theorem moves_isChain (hmode : s.displayMode = .phoneHorizontal)
    (hclock : es.Pairwise fun e e' => e.timeAfter ≤ e'.time) :
    (s.moves es).IsChain fun m m' => m.timeAfter + 80 ≤ m'.time := by
  induction es using List.reverseRecOn with
  | nil => exact .nil
  | append_singleton es e ih =>
    obtain ⟨hclock, -, hlater⟩ := List.pairwise_append.mp hclock
    rw [moves_concat]
    by_cases hforwarded : (run touch s es).MoveForwarded e
    · rw [move?, if_pos hforwarded, Option.toList_some]
      refine (ih hclock).append (.singleton _) fun last hlast m hm => ?_
      obtain rfl := Option.mem_some.mp hm
      obtain ⟨e', he', -, hafter⟩ := exists_of_mem_moves (List.mem_of_getLast? hlast)
      have hle : last.timeAfter ≤ e.time := hafter ▸ hlater e' he' e (List.mem_singleton_self e)
      -- the tick is that of the last move, so the difference is at least 80
      have hlate := hforwarded.2.2 ((sameGeometry_run s es).displayMode_eq.trans hmode)
      rw [sTouchMsgClickTick_run hmode last hlast, UInt32.lt_iff_toNat_lt, not_lt] at hlate
      have hdiff := toNat_tick_sub_le hle
      have heighty : (80 : UInt32).toNat = 80 := rfl
      dsimp only
      omega
    · rw [move?, if_neg hforwarded, Option.toList_none, List.append_nil]
      exact ih hclock

/-- **No way is lost.** In horizontal mode, for every sequence of touches and every clock
that does not decrease: from one forwarded move to the next 80 milliseconds pass, and at every
point between an accepted touch down and the next one, the ways of the moves forwarded since
add up to the way from the touch down to the last of them. What a move adds to the mouse
reports is its way, scaled, if it is forwarded, and nothing otherwise. -/
theorem throttling_loses_no_way (s : TouchScreen) (es : List TouchEvent)
    (hmode : s.displayMode = .phoneHorizontal)
    (hclock : es.Pairwise fun e e' => e.timeAfter ≤ e'.time) :
    (s.moves es).IsChain (fun m m' => m.timeAfter + 80 ≤ m'.time) ∧
      (∀ before e after rest, es = before ++ e :: (after ++ rest) →
        AcceptedDown s.geometry e → (∀ e' ∈ after, ¬ AcceptedDown s.geometry e') →
        ∀ last ∈ ((run touch s (before ++ [e])).moves after).getLast?,
          (((run touch s (before ++ [e])).moves after).map ForwardedMove.way).sum =
            last.position - (e.x, e.y)) ∧
      ∀ before e after, es = before ++ e :: after →
        touchStatus e.action = some .touchMove →
        (run touch s (before ++ [e])).mouseData = (run touch s before).mouseData ++
          (((run touch s before).move? e).map fun m => s.moveReport m.way).toList := by
  refine ⟨moves_isChain hmode hclock, ?_, ?_⟩
  · -- the sum starts at the place of the touch down, which is the previous one then
    rintro before e after rest - hdown hafter last hlast
    have hgeometry := (sameGeometry_run s (before ++ [e])).geometry_eq
    obtain ⟨hsum, hposition⟩ := previous_run (run touch s (before ++ [e])) after
      (hgeometry ▸ hafter)
    have hstart : (run touch s (before ++ [e])).previous = (e.x, e.y) := by
      rw [run_concat]
      exact previous_of_down ((sameGeometry_run s before).geometry_eq ▸ hdown)
    rw [hposition last hlast, hsum, hstart]
    exact (add_sub_cancel_left _ _).symm
  · rintro before e after - hstatus
    rw [run_concat, mouseData_touch_of_move hstatus]
    simp only [moveReport_of_sameGeometry (sameGeometry_run s before)]

/-- A phone of 1280 × 720 pixels held horizontally. -/
def landscape : TouchScreen := (start .exact).resolve 1280 720

/-- A finger goes down and moves three times, the second time too early. -/
def swipe : List TouchEvent :=
  [⟨100, 100, 1, 1000, 1000⟩, ⟨120, 110, 2, 1100, 1102⟩, ⟨125, 115, 2, 1150, 1150⟩,
    ⟨130, 110, 2, 1200, 1203⟩]

theorem throttling_loses_no_way_swipe :
    (landscape.moves swipe).IsChain (fun m m' => m.timeAfter + 80 ≤ m'.time) ∧
      (∀ before e after rest, swipe = before ++ e :: (after ++ rest) →
        AcceptedDown landscape.geometry e → (∀ e' ∈ after, ¬ AcceptedDown landscape.geometry e') →
        ∀ last ∈ ((run touch landscape (before ++ [e])).moves after).getLast?,
          (((run touch landscape (before ++ [e])).moves after).map ForwardedMove.way).sum =
            last.position - (e.x, e.y)) ∧
      ∀ before e after, swipe = before ++ e :: after →
        touchStatus e.action = some .touchMove →
        (run touch landscape (before ++ [e])).mouseData =
          (run touch landscape before).mouseData ++
            (((run touch landscape before).move? e).map
              fun m => landscape.moveReport m.way).toList :=
  throttling_loses_no_way landscape swipe (by decide) (by simp [swipe])

end TouchScreen

end PhoneLink
