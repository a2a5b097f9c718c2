import PhoneLink.HeadUnit.Program
import PhoneLink.HeadUnit.Wire

/-!
# From the phone's frames to the dispatcher

A phone that puts whole frames into each event, 255 bytes at most, gets every one of them to
the dispatcher: through the callback, the ring, the copy with what earlier events have left
in the buffer, and the receive loop, while all the other threads run.

## Main definitions

* `Carries`: an event consists of certain frames
* `HandsOver`: what the dispatcher is given is a certain frame

## Main results

* `frames_delivered`: the frames handed to the dispatcher are the first of those sent, each
  once and in order
-/

namespace PhoneLink

open CS CS.Transition

/-- An event with data from the phone consists of these frames; any other event of none. -/
structure Carries (c : EventContent) (frames : List Frame) : Prop where
  data : c.eEventType = btMsgSppReviceData →
    c.data = stream frames ∧ c.nDataLen = (stream frames).length ∧ c.nDataLen ≤ 255
  other : c.eEventType ≠ btMsgSppReviceData → frames = []

def HeadAction.isPacket : HeadAction → Bool
  | packet _ _ => true
  | _ => false

/-- The dispatcher is given a place where the frame stands in full. -/
def HandsOver : HeadAction → Frame → Prop
  | .packet packetHeader len, f => packetHeader.Holds 0 f.bytes ∧ f.bytes.length ≤ len
  | _, _ => False

/-- The packets found in an event as its thread sees it. -/
def packetsOf (seen : EventContent × Memory) : List HeadAction :=
  if seen.1.eEventType = btMsgSppReviceData then
    (handed seen.1.nDataLen seen.2 0).map fun p =>
      .packet (seen.2.shift p.packetHeader) seen.1.nDataLen
  else []

variable {seen : EventContent × Memory}

theorem packetsOf_of_data (h : seen.1.eEventType = btMsgSppReviceData) :
    packetsOf seen = (handed seen.1.nDataLen seen.2 0).map fun p =>
      .packet (seen.2.shift p.packetHeader) seen.1.nDataLen := if_pos h

theorem packetsOf_of_ne (h : seen.1.eEventType ≠ btMsgSppReviceData) : packetsOf seen = [] :=
  if_neg h

/-- Packets come from events alone. -/
theorem filter_isPacket_actions (input : Input) :
    input.actions.filter HeadAction.isPacket = input.event?.toList.flatMap packetsOf := by
  cases input with
  | event btMsg checkConnect =>
    dsimp only [Input.actions, Input.event?, Option.toList_some]
    rw [List.flatMap_singleton]
    by_cases hdata : btMsg.eEventType = btMsgSppReviceData
    · have hpairs : btMsg.eEventType ≠ btMsgUpdatePairList := fun hpairs =>
        absurd (hdata.symm.trans hpairs) (by decide)
      rw [if_neg hpairs, if_pos hdata, packetsOf_of_data hdata]
      refine List.filter_eq_self.mpr fun a ha => ?_
      obtain ⟨p, -, rfl⟩ := List.mem_map.mp ha
      rfl
    · rw [if_neg hdata, packetsOf_of_ne hdata]
      split_ifs <;> rfl
  | message msg => rfl
  | touch record tick tickAfter =>
    dsimp only [Input.actions]
    split_ifs <;> rfl
  | timer => rfl

theorem filter_isPacket (inputs : List Input) :
    (inputs.flatMap Input.actions).filter HeadAction.isPacket =
      (inputs.filterMap Input.event?).flatMap packetsOf := by
  induction inputs with
  | nil => rfl
  | cons input inputs ih =>
    rw [List.flatMap_cons, List.filter_append, ih, filter_isPacket_actions]
    cases h : input.event? with
    | none => rw [List.filterMap_cons_none h, Option.toList_none, List.flatMap_nil, List.nil_append]
    | some seen =>
      rw [List.filterMap_cons_some h, List.flatMap_cons, Option.toList_some,
        List.flatMap_singleton]

/-- What is found in an event are its frames, whatever stands behind them. -/
theorem handsOver_packetsOf {c : EventContent} {frames : List Frame} (h : Carries c frames)
    (m : Memory) : List.Forall₂ HandsOver (packetsOf (c, .overlay c.data m)) frames := by
  by_cases hdata : c.eEventType = btMsgSppReviceData
  · obtain ⟨hstream, hlen, hmax⟩ := h.data hdata
    have hholds : (Memory.overlay c.data m).Holds 0 (stream frames) :=
      hstream ▸ Memory.holds_overlay _ _
    rw [packetsOf_of_data hdata, List.forall₂_map_left_iff]
    refine (holds_handed hholds (hlen.trans (Nat.zero_add _).symm) hmax).imp fun p f h => ?_
    exact ⟨Memory.holds_shift.mpr h.1, (Nat.le_add_left _ _).trans h.2⟩
  · rw [packetsOf_of_ne hdata, h.other hdata]
    exact .nil

theorem handsOver_overlaid {contents : List EventContent} {sent : List (List Frame)}
    (h : List.Forall₂ Carries contents sent) (m : Memory) :
    List.Forall₂ HandsOver ((overlaid m contents).flatMap packetsOf) sent.flatten := by
  induction h generalizing m with
  | nil => exact .nil
  | cons hcarries _ ih =>
    rw [overlaid, List.flatMap_cons, List.flatten_cons]
    exact List.rel_append (handsOver_packetsOf hcarries m) (ih _)

/-- **Frames reach the dispatcher.** In every orderly run of all threads: if each event
queued with data from the phone consists of whole frames, then what the dispatcher has been
given in dealing with the inputs are the first of these frames, each once, in order, each
standing there in full; and when the program is idle it has been given all of them. With the
handlers done one at a time, the head unit is where these inputs lead it. -/
theorem frames_delivered {files : Descriptors} {unit : HeadUnit} {s : Program}
    {acts : List ProgramAction} (hrun : exec Program.step (.start files unit) acts = some s)
    (horderly : Meets Program.step Program.Orderly (.start files unit) acts)
    {sent : List (List Frame)}
    (hsent : List.Forall₂ Carries s.events.phonestateSem.stored sent) :
    s.unit = run HeadUnit.step unit (s.handled.flatMap Input.actions) ∧
      ∃ frames, frames <+: sent.flatten ∧ (s.Idle → frames = sent.flatten) ∧
        List.Forall₂ HandsOver
          ((s.handled.flatMap Input.actions).filter HeadAction.isPacket) frames := by
  have hlinear := Program.linear_of_exec hrun horderly
  refine ⟨hlinear.unit_eq, ?_⟩
  rw [filter_isPacket]
  by_cases hidle : s.Idle
  · rw [(hlinear.of_idle hidle).1]
    exact ⟨sent.flatten, List.prefix_rfl, fun _ => rfl, handsOver_overlaid hsent _⟩
  · obtain ⟨contents, hcontents, hevents⟩ := hlinear.exists_contents
    rw [hevents, List.prefix_iff_eq_take.mp hcontents]
    have hfirst := List.forall₂_take contents.length hsent
    refine ⟨(sent.take contents.length).flatten, ?_, fun h => absurd h hidle,
      handsOver_overlaid hfirst _⟩
    refine ⟨(sent.drop contents.length).flatten, ?_⟩
    rw [← List.flatten_append, List.take_append_drop]

/-- An event of these frames. -/
def eventOf (frames : List Frame) (h : (stream frames).length ≤ 255) : BtCsMsg :=
  ⟨btMsgSppReviceData, (stream frames).length, .overlay (stream frames) .zero,
    h.trans (by decide)⟩

theorem carries_eventOf (frames : List Frame) (h : (stream frames).length ≤ 255) :
    Carries (eventOf frames h).content frames :=
  ⟨fun _ => ⟨Memory.read_overlay _ _, rfl, h⟩, fun hother => absurd rfl hother⟩

/-- An event of two frames is dealt with; one of a third frame is queued. -/
def threeHeartbeats : List ProgramAction :=
  [.event (.bluetoothSppDataProc (eventOf [heartbeatFrame, heartbeatFrame] (by decide))),
    .event .semPost, .event .waitBtResponse, .event .waitBtCommand, .dealWithEvent fun _ => 0,
    .event (.bluetoothSppDataProc (eventOf [heartbeatFrame] (by decide))), .event .semPost]

theorem frames_delivered_three_heartbeats :
    let s := (exec Program.step (.start (.allClosed 16) (.start (.quiet .exact)))
      threeHeartbeats).get (by decide +kernel)
    ∃ frames, frames <+: [heartbeatFrame, heartbeatFrame, heartbeatFrame] ∧ frames.length = 2 ∧
      List.Forall₂ HandsOver
        ((s.handled.flatMap Input.actions).filter HeadAction.isPacket) frames := by
  obtain ⟨-, frames, hfirst, -, hhanded⟩ :=
    frames_delivered
      (Option.some_get (show (exec Program.step (.start (.allClosed 16)
        (.start (.quiet .exact))) threeHeartbeats).isSome by decide +kernel)).symm
      (by decide +kernel)
      (.cons (carries_eventOf [heartbeatFrame, heartbeatFrame] (by decide))
        (.cons (carries_eventOf [heartbeatFrame] (by decide)) .nil))
  refine ⟨frames, hfirst, ?_, hhanded⟩
  rw [← hhanded.length_eq]
  decide +kernel

end PhoneLink
