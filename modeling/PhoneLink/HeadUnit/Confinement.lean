import PhoneLink.HeadUnit.Window

/-!
# What the dispatcher reads

The dispatcher compares the length of the event with that of the frame, and then looks at
as many bytes behind the header as the command takes, whether or not the payload has them. A
payload that is too short is read on into the checksum, the tail and whatever comes behind.

## Main definitions

* `payloadNeeded`: how many payload bytes a command takes
* `UsesOnlyPayload`: what the dispatcher does about a frame depends on header and payload only

## Main results

* `usesOnlyPayload_iff`: it does exactly when the payload is as long as its command needs
-/

namespace PhoneLink

open CS CS.Transition

/-- The bytes of the payload that decide what is done about a frame. -/
def payloadNeeded (type : UInt8) (payload : List UInt8) : ℕ :=
  if type = btSppMessageDlHuAck then 1
  else if type = btSppMessageDlHuPhoneinfo then
    -- the class, and with the resolution the two sides
    if payload.head? = some btSppMessagePhoneInfoResolution then 5 else 1
  else if type = btSppMessageDlHuPhonestate then
    if payload.head? = some btSppMessagePhoneDirection ∨
        payload.head? = some btSppMessagePhoneDalinkAppState ∨
        payload.head? = some btSppMessageDalinkMainmenuStatusState then 2
    else if payload.head? = some btSppMessagePhoneSystemTime then 5
    else 1
  else if type = btSppMessageDlHuSiri then
    -- the arguments of a feedback are read, and nothing is done about them
    if payload.head? = some btSppMessageSiriCmd then 2 else 1
  else 0

/-- From every state, in an event of every length, the dispatcher does the same about every
two memories that hold header and payload of the frame. -/
def UsesOnlyPayload (type : UInt8) (tranID : UInt16) (dFlag : UInt8) (payload : List UInt8) :
    Prop :=
  ∀ (s : HeadUnit) (len : ℕ) (m m' : Memory),
    m.Holds 0 (packetBody type tranID dFlag payload) →
      m'.Holds 0 (packetBody type tranID dFlag payload) →
        s.dalinkSppPacketDeal m len = s.dalinkSppPacketDeal m' len

variable {m m' : Memory} {type dFlag : UInt8} {tranID : UInt16} {payload : List UInt8}

/-- The first payload byte, where there is one. -/
theorem head?_payload (h : ∀ k (hk : k < payload.length), m (7 + k) = payload[k])
    (hpos : 0 < payload.length) : payload.head? = some (m 7) := by
  rw [List.head?_eq_getElem?, List.getElem?_eq_getElem hpos, ← h 0 hpos]

/-! ### The command of a frame, type by type -/

theorem commandOf_of_ack (h : m 2 = btSppMessageDlHuAck) : commandOf m = .ack (m 7) := if_pos h

theorem commandOf_of_phoneinfo (h : m 2 = btSppMessageDlHuPhoneinfo) :
    commandOf m = if m 7 = btSppMessagePhoneInfoResolution then
      .phoneInfoResolution (ratioAt (m.shift 7) 1) (ratioAt (m.shift 7) 3) else .other := by
  unfold commandOf
  dsimp only
  rw [h, if_neg (by decide), if_neg (by decide), if_pos rfl]
  rfl

theorem commandOf_of_phonestate (h : m 2 = btSppMessageDlHuPhonestate) :
    commandOf m = if m 7 = btSppMessagePhoneDirection then .phoneDirection (m 8)
      else if m 7 = btSppMessagePhoneDalinkAppState then .phoneDalinkAppState (m 8)
      else if m 7 = btSppMessageDalinkMainmenuStatusState then .dalinkMainmenuStatusState (m 8)
      else if m 7 = btSppMessagePhoneSystemTime then .phoneSystemTime ((m.shift 7).read 1 4)
      else .other := by
  unfold commandOf
  dsimp only
  rw [h, if_neg (by decide), if_neg (by decide), if_neg (by decide), if_pos rfl]
  rfl

theorem commandOf_of_siri (h : m 2 = btSppMessageDlHuSiri) :
    commandOf m = if m 7 = btSppMessageSiriFeedback then .siriFeedback (m 8) (m 9)
      else if m 7 = btSppMessageSiriCmd then .siriCmd (m 8) else .other := by
  unfold commandOf
  dsimp only
  rw [h, if_neg (by decide), if_neg (by decide), if_neg (by decide), if_neg (by decide),
    if_neg (by decide), if_neg (by decide), if_pos rfl]
  rfl

/-- All other frames have no use for a payload. -/
theorem commandOf_of_other (htype : m' 2 = m 2) (hack : m 2 ≠ btSppMessageDlHuAck)
    (hinfo : m 2 ≠ btSppMessageDlHuPhoneinfo) (hstate : m 2 ≠ btSppMessageDlHuPhonestate)
    (hsiri : m 2 ≠ btSppMessageDlHuSiri) : commandOf m = commandOf m' := by
  unfold commandOf
  dsimp only
  rw [htype, if_neg hack, if_neg hinfo, if_neg hstate, if_neg hsiri, if_neg hack, if_neg hinfo,
    if_neg hstate, if_neg hsiri]

/-! ### Long enough -/

/-- Two memories with the needed bytes in common ask for the same, or both bring a feedback of
Siri, which is ignored. -/
theorem handle_congr (s : HeadUnit) (htype : m 2 = type) (htype' : m' 2 = type)
    (h : ∀ k (hk : k < payload.length), m (7 + k) = payload[k])
    (h' : ∀ k (hk : k < payload.length), m' (7 + k) = payload[k])
    (hneeded : payloadNeeded type payload ≤ payload.length) :
    s.handle tranID (commandOf m) = s.handle tranID (commandOf m') := by
  have hsame (k : ℕ) (hk : k < payload.length) : m' (7 + k) = m (7 + k) :=
    (h' k hk).trans (h k hk).symm
  have hhead := head?_payload h
  subst htype
  unfold payloadNeeded at hneeded
  by_cases hack : m 2 = btSppMessageDlHuAck
  · rw [if_pos hack] at hneeded
    rw [commandOf_of_ack hack, commandOf_of_ack (htype'.trans hack), hsame 0 hneeded]
  rw [if_neg hack] at hneeded
  by_cases hinfo : m 2 = btSppMessageDlHuPhoneinfo
  · rw [if_pos hinfo] at hneeded
    have hpos : 0 < payload.length := by split_ifs at hneeded <;> omega
    simp only [hhead hpos, Option.some_inj] at hneeded
    rw [commandOf_of_phoneinfo hinfo, commandOf_of_phoneinfo (htype'.trans hinfo), hsame 0 hpos]
    split_ifs at hneeded ⊢
    · unfold ratioAt
      simp only [Memory.shift_apply]
      rw [hsame 1 (by omega), hsame 2 (by omega), hsame 3 (by omega), hsame 4 (by omega)]
    · rfl
  rw [if_neg hinfo] at hneeded
  by_cases hstate : m 2 = btSppMessageDlHuPhonestate
  · rw [if_pos hstate] at hneeded
    have hpos : 0 < payload.length := by split_ifs at hneeded <;> omega
    simp only [hhead hpos, Option.some_inj] at hneeded
    rw [commandOf_of_phonestate hstate, commandOf_of_phonestate (htype'.trans hstate),
      hsame 0 hpos]
    split_ifs with hdirection happ hmenu htime
    · rw [if_pos (.inl hdirection)] at hneeded
      rw [hsame 1 hneeded]
    · rw [if_pos (.inr (.inl happ))] at hneeded
      rw [hsame 1 hneeded]
    · rw [if_pos (.inr (.inr hmenu))] at hneeded
      rw [hsame 1 hneeded]
    · rw [if_neg (by tauto), if_pos htime] at hneeded
      have hread : (m'.shift 7).read 1 4 = (m.shift 7).read 1 4 := by
        refine List.map_congr_left fun k hk => ?_
        rw [Memory.shift_apply, Memory.shift_apply]
        exact hsame (1 + k) (by have := List.mem_range.mp hk; omega)
      rw [hread]
    · rfl
  rw [if_neg hstate] at hneeded
  by_cases hsiri : m 2 = btSppMessageDlHuSiri
  · rw [if_pos hsiri] at hneeded
    have hpos : 0 < payload.length := by split_ifs at hneeded <;> omega
    simp only [hhead hpos, Option.some_inj] at hneeded
    rw [commandOf_of_siri hsiri, commandOf_of_siri (htype'.trans hsiri), hsame 0 hpos]
    split_ifs at hneeded ⊢
    · rfl
    · rfl
    · rw [hsame 1 (by omega)]
    · rfl
  · rw [commandOf_of_other htype' hack hinfo hstate hsiri]

/-- A payload as long as its command needs confines the dispatcher. -/
theorem usesOnlyPayload_of_le (hneeded : payloadNeeded type payload ≤ payload.length) :
    UsesOnlyPayload type tranID dFlag payload := by
  intro s len m m' hm hm'
  obtain ⟨htype, hheader, hlength, hbytes⟩ := holds_packetBody hm
  obtain ⟨htype', hheader', hlength', hbytes'⟩ := holds_packetBody hm'
  unfold HeadUnit.dalinkSppPacketDeal
  rw [hlength, hlength', hheader, hheader']
  dsimp only
  rw [handle_congr _ htype htype' hbytes hbytes' hneeded]

/-! ### Too short -/

/-- The state in which the command of a first frame is handled. -/
def afterAcknowledge (type : UInt8) (tranID : UInt16) (dFlag : UInt8) : HeadUnit :=
  (HeadUnit.start (.quiet .exact)).acknowledge ⟨dFlag, type, tranID⟩

/-- What comes behind a confined payload has no effect. -/
theorem UsesOnlyPayload.handle_eq (h : UsesOnlyPayload type tranID dFlag payload)
    (fill fill' : Memory) :
    (afterAcknowledge type tranID dFlag).handle tranID
        (commandOf (.overlay (packetBody type tranID dFlag payload) fill)) =
      (afterAcknowledge type tranID dFlag).handle tranID
        (commandOf (.overlay (packetBody type tranID dFlag payload) fill')) := by
  have hdeal (fill : Memory) : (HeadUnit.start (.quiet .exact)).dalinkSppPacketDeal
      (.overlay (packetBody type tranID dFlag payload) fill) 512 =
        (afterAcknowledge type tranID dFlag).handle tranID
          (commandOf (.overlay (packetBody type tranID dFlag payload) fill)) := by
    obtain ⟨-, hheader, hlength, -⟩ := holds_packetBody
      (Memory.holds_overlay (packetBody type tranID dFlag payload) fill)
    have hlong : ¬ 512 < (UInt8.ofNat payload.length).toNat + 10 := by
      have := (UInt8.ofNat payload.length).toNat_lt
      omega
    unfold HeadUnit.dalinkSppPacketDeal
    rw [hlength, if_neg hlong, hheader]
    rfl
  rw [← hdeal, ← hdeal]
  exact h _ _ _ _ (Memory.holds_overlay _ _) (Memory.holds_overlay _ _)

/-- Behind the payload stands what was there before. -/
theorem overlay_packetBody_apply {fill : Memory} {k : ℕ} (hk : payload.length + 7 ≤ k) :
    Memory.overlay (packetBody type tranID dFlag payload) fill k = fill k :=
  Memory.overlay_apply_of_le (by rwa [length_packetBody])

section Effects

variable {s : HeadUnit} {c c' : Command}

/-- The slot of the ACK ring tells the commands acknowledged apart. -/
theorem commandId_of_handle_ack {commandId commandId' : UInt8}
    (h : s.handle tranID (.ack commandId) = s.handle tranID (.ack commandId')) :
    commandId = commandId' := by
  have hslot := congrArg (fun t : HeadUnit => t.spp.ackRing.slots s.spp.ackRing.writePoint) h
  have hupdate (id : UInt8) :
      (s.handle tranID (.ack id)).spp.ackRing.slots s.spp.ackRing.writePoint = ⟨tranID, id⟩ :=
    Function.update_self _ _ _
  rw [hupdate, hupdate] at hslot
  exact congrArg BtSppDalinkAck.cmdId hslot

/-- The phone's size tells the resolutions of one width apart. -/
theorem ratioHeight_of_handle_resolution {ratioWidth ratioHeight ratioHeight' : ℕ}
    (hsize : s.touch.geometry.phoneSize = (0, 0))
    (h : s.handle tranID (.phoneInfoResolution ratioWidth ratioHeight) =
      s.handle tranID (.phoneInfoResolution ratioWidth ratioHeight')) :
    ratioHeight = ratioHeight' := by
  have hsizes := congrArg (fun t : HeadUnit => t.touch.geometry.phoneSize) h
  rw [HeadUnit.touch_handle, HeadUnit.touch_handle, Command.phoneSize_onTouch,
    Command.phoneSize_onTouch, hsize] at hsizes
  dsimp only [Command.sizeSet?] at hsizes
  split_ifs at hsizes <;>
    simp only [Option.getD_some, Option.getD_none, Prod.mk.injEq] at hsizes <;> omega

/-- A time is remembered. -/
theorem time_of_handle_phoneSystemTime {time time' : List UInt8}
    (h : s.handle tranID (.phoneSystemTime time) = s.handle tranID (.phoneSystemTime time')) :
    time = time' :=
  congrArg HeadUnit.phoneGpsTime h

/-- Display modes tell apart. -/
theorem displaySet?_of_handle
    (h : s.handle tranID c = s.handle tranID c') :
    c.displaySet?.getD s.touch.displayMode = c'.displaySet?.getD s.touch.displayMode := by
  have hmodes := congrArg (fun t : HeadUnit => t.touch.displayMode) h
  rwa [HeadUnit.touch_handle, HeadUnit.touch_handle, Command.displayMode_onTouch,
    Command.displayMode_onTouch] at hmodes

/-- An answer to Siri is transmitted. -/
theorem sent_handle_openSiri_ne (s : HeadUnit) :
    (s.handle tranID (.siriCmd openSiri)).spp.sent ≠ s.spp.sent := by
  have hopen : (s.handle tranID (.siriCmd openSiri)).spp =
      (s.spp.plDalinkSendPacket (.siriFeedback openSiri openSiriSuccess)).2 := rfl
  obtain ⟨k, hk, -, -, hsent⟩ :=
    SppSender.sent_sendCreated (.siriFeedback openSiri openSiriSuccess) s.spp
  rw [hopen, SppSender.plDalinkSendPacket_eq, hsent]
  intro heq
  have hlength := congrArg List.length heq
  rw [List.length_append, List.length_replicate] at hlength
  omega

end Effects

/-! The state in which the effects are told apart. -/

theorem touch_afterAcknowledge :
    (afterAcknowledge type tranID dFlag).touch = .start .exact :=
  HeadUnit.touch_acknowledge _

theorem phoneProtocolReciveFlag_afterAcknowledge :
    (afterAcknowledge type tranID dFlag).phoneProtocolReciveFlag = 0 := by
  unfold afterAcknowledge HeadUnit.acknowledge
  split_ifs <;> rfl

section Short

variable {fill : Memory} {b : UInt8}

theorem overlay_packetBody_type :
    Memory.overlay (packetBody type tranID dFlag payload) fill 2 = type :=
  (holds_packetBody (Memory.holds_overlay _ fill)).1

theorem overlay_packetBody_head (h : payload.head? = some b) :
    Memory.overlay (packetBody type tranID dFlag payload) fill 7 = b := by
  have hpos : 0 < payload.length := List.length_pos_of_ne_nil fun hnil => by simp [hnil] at h
  have hhead := head?_payload
    (holds_packetBody (Memory.holds_overlay (packetBody type tranID dFlag payload) fill)).2.2.2 hpos
  exact Option.some.inj (hhead.symm.trans h)

theorem overlay_write_apply {l : List UInt8} {m : Memory} {i k : ℕ} (h : k ≠ i) :
    Memory.overlay l (m.write i b) k = Memory.overlay l m k :=
  congrArg (l.getD k) (Memory.write_apply_of_ne h)

theorem ratioAt_eq (m : Memory) (i : ℕ) :
    ratioAt m i = (m i).toNat <<< 8 + (m (i + 1)).toNat :=
  (Nat.shiftLeft_add_eq_or_of_lt (m (i + 1)).toNat_lt _).symm

theorem ratioAt_overlay_write {l : List UInt8} {m : Memory} {i j k : ℕ} (h : j + k ≠ i)
    (h' : j + (k + 1) ≠ i) :
    ratioAt ((Memory.overlay l (m.write i b)).shift j) k =
      ratioAt ((Memory.overlay l m).shift j) k := by
  unfold ratioAt
  simp only [Memory.shift_apply]
  rw [overlay_write_apply h, overlay_write_apply h']

/-- An ACK without a payload acknowledges whatever byte comes next. -/
theorem not_usesOnlyPayload_ack (hlength : payload.length < 1) :
    ¬ UsesOnlyPayload btSppMessageDlHuAck tranID dFlag payload := by
  intro huses
  have heq := huses.handle_eq (fun _ => 0) (fun _ => 1)
  rw [commandOf_of_ack overlay_packetBody_type, commandOf_of_ack overlay_packetBody_type,
    overlay_packetBody_apply (by omega), overlay_packetBody_apply (by omega)] at heq
  exact absurd (commandId_of_handle_ack heq) (by decide)

/-- A resolution that is cut short takes its height from behind the payload. -/
theorem not_usesOnlyPayload_resolution (hlength : payload.length < 5)
    (hhead : payload.head? = some btSppMessagePhoneInfoResolution) :
    ¬ UsesOnlyPayload btSppMessageDlHuPhoneinfo tranID dFlag payload := by
  intro huses
  have heq := huses.handle_eq .zero (Memory.zero.write 11 1)
  rw [commandOf_of_phoneinfo overlay_packetBody_type,
    commandOf_of_phoneinfo overlay_packetBody_type, overlay_packetBody_head hhead,
    overlay_packetBody_head hhead, if_pos rfl, if_pos rfl,
    ratioAt_overlay_write (by decide) (by decide)] at heq
  have hheight := ratioHeight_of_handle_resolution (by rw [touch_afterAcknowledge]; rfl) heq
  rw [ratioAt_eq, ratioAt_eq, Memory.shift_apply, Memory.shift_apply, Memory.shift_apply,
    Memory.shift_apply, overlay_write_apply (by decide : 7 + 3 ≠ 11),
    overlay_packetBody_apply (k := 7 + 4) (by omega),
    overlay_packetBody_apply (k := 7 + 4) (by omega)] at hheight
  have hlow : (Memory.zero (7 + 4)).toNat ≠ (Memory.zero.write 11 1 (7 + 4)).toNat := by decide
  omega

/-- The bytes of a time that is cut short come from behind the payload. -/
theorem not_usesOnlyPayload_time (hlength : payload.length < 5)
    (hhead : payload.head? = some btSppMessagePhoneSystemTime) :
    ¬ UsesOnlyPayload btSppMessageDlHuPhonestate tranID dFlag payload := by
  intro huses
  have heq := huses.handle_eq .zero (Memory.zero.write 11 1)
  rw [commandOf_of_phonestate overlay_packetBody_type,
    commandOf_of_phonestate overlay_packetBody_type, overlay_packetBody_head hhead,
    overlay_packetBody_head hhead, if_neg (by decide), if_neg (by decide), if_neg (by decide),
    if_pos rfl, if_neg (by decide), if_neg (by decide), if_neg (by decide), if_pos rfl] at heq
  have hlast (m : Memory) : ((m.shift 7).read 1 4)[3]? = some (m (7 + 4)) := rfl
  have htime := congrArg (fun l : List UInt8 => l[3]?) (time_of_handle_phoneSystemTime heq)
  rw [hlast, hlast, overlay_packetBody_apply (by omega), overlay_packetBody_apply (by omega)]
    at htime
  exact absurd htime (by decide)

/-- A direction, a state of the application or of the main menu without a value takes the
byte behind the payload for it. -/
theorem not_usesOnlyPayload_state (hlength : payload.length < 2)
    (hhead : payload.head? = some btSppMessagePhoneDirection ∨
      payload.head? = some btSppMessagePhoneDalinkAppState ∨
      payload.head? = some btSppMessageDalinkMainmenuStatusState) :
    ¬ UsesOnlyPayload btSppMessageDlHuPhonestate tranID dFlag payload := by
  intro huses
  have heq := huses.handle_eq (fun _ => 0) (fun _ => 1)
  simp only [commandOf_of_phonestate overlay_packetBody_type,
    overlay_packetBody_apply (by omega : payload.length + 7 ≤ 8)] at heq
  rcases hhead with hhead | hhead | hhead
  · rw [overlay_packetBody_head hhead, overlay_packetBody_head hhead, if_pos rfl,
      if_pos rfl] at heq
    have hmode := displaySet?_of_handle heq
    exact absurd hmode (by rw [touch_afterAcknowledge]; decide)
  · rw [overlay_packetBody_head hhead, overlay_packetBody_head hhead, if_neg (by decide),
      if_pos rfl, if_neg (by decide), if_pos rfl] at heq
    have hmode := displaySet?_of_handle heq
    exact absurd hmode (by rw [touch_afterAcknowledge]; decide)
  · rw [overlay_packetBody_head hhead, overlay_packetBody_head hhead, if_neg (by decide),
      if_neg (by decide), if_pos rfl, if_neg (by decide), if_neg (by decide), if_pos rfl] at heq
    have hstatus := congrArg (fun t : HeadUnit => t.reporter.status .dalinkMainmenu) heq
    rw [HeadUnit.reporter_handle, HeadUnit.reporter_handle, afterAcknowledge,
      HeadUnit.reporter_acknowledge] at hstatus
    exact absurd hstatus (by decide)

/-- Without a class the byte behind the payload decides whether a resolution is taken. -/
theorem not_usesOnlyPayload_phoneinfo (hlength : payload.length < 1) :
    ¬ UsesOnlyPayload btSppMessageDlHuPhoneinfo tranID dFlag payload := by
  intro huses
  have heq := huses.handle_eq (fun _ => 0) (fun _ => 1)
  rw [commandOf_of_phoneinfo overlay_packetBody_type,
    commandOf_of_phoneinfo overlay_packetBody_type,
    overlay_packetBody_apply (by omega : payload.length + 7 ≤ 7),
    overlay_packetBody_apply (by omega : payload.length + 7 ≤ 7), if_pos (by decide),
    if_neg (by decide)] at heq
  have hflag := congrArg HeadUnit.phoneProtocolReciveFlag heq
  have hresolution (ratioWidth ratioHeight : ℕ) : ((afterAcknowledge btSppMessageDlHuPhoneinfo
      tranID dFlag).handle tranID (.phoneInfoResolution ratioWidth ratioHeight)
        ).phoneProtocolReciveFlag = 0 ||| sppMsgScreenResolutionBit :=
    congrArg (· ||| sppMsgScreenResolutionBit) phoneProtocolReciveFlag_afterAcknowledge
  rw [hresolution] at hflag
  exact absurd (hflag.trans phoneProtocolReciveFlag_afterAcknowledge) (by decide)

/-- Without a class the byte behind the payload decides whether a direction is taken. -/
theorem not_usesOnlyPayload_phonestate (hlength : payload.length < 1) :
    ¬ UsesOnlyPayload btSppMessageDlHuPhonestate tranID dFlag payload := by
  intro huses
  have heq := huses.handle_eq (fun _ => 0) (fun _ => 1)
  rw [commandOf_of_phonestate overlay_packetBody_type,
    commandOf_of_phonestate overlay_packetBody_type,
    overlay_packetBody_apply (by omega : payload.length + 7 ≤ 7),
    overlay_packetBody_apply (by omega : payload.length + 7 ≤ 7), if_pos (by decide),
    if_neg (by decide), if_neg (by decide), if_neg (by decide), if_neg (by decide)] at heq
  have hflag := congrArg HeadUnit.phoneProtocolReciveFlag heq
  have hdirection (dirction : UInt8) : ((afterAcknowledge btSppMessageDlHuPhonestate
      tranID dFlag).handle tranID (.phoneDirection dirction)).phoneProtocolReciveFlag =
        0 ||| sppMsgScreenDirectionBit :=
    congrArg (· ||| sppMsgScreenDirectionBit) phoneProtocolReciveFlag_afterAcknowledge
  rw [hdirection] at hflag
  exact absurd (hflag.trans phoneProtocolReciveFlag_afterAcknowledge) (by decide)

/-- Without a value, or without a class, the bytes behind the payload decide whether Siri is
answered. -/
theorem not_usesOnlyPayload_siri
    (hshort : payload.length < 1 ∨
      payload.length < 2 ∧ payload.head? = some btSppMessageSiriCmd) :
    ¬ UsesOnlyPayload btSppMessageDlHuSiri tranID dFlag payload := by
  intro huses
  have heq := huses.handle_eq (fun _ => 0) (fun _ => 2)
  simp only [commandOf_of_siri overlay_packetBody_type,
    overlay_packetBody_apply (by omega : payload.length + 7 ≤ 8)] at heq
  have hsent := congrArg (fun t : HeadUnit => t.spp.sent) heq
  rcases hshort with hnone | ⟨-, hhead⟩
  · simp only [overlay_packetBody_apply (by omega : payload.length + 7 ≤ 7)] at hsent
    rw [if_neg (by decide), if_pos (by decide), if_neg (by decide), if_neg (by decide)] at hsent
    exact sent_handle_openSiri_ne _ hsent
  · rw [overlay_packetBody_head hhead, overlay_packetBody_head hhead, if_neg (by decide),
      if_pos rfl, if_neg (by decide), if_pos rfl] at hsent
    exact sent_handle_openSiri_ne _ hsent

end Short

/-- A payload shorter than its command needs lets the bytes behind it take effect. -/
theorem not_usesOnlyPayload_of_lt (hshort : payload.length < payloadNeeded type payload) :
    ¬ UsesOnlyPayload type tranID dFlag payload := by
  unfold payloadNeeded at hshort
  split_ifs at hshort with hack hinfo hresolution hstate htwo htime hsiri hcmd
  · exact hack ▸ not_usesOnlyPayload_ack hshort
  · exact hinfo ▸ not_usesOnlyPayload_resolution hshort hresolution
  · exact hinfo ▸ not_usesOnlyPayload_phoneinfo hshort
  · exact hstate ▸ not_usesOnlyPayload_state hshort htwo
  · exact hstate ▸ not_usesOnlyPayload_time hshort htime
  · exact hstate ▸ not_usesOnlyPayload_phonestate hshort
  · exact hsiri ▸ not_usesOnlyPayload_siri (.inr ⟨hshort, hcmd⟩)
  · exact hsiri ▸ not_usesOnlyPayload_siri (.inl hshort)
  · omega

/-- **Confinement.** What the dispatcher does about a frame depends on its header and payload
only, from every state, exactly when the payload is as long as the frame's command needs. -/
theorem usesOnlyPayload_iff (type : UInt8) (tranID : UInt16) (dFlag : UInt8)
    (payload : List UInt8) :
    UsesOnlyPayload type tranID dFlag payload ↔ payloadNeeded type payload ≤ payload.length := by
  constructor
  · intro huses
    by_contra hshort
    exact not_usesOnlyPayload_of_lt (not_le.mp hshort) huses
  · exact usesOnlyPayload_of_le

/-- A frame that announces a resolution and ends there. -/
def classOnlyResolution : Frame :=
  ⟨btSppMessageDlHuPhoneinfo, 0, dFlagNoNeedAck, [btSppMessagePhoneInfoResolution], by decide⟩

/-- The phone's size is taken from the checksum, the tail and the byte behind the frame: two
memories that hold the same frame, and differ right behind it, give two sizes. -/
theorem resolution_read_behind_frame :
    let m := Memory.overlay classOnlyResolution.bytes .zero
    let m' := Memory.overlay classOnlyResolution.bytes (Memory.zero.write 11 1)
    (m.Holds 0 classOnlyResolution.bytes ∧ m'.Holds 0 classOnlyResolution.bytes) ∧
      ((HeadUnit.start (.quiet .exact)).dalinkSppPacketDeal m 11).touch.geometry.phoneHeight ≠
        ((HeadUnit.start (.quiet .exact)).dalinkSppPacketDeal m' 11).touch.geometry.phoneHeight ∧
      ¬ UsesOnlyPayload btSppMessageDlHuPhoneinfo 0 dFlagNoNeedAck
        [btSppMessagePhoneInfoResolution] := by
  refine ⟨⟨Memory.holds_overlay _ _, Memory.holds_overlay _ _⟩, by decide +kernel, ?_⟩
  exact not_usesOnlyPayload_resolution (by decide) rfl

end PhoneLink
