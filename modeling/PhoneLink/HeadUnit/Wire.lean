import PhoneLink.CS.Simulation
import PhoneLink.HeadUnit.Machine

/-!
# What goes over the wire

Every input makes the program send certain messages: an ACK to a frame with the D flag,
feedback to a SIRI command, what the HMI asks for, the contacts of a touch of two fingers,
a heartbeat. As long as each input is dealt with before the next, what the phone receives in a
run is the frames of these messages and nothing else, in the order of the inputs. Each is
transmitted once, or up to three times if it has the D flag; all but the ACKs are numbered
from zero on without a gap. Threads that send at the same time may transmit each other's
frames, which `SendSystem` is about.

## Main definitions

* `HeadUnit.requests`: the messages that an input asks for
* `wire`: the transmissions for a list of messages, each with how often it is transmitted

## Main results

* `emits_sendCreated`: what one send puts on the wire
* `requests_on_the_wire`: what a run of inputs, one after the other, puts on the wire
* `transmissions_received`: whatever is transmitted, the program's own receive loop would
  find in it exactly the frames transmitted
-/

namespace PhoneLink

open CS CS.Transition

/-! ### Messages and transmissions -/

/-- Every message but an ACK takes its number from the counter. -/
def Request.numbered : Request → Bool
  | .ack _ _ => false
  | .heartbeat | .touchscreen _ _ _ _ | .keyInfo _ _ | .requestPhoneinfo _ | .requestPhonestate _
  | .parkinfo _ | .siri _ | .siriFeedback _ _ | .startApp => true

/-- The counter after the create step of a message. -/
def Request.next (tranID : UInt16) (r : Request) : UInt16 :=
  if r.numbered then tranID + 1 else tranID

/-- How often a message may be transmitted. -/
def Request.Repeats (r : Request) (k : ℕ) : Prop :=
  1 ≤ k ∧ k ≤ 3 ∧ ((r.frame 0).dFlag ≠ dFlagNeedAck → k = 1)

/-- The transmissions of messages, the first of which is numbered `tranID` if it is
numbered. -/
def wire : UInt16 → List (Request × ℕ) → List (List UInt8)
  | _, [] => []
  | tranID, (r, k) :: log => List.replicate k (r.frame tranID).bytes ++ wire (r.next tranID) log

/-- The counter after messages. -/
def counter (tranID : UInt16) (log : List (Request × ℕ)) : UInt16 :=
  log.foldl (fun tranID entry => entry.1.next tranID) tranID

theorem wire_append (tranID : UInt16) (log log' : List (Request × ℕ)) :
    wire tranID (log ++ log') = wire tranID log ++ wire (counter tranID log) log' := by
  induction log generalizing tranID with
  | nil => rfl
  | cons entry log ih =>
    rw [List.cons_append, wire, wire, ih, List.append_assoc]
    rfl

theorem counter_append (tranID : UInt16) (log log' : List (Request × ℕ)) :
    counter tranID (log ++ log') = counter (counter tranID log) log' := List.foldl_append

/-- How many messages are numbered. -/
def numberedCount (log : List (Request × ℕ)) : ℕ := log.countP fun entry => entry.1.numbered

theorem numberedCount_cons (entry : Request × ℕ) (log : List (Request × ℕ)) :
    numberedCount (entry :: log) = numberedCount log + if entry.1.numbered then 1 else 0 :=
  List.countP_cons

theorem counter_eq (tranID : UInt16) (log : List (Request × ℕ)) :
    counter tranID log = tranID + UInt16.ofNat (numberedCount log) := by
  induction log generalizing tranID with
  | nil => exact (UInt16.add_zero tranID).symm
  | cons entry log ih =>
    have hcons : counter tranID (entry :: log) = counter (entry.1.next tranID) log := rfl
    rw [hcons, ih, Request.next, numberedCount_cons]
    split_ifs
    · rw [UInt16.ofNat_add, UInt16.add_assoc, UInt16.add_comm 1]
      rfl
    · rfl

theorem tranID_frame {r : Request} (h : r.numbered) (tranID : UInt16) :
    (r.frame tranID).tranID = tranID := by
  cases r with
  | ack ackTranid cmd => cases h
  | _ => rfl

/-- Two numbered messages have one id exactly if the counter has come round between them. -/
theorem tranID_eq_iff {before between : List (Request × ℕ)} {first last : Request × ℕ}
    (hfirst : first.1.numbered) (hlast : last.1.numbered) :
    (first.1.frame (counter 0 before)).tranID =
        (last.1.frame (counter 0 (before ++ first :: between))).tranID ↔
      65536 ∣ numberedCount between + 1 := by
  rw [tranID_frame hfirst, tranID_frame hlast, counter_append, counter_eq (counter 0 before),
    numberedCount_cons, if_pos hfirst, ← UInt16.toNat_inj, UInt16.toNat_add, UInt16.toNat_ofNat']
  have hlt := (counter 0 before).toNat_lt
  omega

/-- The D flag of a message does not depend on its number. -/
theorem dFlag_frame (r : Request) (tranID : UInt16) :
    (r.frame tranID).dFlag = (r.frame 0).dFlag := by
  cases r <;> rfl

/-- Between the two states the messages were sent. -/
def Emits (s t : SppSender) (rs : List Request) : Prop :=
  ∃ log : List (Request × ℕ), log.map Prod.fst = rs ∧
    (∀ entry ∈ log, entry.1.Repeats entry.2) ∧ t.sent = s.sent ++ wire s.tranID log ∧
    t.tranID = counter s.tranID log

variable {s t u : SppSender} {rs rs' : List Request}

theorem Emits.refl (s : SppSender) : Emits s s [] :=
  ⟨[], rfl, fun _ hentry => (nomatch hentry), (List.append_nil _).symm, rfl⟩

theorem Emits.trans (h : Emits s t rs) (h' : Emits t u rs') : Emits s u (rs ++ rs') := by
  obtain ⟨log, rfl, hrepeats, hsent, htranID⟩ := h
  obtain ⟨log', rfl, hrepeats', hsent', htranID'⟩ := h'
  refine ⟨log ++ log', List.map_append, List.forall_mem_append.mpr ⟨hrepeats, hrepeats'⟩, ?_, ?_⟩
  · rw [hsent', hsent, htranID, wire_append, List.append_assoc]
  · rw [htranID', htranID, counter_append]

/-- Nothing is sent where nothing is built or transmitted. -/
theorem Emits.of_waited (h : SppSender.Waited s t) : Emits s t [] :=
  ⟨[], rfl, fun _ hentry => (nomatch hentry), by rw [h.sent_eq, wire, List.append_nil],
    h.tranID_eq⟩

namespace SppSender

theorem tranID_resend (hdr : Header) (cDataLen : UInt8) (left : ℕ) (s : SppSender) :
    (resend hdr cDataLen left s).2.tranID = s.tranID := by
  induction left generalizing s with
  | zero => rfl
  | succ left ih =>
    have hwaited := waited_waitDalinkAck 1000 hdr.tranId hdr.cmdId (s.sendSppData cDataLen)
    rw [resend]
    dsimp only
    split_ifs
    · rw [ih, hwaited.tranID_eq, sendSppData]
    · rw [hwaited.tranID_eq, sendSppData]
    · rfl

theorem tranID_sendCreated (r : Request) (s : SppSender) :
    (s.sendCreated r).tranID = r.next s.tranID := by
  have hnext : (s.createPacket r).2.tranID = r.next s.tranID := by
    cases r <;> rfl
  unfold sendCreated protectedSppSendData
  dsimp only
  split_ifs
  · exact hnext
  · rw [tranID_resend, hnext]

end SppSender

/-- **One send** puts its message on the wire, and nothing else. -/
theorem emits_sendCreated (r : Request) (s : SppSender) : Emits s (s.sendCreated r) [r] := by
  obtain ⟨k, hone, hthree, honce, hsent⟩ := SppSender.sent_sendCreated r s
  refine ⟨[(r, k)], rfl, List.forall_mem_singleton.mpr ⟨hone, hthree, fun hflag => ?_⟩, ?_, ?_⟩
  · exact honce (dFlag_frame r s.tranID ▸ hflag)
  · rw [hsent, wire, wire, List.append_nil]
  · exact SppSender.tranID_sendCreated r s

theorem emits_plDalinkSendPacket (r : Request) (s : SppSender) :
    Emits s (s.plDalinkSendPacket r).2 [r] := by
  rw [SppSender.plDalinkSendPacket_eq]
  exact emits_sendCreated r s

/-! ### The messages an input asks for -/

/-- What a command asks to be sent, behind the acknowledgement. -/
def Command.answers : Command → List Request
  | siriCmd openOrClose =>
    if openOrClose = openSiri then [.siriFeedback openSiri openSiriSuccess]
    else if openOrClose = closeSiri then [.siriFeedback closeSiri closeSiriSuccess]
    else []
  | _ => []

/-- What a message of the HMI asks to be sent to the phone. -/
def PlMsgType.request? : PlMsgType → Option Request
  | wmPlinkParkPlay => some (.parkinfo parkStatePlay)
  | wmPlinkParkStop => some (.parkinfo parkStateStop)
  | wmPlinkStartDalink => some .startApp
  | wmPlinkDalinkStatusReq => some (.requestPhonestate btSppMessagePhoneDalinkAppState)
  | wmPlinkDalinkMainmenuStatusReq =>
    some (.requestPhonestate btSppMessageDalinkMainmenuStatusState)
  | wmPlinkPhoneTimeReq => some (.requestPhonestate btSppMessagePhoneSystemTime)
  | wmPlinkPhoneSiriReq => some (.siri openSiri)
  | wmPlinkScreenDirectionReq => some (.requestPhonestate btSppMessagePhoneDirection)
  | _ => none

namespace TouchScreen

/-- The touch of one contact, in the coordinates of the phone. -/
def contact (s : TouchScreen) (x y : ℤ) (action serialNum : UInt8) : Request :=
  .touchscreen (.ofInt (s.scaled s.param.moveXfix x)) (.ofInt (s.scaled s.param.moveYfix y))
    action serialNum

end TouchScreen

namespace HeadUnit

/-- The messages that an input asks for, in order. -/
def requests (s : HeadUnit) : HeadAction → List Request
  | .packet packetHeader len =>
    if len < (packetHeader btSppMessageLengthIndex).toNat + btSppMessagePacketLenExceptPlayload
    then []
    else
      let hdr := readHeader packetHeader
      (if hdr.dFlag = 1 then [.ack hdr.tranId hdr.cmdId] else []) ++
        (commandOf packetHeader).answers
  | .hmi msgType => msgType.request?.toList
  | .touch .. => []
  | .doubleTouch x y action x1 y1 _ tick _ =>
    if s.touch.Forwarded x y action x1 y1 tick then
      [s.touch.contact x y action 0, s.touch.contact x1 y1 action 1]
    else []
  | .updatePairList _ => []
  | .timer => if s.connection.connected .spp then [.heartbeat] else []

/-! ### One input -/

variable (s : HeadUnit)

theorem emits_acknowledge (hdr : Header) : Emits s.spp (s.acknowledge hdr).spp
    (if hdr.dFlag = 1 then [.ack hdr.tranId hdr.cmdId] else []) := by
  rw [spp_acknowledge]
  split_ifs
  · exact emits_plDalinkSendPacket _ _
  · exact Emits.refl _

theorem emits_handle (ackTranid : UInt16) (c : Command) :
    Emits s.spp (s.handle ackTranid c).spp c.answers := by
  rw [spp_handle]
  cases c with
  | ack commandId => exact Emits.of_waited ⟨rfl, rfl, rfl⟩
  | siriCmd openOrClose =>
    dsimp only [Command.onSpp, Command.answers]
    split_ifs
    · exact emits_plDalinkSendPacket _ _
    · exact emits_plDalinkSendPacket _ _
    · exact Emits.refl _
  | _ => exact Emits.refl _

theorem emits_dealWithHmiData (msgType : PlMsgType) :
    Emits s.spp (s.dealWithHmiData msgType).spp msgType.request?.toList := by
  cases msgType with
  | wmPlinkStartDalink => exact emits_sendCreated _ _
  | wmPlinkParkPlay | wmPlinkParkStop | wmPlinkDalinkStatusReq | wmPlinkDalinkMainmenuStatusReq
  | wmPlinkPhoneTimeReq | wmPlinkPhoneSiriReq | wmPlinkScreenDirectionReq =>
    exact emits_plDalinkSendPacket _ _
  | _ => exact Emits.refl _

/-- A touch of two fingers that is sent on is one message for each contact. -/
theorem emits_procDoubleTouchInfo (x y : ℤ) (action : UInt8) (x1 y1 : ℤ) (action1 : UInt8)
    (tick tickAfter : UInt32) :
    Emits s.spp (s.touch.procDoubleTouchInfo x y action x1 y1 action1 tick tickAfter s.spp).2
      (s.requests (.doubleTouch x y action x1 y1 action1 tick tickAfter)) := by
  dsimp only [requests]
  split_ifs with hforwarded
  · obtain ⟨status, hstatus, hspp⟩ :=
      TouchScreen.procDoubleTouchInfo_of_forwarded hforwarded action1 tickAfter s.spp
    obtain rfl := TouchScreen.toUInt8_of_touchStatus hstatus
    rw [hspp]
    exact (emits_sendCreated (s.touch.contact x y status.toUInt8 0) s.spp).trans
      (emits_sendCreated _ _)
  · rw [TouchScreen.procDoubleTouchInfo_of_not_forwarded hforwarded]
    exact Emits.refl _

/-- **One input** puts on the wire what it asks for. -/
theorem emits_step (a : HeadAction) : Emits s.spp (s.step a).spp (s.requests a) := by
  cases a with
  | packet packetHeader len =>
    rw [step, dalinkSppPacketDeal, requests]
    by_cases hlen : len < (packetHeader btSppMessageLengthIndex).toNat +
      btSppMessagePacketLenExceptPlayload
    · rw [if_pos hlen, if_pos hlen]
      exact Emits.refl _
    · rw [if_neg hlen, if_neg hlen]
      exact (s.emits_acknowledge _).trans (emits_handle _ _ _)
  | hmi msgType => exact s.emits_dealWithHmiData msgType
  | touch x y action tick tickAfter => exact Emits.refl _
  | doubleTouch x y action x1 y1 action1 tick tickAfter =>
    exact s.emits_procDoubleTouchInfo x y action x1 y1 action1 tick tickAfter
  | updatePairList checkConnect => exact Emits.refl _
  | timer =>
    dsimp only [step, requests]
    split_ifs
    · exact emits_plDalinkSendPacket _ _
    · exact Emits.refl _

/-! ### Runs -/

theorem emits_run (acts : List HeadAction) :
    Emits s.spp (run step s acts).spp (shownBy step requests s acts) :=
  run_shownBy (R := fun (s t : HeadUnit) rs => Emits s.spp t.spp rs) (fun s => Emits.refl s.spp)
    (fun h h' => Emits.trans h h') emits_step s acts

end HeadUnit

/-- **The wire.** In every run of inputs dealt with one after the other, what the phone receives
is one block for each message the inputs ask for, in order: the frame of the message,
transmitted once, or up to three times if it has the D flag. Messages that are not ACKs are
numbered from zero on, so that two of them have the same id exactly if a multiple of 65536
lies between their numbers. -/
theorem requests_on_the_wire (env : Environment) (acts : List HeadAction) :
    let s := HeadUnit.start env
    ∃ log : List (Request × ℕ),
      log.map Prod.fst = shownBy HeadUnit.step HeadUnit.requests s acts ∧
      (∀ entry ∈ log, entry.1.Repeats entry.2) ∧
      (run HeadUnit.step s acts).spp.sent = wire 0 log ∧
      ∀ before first between last after, log = before ++ first :: between ++ last :: after →
        first.1.numbered → last.1.numbered →
          ((first.1.frame (counter 0 before)).tranID =
              (last.1.frame (counter 0 (before ++ first :: between))).tranID ↔
            65536 ∣ numberedCount between + 1) := by
  intro s
  obtain ⟨log, hlog, hrepeats, hsent, -⟩ := HeadUnit.emits_run s acts
  exact ⟨log, hlog, hrepeats, hsent, fun _ _ _ _ _ _ hfirst hlast => tranID_eq_iff hfirst hlast⟩

/-! ### What the program would receive -/

/-- The frame of one of the messages, whatever its number. -/
def FrameOf (rs : List Request) (f : Frame) : Prop := ∃ r ∈ rs, ∃ tranID, f = r.frame tranID

theorem frameOf_of_mem_wire {log : List (Request × ℕ)} {tranID : UInt16} {bytes : List UInt8}
    (h : bytes ∈ wire tranID log) : ∃ f, FrameOf (log.map Prod.fst) f ∧ bytes = f.bytes := by
  induction log generalizing tranID with
  | nil => cases h
  | cons entry log ih =>
    rw [wire, List.mem_append] at h
    rcases h with hnow | hlater
    · exact ⟨_, ⟨entry.1, List.mem_cons_self, tranID, rfl⟩, List.eq_of_mem_replicate hnow⟩
    · obtain ⟨f, ⟨r, hr, hf⟩, hbytes⟩ := ih hlater
      exact ⟨f, ⟨r, List.mem_cons_of_mem _ hr, hf⟩, hbytes⟩

theorem exists_frames {part : List (List UInt8)}
    (h : ∀ bytes ∈ part, ∃ f, FrameOf rs f ∧ bytes = f.bytes) :
    ∃ frames : List Frame, part = frames.map Frame.bytes ∧ ∀ f ∈ frames, FrameOf rs f := by
  induction part with
  | nil => exact ⟨[], rfl, fun _ hf => (nomatch hf)⟩
  | cons bytes part ih =>
    rw [List.forall_mem_cons] at h
    obtain ⟨f, hf, rfl⟩ := h.1
    obtain ⟨frames, rfl, hframes⟩ := ih h.2
    exact ⟨f :: frames, rfl, List.forall_mem_cons.mpr ⟨hf, hframes⟩⟩

/-- What is read at a place is the frame: its id, command and flag, and its payload. -/
def ReadAt (buf : Memory) (packetHeader : ℕ) (f : Frame) : Prop :=
  readHeader (buf.shift packetHeader) = f.header ∧
    (buf.shift packetHeader).read btSppMessagePlayloadStartIndex f.payload.length = f.payload

theorem readAt_of_holds {buf : Memory} {i : ℕ} {f : Frame} (h : buf.Holds i f.bytes) :
    ReadAt buf i f := by
  have hhere : (buf.shift i).Holds 0 f.bytes := Memory.holds_shift.mpr h
  exact ⟨readHeader_of_holds hhere, (holds_payload hhere).read_eq⟩

/-- From the first of the frames on, with the event ending behind the last. -/
theorem holds_handed {buf : Memory} {len i : ℕ} {frames : List Frame}
    (hbuf : buf.Holds i (stream frames)) (hlen : len = i + (stream frames).length)
    (hmax : len ≤ 255) :
    List.Forall₂ (fun p f => buf.Holds p.packetHeader f.bytes ∧
      p.packetHeader + f.bytes.length ≤ len) (handed len buf i) frames := by
  induction frames generalizing i with
  | nil =>
    rw [handed_of_le (by rw [hlen]; exact Nat.le_refl _)]
    exact .nil
  | cons f frames ih =>
    rw [stream_cons] at hbuf hlen
    obtain ⟨hf, hrest⟩ := Memory.holds_append.mp hbuf
    rw [List.length_append] at hlen
    obtain ⟨hten, -⟩ := length_bytes_bounds f
    -- no more than 255 bytes are left, which the narrowing keeps
    rw [handed_of_holds (by omega) hf (by omega)]
    exact .cons ⟨hf, show i + f.bytes.length ≤ len by omega⟩ (ih hrest (by omega))

/-- **Loopback.** Any part of what a run of inputs dealt with one after the other transmits, up
to 255 bytes, is decoded by the program's own receive loop into the frames transmitted: each
is found where it starts, with the header and the payload of the message it was built for. -/
theorem transmissions_received (env : Environment) (acts : List HeadAction)
    (part : List (List UInt8))
    (hpart : part <:+: (run HeadUnit.step (.start env) acts).spp.sent)
    (hmax : part.flatten.length ≤ 255) (mem : Memory) :
    ∃ frames : List Frame, part = frames.map Frame.bytes ∧
      (∀ f ∈ frames,
        FrameOf (shownBy HeadUnit.step HeadUnit.requests (.start env) acts) f) ∧
      List.Forall₂ (ReadAt (.overlay part.flatten mem))
        (dispatched part.flatten.length (.overlay part.flatten mem)) frames := by
  obtain ⟨log, hlog, -, hsent, -⟩ := HeadUnit.emits_run (.start env) acts
  -- nothing has been transmitted at the start
  have hwire : ∀ bytes ∈ part, bytes ∈ wire 0 log := fun bytes hbytes => by
    have hmem := hpart.subset hbytes
    rw [hsent] at hmem
    exact hmem
  obtain ⟨frames, rfl, hframes⟩ := exists_frames fun bytes hbytes =>
    frameOf_of_mem_wire (hwire bytes hbytes)
  refine ⟨frames, rfl, hlog ▸ hframes, ?_⟩
  rw [dispatched_eq, List.forall₂_map_left_iff]
  exact (holds_handed (Memory.holds_overlay _ _) (Nat.zero_add _).symm hmax).imp
    fun _ _ h => readAt_of_holds h.1

/-- The park state, asked for twice, and what the program transmits for it. -/
theorem transmissions_received_parkinfo :
    let s := HeadUnit.start (.quiet .exact)
    let acts := [HeadAction.hmi .wmPlinkParkPlay, .hmi .wmPlinkParkStop]
    let part := (run HeadUnit.step s acts).spp.sent
    ∃ frames : List Frame, part = frames.map Frame.bytes ∧
      (∀ f ∈ frames, FrameOf (shownBy HeadUnit.step HeadUnit.requests s acts) f) ∧
      List.Forall₂ (ReadAt (.overlay part.flatten .zero))
        (dispatched part.flatten.length (.overlay part.flatten .zero)) frames :=
  transmissions_received (.quiet .exact) [.hmi .wmPlinkParkPlay, .hmi .wmPlinkParkStop] _
    List.infix_rfl (by decide +kernel) .zero

end PhoneLink
