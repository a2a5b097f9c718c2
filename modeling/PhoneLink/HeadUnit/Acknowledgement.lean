import PhoneLink.HeadUnit.Dispatch
import Mathlib.Data.List.Forall2

/-!
# Acknowledgement of received frames

The receive loop over the bytes of one event, with the dispatcher of the program. What it
transmits through `sendSppData` is a mixture of ACKs and of what the handlers send; the
ACKs among it answer the received frames with the D flag, one for each and in order.

## Main definitions

* `IsAck`: the bytes transmitted have the command of an ACK
* `Acknowledges`: they are an ACK for a frame, for anyone who reads them

## Main results

* `transmits_onSpp`: no handler transmits an ACK
* `transmits_dalinkSppPacketDeal`: the ACKs for one frame
* `acknowledgement_law`: the ACKs for the frames of an event
-/

namespace PhoneLink

open CS

/-- The transmitted bytes are a frame of type `BT_SPP_MESSAGE_DL_HU_ACK`. -/
def IsAck (bytes : List UInt8) : Prop := bytes[btSppMessageCmdTypeIndex]? = some btSppMessageDlHuAck

instance (bytes : List UInt8) : Decidable (IsAck bytes) := inferInstanceAs (Decidable (_ = _))

/-- Wherever the transmitted bytes are received, the checker accepts them as one frame:
an ACK with the id of `f`, no D flag, and the command of `f` as its payload. -/
def Acknowledges (bytes : List UInt8) (f : Frame) : Prop :=
  ∀ mem : Memory,
    dalinkCheckPacketIntegrity (.overlay bytes mem) (UInt8.ofNat bytes.length) =
        some ⟨0, bytes.length⟩ ∧
      readHeader (.overlay bytes mem) = ⟨dFlagNoNeedAck, btSppMessageDlHuAck, f.tranID⟩ ∧
      (Memory.overlay bytes mem).read btSppMessageLengthIndex 2 = [1, f.type]

/-- The ACK for a frame. -/
def ackBytes (f : Frame) : List UInt8 := ((Request.ack f.tranID f.type).frame 0).bytes

theorem Frame.isAck_bytes_iff (f : Frame) : IsAck f.bytes ↔ f.type = btSppMessageDlHuAck := by
  rw [IsAck, f.bytes_eq, packet, packetBody]
  exact Option.some_inj

theorem acknowledges_ackBytes (f : Frame) : Acknowledges (ackBytes f) f := by
  intro mem
  have hholds : (Memory.overlay (ackBytes f) mem).Holds 0 (ackBytes f) := Memory.holds_overlay _ _
  refine ⟨check_of_holds hholds, readHeader_of_holds hholds, ?_⟩
  rw [ackBytes, Frame.bytes_eq]
  rfl

/-! ### What is transmitted for one frame -/

/-- What a step transmits, with the frames it acknowledges. -/
def Transmits (s t : SppSender) (frames : List Frame) : Prop :=
  ∃ new, t.sent = s.sent ++ new ∧ List.Forall₂ Acknowledges (new.filter IsAck) frames

variable {s t u : SppSender} {f : Frame}

theorem Transmits.refl (s : SppSender) : Transmits s s [] := ⟨[], (List.append_nil _).symm, .nil⟩

theorem Transmits.trans {frames frames' : List Frame} (h : Transmits s t frames)
    (h' : Transmits t u frames') : Transmits s u (frames ++ frames') := by
  obtain ⟨new, hsent, hacks⟩ := h
  obtain ⟨new', hsent', hacks'⟩ := h'
  refine ⟨new ++ new', by rw [hsent', hsent, List.append_assoc], ?_⟩
  rw [List.filter_append]
  exact List.rel_append hacks hacks'

/-- An ACK is transmitted once, having no D flag. -/
theorem transmits_ack (s : SppSender) (f : Frame) :
    Transmits s (s.plDalinkSendPacket (.ack f.tranID f.type)).2 [f] := by
  obtain ⟨k, -, -, honce, hsent⟩ := SppSender.sent_sendCreated (.ack f.tranID f.type) s
  obtain rfl := honce (show dFlagNoNeedAck ≠ 0x01 by decide)
  rw [SppSender.plDalinkSendPacket_eq]
  refine ⟨[ackBytes f], hsent, ?_⟩
  have hack : IsAck (ackBytes f) := (Frame.isAck_bytes_iff _).mpr rfl
  rw [List.filter_cons_of_pos (by simpa using hack)]
  exact .cons (acknowledges_ackBytes f) .nil

/-- Any other request transmits no ACK, however often it is transmitted. -/
theorem transmits_of_ne_ack {r : Request} (h : (r.frame s.tranID).type ≠ btSppMessageDlHuAck) :
    Transmits s (s.plDalinkSendPacket r).2 [] := by
  obtain ⟨k, -, -, -, hsent⟩ := SppSender.sent_sendCreated r s
  rw [SppSender.plDalinkSendPacket_eq]
  refine ⟨_, hsent, ?_⟩
  have hnone : (List.replicate k (r.frame s.tranID).bytes).filter IsAck = [] := by
    rw [List.filter_eq_nil_iff]
    intro bytes hbytes
    rw [List.eq_of_mem_replicate hbytes, decide_eq_true_iff, Frame.isAck_bytes_iff]
    exact h
  rw [hnone]
  exact .nil

/-- No handler transmits an ACK. -/
theorem transmits_onSpp (ackTranid : UInt16) (c : Command) (s : SppSender) :
    Transmits s (c.onSpp ackTranid s) [] := by
  cases c with
  | ack commandId => exact ⟨[], (List.append_nil _).symm, .nil⟩
  | siriCmd openOrClose =>
    dsimp only [Command.onSpp]
    split_ifs
    · exact transmits_of_ne_ack (by simp only [Request.frame, Frame.short]; decide)
    · exact transmits_of_ne_ack (by simp only [Request.frame, Frame.short]; decide)
    · exact Transmits.refl s
  | _ => exact Transmits.refl s

/-- The ACKs for one frame: one if it has the D flag, else none. -/
theorem transmits_dalinkSppPacketDeal (s : HeadUnit) {buf : Memory} {len : ℕ}
    (hbuf : buf.Holds 0 f.bytes) (hlen : f.bytes.length ≤ len) :
    Transmits s.spp (s.dalinkSppPacketDeal buf len).spp ([f].filter fun f => f.dFlag = 1) := by
  have hannounced := announced_of_holds hbuf
  have hfull : ¬ len < (buf btSppMessageLengthIndex).toNat +
      btSppMessagePacketLenExceptPlayload := by
    rw [announced, Nat.zero_add] at hannounced
    rw [hannounced, Nat.not_lt]
    exact hlen
  rw [HeadUnit.dalinkSppPacketDeal, if_neg hfull]
  dsimp only
  rw [readHeader_of_holds hbuf, HeadUnit.spp_handle, HeadUnit.spp_acknowledge]
  have hhandled := transmits_onSpp f.header.tranId (commandOf buf)
  by_cases hflag : f.dFlag = 1
  · have hheader : f.header.dFlag = 1 := hflag
    rw [if_pos hheader, List.filter_cons_of_pos (by simpa using hflag)]
    exact (transmits_ack s.spp f).trans (hhandled _)
  · have hheader : ¬ f.header.dFlag = 1 := hflag
    rw [if_neg hheader, List.filter_cons_of_neg (by simpa using hflag)]
    exact hhandled _

/-! ### What is transmitted for an event -/

/-- The dispatcher over the bytes of an event, as the receive loop calls it. -/
def HeadUnit.dispatch (buf : Memory) (s : HeadUnit) (packetHeader len : ℕ) : HeadUnit :=
  s.dalinkSppPacketDeal (buf.shift packetHeader) len

/-- From the first of the frames on, with the event ending behind the last. -/
theorem transmits_handed {buf : Memory} {len i : ℕ} {frames : List Frame}
    (hbuf : buf.Holds i (stream frames)) (hlen : len = i + (stream frames).length)
    (hmax : len ≤ 255) (s : HeadUnit) :
    Transmits s.spp
      ((handed len buf i).foldl (fun s p => s.dispatch buf p.packetHeader len) s).spp
      (frames.filter fun f => f.dFlag = 1) := by
  induction frames generalizing i s with
  | nil =>
    rw [handed_of_le (by rw [hlen]; exact Nat.le_refl _)]
    exact Transmits.refl s.spp
  | cons f frames ih =>
    rw [stream_cons] at hbuf hlen
    obtain ⟨hf, hrest⟩ := Memory.holds_append.mp hbuf
    rw [List.length_append] at hlen
    obtain ⟨hten, -⟩ := length_bytes_bounds f
    -- no more than 255 bytes are left, which the narrowing keeps
    rw [handed_of_holds (by omega) hf (by omega), List.foldl_cons, ← List.singleton_append,
      List.filter_append]
    have hfirst := transmits_dalinkSppPacketDeal s (Memory.holds_shift.mpr hf)
      (show f.bytes.length ≤ len by omega)
    exact hfirst.trans (ih hrest (by omega) _)

/-- **Acknowledgement.** For every list of built frames of at most 255 bytes in all, the
ACKs among what the receive loop transmits are one for each frame whose D flag is 1, in
order: with the frame's id and command, without D flag, and accepted by the checker. -/
theorem acknowledgement_law (frames : List Frame) (hmax : (stream frames).length ≤ 255)
    (mem : Memory) (s : HeadUnit) :
    let buf := Memory.overlay (stream frames) mem
    let t := phoneAppMsgDeal (HeadUnit.dispatch buf) (stream frames).length buf s
    ∃ new, t.spp.sent = s.spp.sent ++ new ∧
      List.Forall₂ Acknowledges (new.filter IsAck) (frames.filter fun f => f.dFlag = 1) := by
  intro buf t
  have hholds : buf.Holds 0 (stream frames) := Memory.holds_overlay _ _
  have htransmits := transmits_handed hholds (Nat.zero_add _).symm hmax s
  rwa [← phoneAppMsgDeal_eq_foldl] at htransmits

/-- A heartbeat without the D flag, and the phone's direction with it. -/
theorem acknowledgement_law_direction :
    let frames := [heartbeatFrame, .short btSppMessageDlHuPhonestate 0xFF80 dFlagNeedAck
      [btSppMessagePhoneDirection, 1] rfl]
    let s := HeadUnit.start (.quiet .exact)
    let t := phoneAppMsgDeal (HeadUnit.dispatch (Memory.overlay (stream frames) .zero))
      (stream frames).length (Memory.overlay (stream frames) .zero) s
    ∃ new, t.spp.sent = s.spp.sent ++ new ∧
      List.Forall₂ Acknowledges (new.filter IsAck) (frames.filter fun f => f.dFlag = 1) :=
  acknowledgement_law [heartbeatFrame, .short btSppMessageDlHuPhonestate 0xFF80 dFlagNeedAck
    [btSppMessagePhoneDirection, 1] rfl] (by decide +kernel) .zero (.start (.quiet .exact))

end PhoneLink
