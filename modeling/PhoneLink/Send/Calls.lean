import PhoneLink.Send.Acknowledged
import PhoneLink.Send.Transmission

/-!
# A call and its frame

A call reads the header of its frame back from the shared buffer, and decides by it whether
to wait and what for. As long as nobody builds a frame between a call's create step and its
transmissions, the header is that of the call's own frame, and the transmissions since the
first are all of this frame: between lock and unlock nobody else transmits.

## Main definitions

* `LastCarried`: what the last transmissions carried
* `Pc.Own`: header and transmissions of a call are those of its frame

## Main results

* `own_calls`: every call is its own, along every run in which no other thread builds a frame
  between a call's create step and a transmission of the call
-/

namespace PhoneLink

open CS CS.Transition

/-- So many of the last transmissions carried the frame of the call. -/
def LastCarried (n : ℕ) (call : Call) (transmitted : List (List UInt8 × List UInt8)) : Prop :=
  List.replicate n (call.frame.bytes, call.frame.bytes) <:+ transmitted

section LastCarried

variable {n k : ℕ} {call : Call} {transmitted : List (List UInt8 × List UInt8)}

theorem lastCarried_zero : LastCarried 0 call transmitted := List.nil_suffix

theorem LastCarried.succ (h : LastCarried n call transmitted) :
    LastCarried (n + 1) call (transmitted ++ [(call.frame.bytes, call.frame.bytes)]) := by
  obtain ⟨before, rfl⟩ := h
  rw [List.append_assoc, LastCarried, List.replicate_succ']
  exact List.suffix_append before _

theorem LastCarried.of_le (h : LastCarried n call transmitted) (hk : k ≤ n) :
    LastCarried k call transmitted := by
  refine List.IsSuffix.trans ⟨List.replicate (n - k) (call.frame.bytes, call.frame.bytes), ?_⟩ h
  rw [List.replicate_append_replicate, Nat.sub_add_cancel hk]

theorem LastCarried.mem (h : LastCarried n call transmitted) (hn : 1 ≤ n) :
    (call.frame.bytes, call.frame.bytes) ∈ transmitted :=
  h.subset (List.mem_replicate.mpr ⟨by omega, rfl⟩)

end LastCarried

/-- The header is that of the call's frame and every transmission so far carried the frame.
Before the first transmission this holds only as long as nobody else has built a frame. -/
def Pc.Own (builder : Option Thread) (t : Thread) (transmitted : List (List UInt8 × List UInt8)) :
    Pc → Prop
  | .idle | .created _ => True
  | .sending call hdr 0 => builder = some t → hdr = call.frame.header
  | .sending call hdr (i + 1) =>
    hdr = call.frame.header ∧ LastCarried (i + 1) call transmitted
  | .waiting call hdr i | .fetching call hdr i =>
    hdr = call.frame.header ∧ 1 ≤ i ∧ LastCarried i call transmitted
  | .releasing call hdr ret =>
    hdr = call.frame.header ∧ LastCarried 1 call transmitted ∧
      (ret = -2 → LastCarried 3 call transmitted)

section Own

variable {builder : Option Thread} {t u : Thread} {call : Call} {hdr : Header} {i : ℕ} {p : Pc}
  {transmitted transmitted' : List (List UInt8 × List UInt8)}

theorem own_of_not_locked (h : p.locked = false) : p.Own builder t transmitted := by
  cases p with
  | idle | created call => trivial
  | sending call hdr i | waiting call hdr i | fetching call hdr i | releasing call hdr ret =>
    cases h

/-- Another thread builds a frame. -/
theorem Pc.Own.of_build (h : p.Own builder t transmitted) (hne : u ≠ t) :
    p.Own (some u) t transmitted := by
  cases p with
  | sending call hdr i =>
    cases i with
    | zero => exact fun hbuilder => absurd (Option.some.inj hbuilder) hne
    | succ i => exact h
  | idle | created call | waiting call hdr i | fetching call hdr i | releasing call hdr ret =>
    exact h

theorem own_afterSend (h : (Pc.sending call hdr i).Own (some t) t transmitted) :
    (SendSystem.afterSend call hdr i).Own (some t) t
      (transmitted ++ [(call.frame.bytes, call.frame.bytes)]) := by
  have hown : hdr = call.frame.header ∧ LastCarried i call transmitted := by
    cases i with
    | zero => exact ⟨h rfl, lastCarried_zero⟩
    | succ i => exact h
  have hcarried := hown.2.succ
  unfold SendSystem.afterSend
  split_ifs
  · exact ⟨hown.1, Nat.le_add_left 1 i, hcarried⟩
  · exact ⟨hown.1, hcarried.of_le (Nat.le_add_left 1 i), fun hret => nomatch hret⟩

theorem own_afterFetch (h : (Pc.fetching call hdr i).Own builder t transmitted)
    (ack : BtSppDalinkAck) :
    (SendSystem.afterFetch call hdr i ack).Own builder t transmitted := by
  obtain ⟨hheader, hone, hcarried⟩ := h
  rw [SendSystem.afterFetch_eq]
  split_ifs
  · exact ⟨hheader, hcarried.of_le hone, fun hret => nomatch hret⟩
  · exact ⟨hheader, hone, hcarried⟩

theorem own_afterTimeout (h : (Pc.waiting call hdr i).Own builder t transmitted) :
    (SendSystem.afterTimeout call hdr i).Own builder t transmitted := by
  obtain ⟨hheader, hone, hcarried⟩ := h
  unfold SendSystem.afterTimeout
  split_ifs with hagain
  · obtain ⟨i, rfl⟩ := Nat.exists_eq_add_of_le' hone
    exact ⟨hheader, hcarried⟩
  · -- after the third time-out
    exact ⟨hheader, hcarried.of_le hone, fun _ => hcarried.of_le (by omega)⟩

end Own

/-- One sender at a time, the last builder's frame in the buffer, and every call its own. -/
structure OwnCalls (s : SendSystem) : Prop where
  exclusive : Exclusive s.sppSendProctectMutex s.pc
  frames : OwnFrames s
  own : ∀ t, (s.pc t).Own s.builder t s.transmitted

theorem ownCalls_start : OwnCalls sendStart where
  exclusive := fun _ hlocked => nomatch hlocked
  frames := ownFrames_start
  own := fun _ => trivial

variable {s s' : SendSystem} {a : SendAction} {t : Thread}

theorem own_build {r : Request} (h : ∀ t, (s.pc t).Own s.builder t s.transmitted)
    (hbuild : s.build t r = some s') (u : Thread) :
    (s'.pc u).Own s'.builder u s'.transmitted := by
  obtain ⟨-, rfl⟩ := SendSystem.build_eq_some hbuild
  dsimp only
  by_cases hu : u = t
  · rw [hu, Function.update_self]
    trivial
  · rw [Function.update_of_ne hu]
    exact (h u).of_build (Ne.symm hu)

/-- A step of one thread that transmits nothing. -/
theorem own_update {p : Pc} (h : ∀ t, (s.pc t).Own s.builder t s.transmitted)
    (hp : p.Own s.builder t s.transmitted) (u : Thread) :
    (Function.update s.pc t p u).Own s.builder u s.transmitted := by
  by_cases hu : u = t
  · rwa [hu, Function.update_self]
  · rw [Function.update_of_ne hu]
    exact h u

theorem OwnCalls.own_step (h : OwnCalls s) (hcond : noCreateSince s a)
    (hstep : s.step a = some s') (u : Thread) : (s'.pc u).Own s'.builder u s'.transmitted := by
  cases a with
  | create t r => exact own_build h.own (SendSystem.step_create hstep) u
  | lock t =>
    obtain ⟨call, hpc, -, rfl⟩ := SendSystem.step_lock hstep
    have hown : (Pc.sending call (readHeader s.dalinkSppSendBuf) 0).Own s.builder t
        s.transmitted := by
      -- the buffer holds the frame as long as nobody else has built one
      intro hbuilder
      exact readHeader_of_holds (h.frames.built t call hbuilder (by rw [hpc]; rfl))
    exact own_update h.own hown u
  | sendSppData t =>
    have hframes := h.frames.step hcond hstep
    obtain ⟨call, hdr, i, hpc, rfl⟩ := SendSystem.step_sendSppData hstep
    have hbuilder : s.builder = some t := hcond
    have hcarried : s.dalinkSppSendBuf.read 0 call.cDataLen.toNat = call.frame.bytes :=
      hframes.transmitted (call.frame.bytes, _) (List.mem_append_right _ List.mem_cons_self)
    have hown := h.own t
    rw [hpc, hbuilder] at hown
    dsimp only
    rw [hcarried]
    by_cases hu : u = t
    · subst hu
      rw [Function.update_self, hbuilder]
      exact own_afterSend hown
    · rw [Function.update_of_ne hu]
      exact own_of_not_locked (h.exclusive.not_locked (by rw [hpc]; rfl) hu)
  | waitDalinkAckResponse t =>
    obtain ⟨call, hdr, i, q, hpc, -, rfl⟩ := SendSystem.step_waitDalinkAckResponse hstep
    have hown := h.own t
    rw [hpc] at hown
    exact own_update h.own (show (Pc.fetching call hdr i).Own _ _ _ from hown) u
  | getDalinkAckData t =>
    obtain ⟨call, hdr, i, q, hpc, -, rfl⟩ := SendSystem.step_getDalinkAckData hstep
    exact own_update h.own (own_afterFetch (hpc ▸ h.own t) _) u
  | timeout t =>
    obtain ⟨call, hdr, i, hpc, -, rfl⟩ := SendSystem.step_timeout hstep
    exact own_update h.own (own_afterTimeout (hpc ▸ h.own t)) u
  | release t =>
    obtain ⟨call, hdr, ret, -, rfl⟩ := SendSystem.step_release hstep
    exact own_update h.own (show Pc.idle.Own _ _ _ from trivial) u
  | bluetoothSppDataProc event =>
    obtain rfl := Option.some.inj hstep
    exact h.own u
  | waitBtCommand =>
    obtain ⟨event, events, -, -, rfl⟩ := SendSystem.step_waitBtCommand hstep
    exact h.own u
  | dalinkSppPacketDeal =>
    obtain ⟨-, rfl⟩ | ⟨f, rest, v, -, hv, rfl⟩ | ⟨f, rest, -, rfl⟩ :=
      SendSystem.step_dalinkSppPacketDeal hstep
    · exact h.own u
    · exact own_build h.own hv u
    · exact h.own u
  | dispatchCommand =>
    obtain ⟨f, rest, q, -, -, -, rfl⟩ | ⟨f, rest, v, -, -, hv, rfl⟩ | ⟨f, rest, -, -, rfl⟩ :=
      SendSystem.step_dispatchCommand hstep
    · exact h.own u
    · exact own_build h.own hv u
    · exact h.own u
  | semPost =>
    obtain ⟨f, rest, q, -, -, rfl⟩ := SendSystem.step_semPost hstep
    exact h.own u

/-- **Calls and their frames.** Along every run in which no other thread builds a frame
between a call's create step and a transmission of the call, every call acts on the header of
its own frame and has transmitted this frame only. -/
theorem own_calls {acts : List SendAction}
    (hrun : exec SendSystem.step sendStart acts = some s)
    (hcond : Meets SendSystem.step noCreateSince sendStart acts) (t : Thread) :
    (s.pc t).Own s.builder t s.transmitted := by
  have hcalls : OwnCalls s :=
    exec_invariant_of_meets OwnCalls
      (fun _ _ _ h hc hstep =>
        ⟨exclusive_step h.exclusive hstep, h.frames.step hc hstep, h.own_step hc hstep⟩)
      ownCalls_start hcond hrun
  exact hcalls.own t

end PhoneLink
