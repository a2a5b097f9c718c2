import PhoneLink.CS.Simulation
import PhoneLink.Send.Acknowledged

/-!
# Sends are atomic

What the send mutex is for: however the threads interleave, the phone sees one call after
the other. The specification is an outbox with room for one call. A call begins, transmits
up to three times and ends, and nobody else transmits meanwhile; it transmits again only
if the header it read back asks for an ACK, and returns `-2` only after three
transmissions.

What a call transmits is another matter: it is whatever is in the send buffer.

## Main definitions

* `Delivery`: a finished call, with what its transmissions and its result have to satisfy
* `Outbox`, `Outbox.step`: the specification
* `SendSystem.shows`: the operations of the outbox that a step of a thread stands for

## Main results

* `simulates_outbox`: the outbox follows every step of the threads
* `sends_are_atomic`: what the threads do between lock and release is, in every run, a
  run of the outbox
-/

namespace PhoneLink

open CS CS.Transition

/-! ### The specification -/

/-- A call that has begun, and what it has transmitted so far. -/
structure Delivering where
  thread : Thread
  /-- What the call's create step encoded. -/
  frame : List UInt8
  /-- The header read back asks for an ACK. -/
  needsAck : Bool
  copies : List (List UInt8)

/-- What the transmissions and the result of a finished call satisfy. -/
structure Delivering.Done (c : Delivering) (ret : ℤ) : Prop where
  once : 1 ≤ c.copies.length
  thrice : c.copies.length ≤ 3
  unanswered : c.needsAck = false → c.copies.length = 1
  ret : ret = 0 ∨ ret = -2 ∧ c.needsAck = true ∧ c.copies.length = 3

/-- A finished call. -/
structure Delivery where
  call : Delivering
  ret : ℤ
  done : call.Done ret

/-- The finished calls, and the one under way. -/
structure Outbox where
  finished : List Delivery
  current : Option Delivering

inductive OutboxAction
  | start (t : Thread) (frame : List UInt8) (needsAck : Bool)
  | transmit (t : Thread) (bytes : List UInt8)
  | finish (t : Thread) (ret : ℤ)

instance (c : Delivering) (ret : ℤ) : Decidable (c.Done ret) :=
  decidable_of_iff (1 ≤ c.copies.length ∧ c.copies.length ≤ 3 ∧
      (c.needsAck = false → c.copies.length = 1) ∧
        (ret = 0 ∨ ret = -2 ∧ c.needsAck = true ∧ c.copies.length = 3))
    ⟨fun h => ⟨h.1, h.2.1, h.2.2.1, h.2.2.2⟩, fun h => ⟨h.1, h.2, h.3, h.4⟩⟩

namespace Outbox

def empty : Outbox := ⟨[], none⟩

/-- One call at a time. A call is transmitted again only while it needs an ACK, and
three times at most. -/
def step (o : Outbox) : OutboxAction → Option Outbox
  | .start t frame needsAck =>
    if o.current.isNone then some { o with current := some ⟨t, frame, needsAck, []⟩ } else none
  | .transmit t bytes =>
    match o.current with
    | some c =>
      if c.thread = t ∧ c.copies.length < 3 ∧ (c.copies = [] ∨ c.needsAck = true) then
        some { o with current := some { c with copies := c.copies ++ [bytes] } }
      else none
    | none => none
  | .finish t ret =>
    match o.current with
    | some c =>
      if h : c.thread = t ∧ c.Done ret then
        some { finished := o.finished ++ [⟨c, ret, h.2⟩], current := none }
      else none
    | none => none

/-- Everything transmitted, call by call, each transmission with its call's frame. -/
def transmitted (o : Outbox) : List (List UInt8 × List UInt8) :=
  (o.finished.map Delivery.call ++ o.current.toList).flatMap fun c =>
    c.copies.map fun bytes => (c.frame, bytes)

variable {o : Outbox} {c : Delivering} {ret : ℤ}

theorem step_start (h : o.current = none) (t : Thread) (frame : List UInt8) (needsAck : Bool) :
    o.step (.start t frame needsAck) =
      some { o with current := some ⟨t, frame, needsAck, []⟩ } := by
  simp [step, h]

theorem step_transmit (h : o.current = some c) (hroom : c.copies.length < 3)
    (hagain : c.copies = [] ∨ c.needsAck = true) (bytes : List UInt8) :
    o.step (.transmit c.thread bytes) =
      some { o with current := some { c with copies := c.copies ++ [bytes] } } := by
  simp [step, h, hroom, hagain]

theorem step_finish (h : o.current = some c) (hdone : c.Done ret) :
    o.step (.finish c.thread ret) =
      some { finished := o.finished ++ [⟨c, ret, hdone⟩], current := none } := by
  simp [step, h, hdone]

end Outbox

/-! ### What a thread shows -/

/-- The lock begins a call, a transmission transmits the buffer, and the release ends
the call. -/
def SendSystem.shows (s : SendSystem) : SendAction → List OutboxAction
  | .lock t =>
    match s.pc t with
    | .created call =>
      [.start t call.frame.bytes ((readHeader s.dalinkSppSendBuf).dFlag = dFlagNeedAck)]
    | _ => []
  | .sendSppData t =>
    match s.pc t with
    | .sending call _ _ => [.transmit t (s.dalinkSppSendBuf.read 0 call.cDataLen.toNat)]
    | _ => []
  | .release t =>
    match s.pc t with
    | .releasing _ _ ret => [.finish t ret]
    | _ => []
  | _ => []

section Shows

variable {s : SendSystem} {t : Thread} {call : Call} {hdr : Header} {i : ℕ} {ret : ℤ}

theorem shows_lock (h : s.pc t = .created call) : s.shows (.lock t) =
    [.start t call.frame.bytes ((readHeader s.dalinkSppSendBuf).dFlag = dFlagNeedAck)] := by
  simp only [SendSystem.shows, h]

theorem shows_sendSppData (h : s.pc t = .sending call hdr i) :
    s.shows (.sendSppData t) = [.transmit t (s.dalinkSppSendBuf.read 0 call.cDataLen.toNat)] := by
  simp only [SendSystem.shows, h]

theorem shows_release (h : s.pc t = .releasing call hdr ret) :
    s.shows (.release t) = [.finish t ret] := by
  simp only [SendSystem.shows, h]

end Shows

/-- Where the holder of the mutex stands in its call. -/
def Delivering.At (c : Delivering) : Pc → Prop
  | .sending call hdr i => c.frame = call.frame.bytes ∧
      c.needsAck = decide (hdr.dFlag = dFlagNeedAck) ∧ c.copies.length = i ∧ i < 3 ∧
      (c.copies = [] ∨ c.needsAck = true)
  | .waiting call hdr i | .fetching call hdr i => c.frame = call.frame.bytes ∧
      c.needsAck = true ∧ hdr.dFlag = dFlagNeedAck ∧ c.copies.length = i ∧ 1 ≤ i ∧ i ≤ 3
  | .releasing call _ ret => c.frame = call.frame.bytes ∧ c.Done ret
  | .idle | .created _ => False

/-- The outbox's call is that of the thread that holds the mutex. -/
structure Follows (s : SendSystem) (o : Outbox) : Prop where
  exclusive : Exclusive s.sppSendProctectMutex s.pc
  transmitted : s.transmitted = o.transmitted
  free : s.sppSendProctectMutex = none → o.current = none
  held : ∀ t, s.sppSendProctectMutex = some t →
    ∃ c, o.current = some c ∧ c.thread = t ∧ c.At (s.pc t)

theorem follows_start : Follows sendStart Outbox.empty where
  exclusive := fun _ hlocked => nomatch hlocked
  transmitted := rfl
  free := fun _ => rfl
  held := fun _ hheld => nomatch hheld

section Follows

variable {s s' : SendSystem} {o : Outbox} {t : Thread} {p : Pc} {c : Delivering}

/-- A thread without the mutex moves on. -/
theorem Follows.elsewhere (h : Follows s o) (ht : (s.pc t).locked = false)
    (hpc : s'.pc = Function.update s.pc t p) (hp : p.locked = false)
    (hmutex : s'.sppSendProctectMutex = s.sppSendProctectMutex)
    (htransmitted : s'.transmitted = s.transmitted) : Follows s' o where
  exclusive := by
    rw [hpc, hmutex]
    exact h.exclusive.update fun hlocked => nomatch hp.symm.trans hlocked
  transmitted := htransmitted.trans h.transmitted
  free := fun hfree => h.free (hmutex ▸ hfree)
  held := by
    intro u hu
    rw [hmutex] at hu
    obtain ⟨c, hc, hthread, hat⟩ := h.held u hu
    have hne : u ≠ t := by
      rintro rfl
      -- a call in the outbox is one between lock and release
      cases hpcu : s.pc u <;> rw [hpcu] at hat ht
      · exact hat
      · exact hat
      all_goals cases ht
    rw [hpc, Function.update_of_ne hne]
    exact ⟨c, hc, hthread, hat⟩

/-- The call of the thread that is between lock and release. -/
theorem Follows.call (h : Follows s o) (ht : (s.pc t).locked = true) :
    s.sppSendProctectMutex = some t ∧ ∃ c, o.current = some c ∧ c.thread = t ∧ c.At (s.pc t) :=
  ⟨h.exclusive t ht, h.held t (h.exclusive t ht)⟩

/-- The holder of the mutex takes a step and keeps it. -/
theorem Follows.move {o' : Outbox} {c' : Delivering} (h : Follows s o)
    (ht : (s.pc t).locked = true) (hpc : s'.pc = Function.update s.pc t p)
    (hmutex : s'.sppSendProctectMutex = s.sppSendProctectMutex)
    (hcurrent : o'.current = some c') (hthread : c'.thread = t) (hat : c'.At p)
    (htransmitted : s'.transmitted = o'.transmitted) : Follows s' o' where
  exclusive := by
    rw [hpc, hmutex]
    exact h.exclusive.update fun _ => h.exclusive t ht
  transmitted := htransmitted
  free := fun hfree => nomatch (h.exclusive t ht).symm.trans (hmutex.symm.trans hfree)
  held := by
    intro u hu
    obtain rfl := Option.some.inj ((h.exclusive t ht).symm.trans (hmutex.symm.trans hu))
    rw [hpc, Function.update_self]
    exact ⟨c', hcurrent, hthread, hat⟩

/-- A step that touches neither calls, mutex nor transmissions. -/
theorem Follows.frame (h : Follows s o) (hpc : s'.pc = s.pc)
    (hmutex : s'.sppSendProctectMutex = s.sppSendProctectMutex)
    (htransmitted : s'.transmitted = s.transmitted) : Follows s' o where
  exclusive := by
    rw [hpc, hmutex]
    exact h.exclusive
  transmitted := htransmitted.trans h.transmitted
  free := fun hfree => h.free (hmutex ▸ hfree)
  held := by
    rw [hpc, hmutex]
    exact h.held

end Follows

/-! ### The outbox follows the threads -/

section At

variable {c : Delivering} {call : Call} {hdr : Header} {i : ℕ} {bytes : List UInt8}

/-- After a transmission: waiting for the ACK, or done after the only one. -/
theorem Delivering.At.afterSend (h : c.At (.sending call hdr i)) :
    Delivering.At { c with copies := c.copies ++ [bytes] } (SendSystem.afterSend call hdr i) := by
  obtain ⟨hframe, hneeds, hlength, hroom, hagain⟩ := h
  have hone : (c.copies ++ [bytes]).length = i + 1 := by
    rw [List.length_append, hlength, List.length_singleton]
  unfold SendSystem.afterSend
  split_ifs with hflag
  · exact ⟨hframe, by simp [hneeds, hflag], hflag, hone, by omega, by omega⟩
  · -- without the flag there was no transmission before
    have hnot : c.needsAck = false := by simp [hneeds, hflag]
    have hfirst : c.copies = [] := hagain.resolve_right (by simp [hnot])
    rw [hfirst, List.length_nil] at hlength
    exact ⟨hframe, by dsimp only; omega, by dsimp only; omega, fun _ => by dsimp only; omega,
      .inl rfl⟩

theorem Delivering.At.afterFetch {ack : BtSppDalinkAck} (h : c.At (.fetching call hdr i)) :
    c.At (SendSystem.afterFetch call hdr i ack) := by
  rw [SendSystem.afterFetch_eq]
  obtain ⟨hframe, hneeds, hflag, hlength, hone, hthree⟩ := h
  split_ifs
  · exact ⟨hframe, by omega, by omega, fun hnot => (nomatch hneeds.symm.trans hnot), .inl rfl⟩
  · exact ⟨hframe, hneeds, hflag, hlength, hone, hthree⟩

/-- A call gives up only after the third transmission. -/
theorem Delivering.At.afterTimeout (h : c.At (.waiting call hdr i)) :
    c.At (SendSystem.afterTimeout call hdr i) := by
  obtain ⟨hframe, hack, hflag, hlength, hone, hthree⟩ := h
  unfold SendSystem.afterTimeout
  split_ifs with hagain
  · exact ⟨hframe, by simp [hack, hflag], hlength, by omega, .inr hack⟩
  · exact ⟨hframe, by omega, by omega, fun hnot => (nomatch hack.symm.trans hnot),
      .inr ⟨rfl, hack, by omega⟩⟩

end At

/-- What a transmission adds to the call under way. -/
theorem Outbox.transmitted_copy {o : Outbox} {c : Delivering} {bytes : List UInt8}
    (h : o.current = some c) :
    Outbox.transmitted { o with current := some { c with copies := c.copies ++ [bytes] } } =
      o.transmitted ++ [(c.frame, bytes)] := by
  simp [Outbox.transmitted, h]

/-- A create step is none of the outbox's business. -/
theorem Follows.build {s u : SendSystem} {o : Outbox} {t : Thread} {r : Request}
    (h : Follows s o) (hbuild : s.build t r = some u) : Follows u o := by
  obtain ⟨hidle, rfl⟩ := SendSystem.build_eq_some hbuild
  exact h.elsewhere (by rw [hidle]; rfl) rfl rfl rfl rfl

/-- **The outbox follows every step of the threads.** -/
theorem simulates_outbox : Simulates SendSystem.step (fun _ _ => True) SendSystem.shows
    Outbox.step Follows := by
  intro s o a s' h _ hstep
  cases a with
  | create t r =>
    exact ⟨o, rfl, h.build (SendSystem.step_create hstep)⟩
  | lock t =>
    obtain ⟨call, hpc, hfree, rfl⟩ := SendSystem.step_lock hstep
    have hstart := Outbox.step_start (h.free hfree) t call.frame.bytes
      ((readHeader s.dalinkSppSendBuf).dFlag = dFlagNeedAck)
    have hexclusive := h.exclusive
    rw [hfree] at hexclusive
    refine ⟨_, by rw [shows_lock hpc]; exact exec_singleton hstart, ?_⟩
    refine ⟨hexclusive.lock, ?_, nofun, fun u hu => ?_⟩
    · simp [h.transmitted, Outbox.transmitted, h.free hfree]
    · obtain rfl := Option.some.inj hu
      dsimp only
      rw [Function.update_self]
      exact ⟨_, rfl, rfl, rfl, rfl, rfl, by decide, .inl rfl⟩
  | sendSppData t =>
    obtain ⟨call, hdr, i, hpc, rfl⟩ := SendSystem.step_sendSppData hstep
    have ht : (s.pc t).locked = true := by rw [hpc]; rfl
    obtain ⟨-, c, hc, rfl, hat⟩ := h.call ht
    rw [hpc] at hat
    have htransmit := Outbox.step_transmit hc (hat.2.2.1 ▸ hat.2.2.2.1) hat.2.2.2.2
      (s.dalinkSppSendBuf.read 0 call.cDataLen.toNat)
    refine ⟨_, by rw [shows_sendSppData hpc]; exact exec_singleton htransmit, ?_⟩
    refine h.move ht rfl rfl rfl rfl hat.afterSend ?_
    rw [Outbox.transmitted_copy hc, ← h.transmitted, hat.1]
  | waitDalinkAckResponse t =>
    obtain ⟨call, hdr, i, q, hpc, -, rfl⟩ := SendSystem.step_waitDalinkAckResponse hstep
    have ht : (s.pc t).locked = true := by rw [hpc]; rfl
    obtain ⟨-, c, hc, hthread, hat⟩ := h.call ht
    rw [hpc] at hat
    exact ⟨o, rfl, h.move ht rfl rfl hc hthread hat h.transmitted⟩
  | getDalinkAckData t =>
    obtain ⟨call, hdr, i, q, hpc, -, rfl⟩ := SendSystem.step_getDalinkAckData hstep
    have ht : (s.pc t).locked = true := by rw [hpc]; rfl
    obtain ⟨-, c, hc, hthread, hat⟩ := h.call ht
    rw [hpc] at hat
    exact ⟨o, rfl, h.move ht rfl rfl hc hthread hat.afterFetch h.transmitted⟩
  | timeout t =>
    obtain ⟨call, hdr, i, hpc, -, rfl⟩ := SendSystem.step_timeout hstep
    have ht : (s.pc t).locked = true := by rw [hpc]; rfl
    obtain ⟨-, c, hc, hthread, hat⟩ := h.call ht
    rw [hpc] at hat
    exact ⟨o, rfl, h.move ht rfl rfl hc hthread hat.afterTimeout h.transmitted⟩
  | release t =>
    obtain ⟨call, hdr, ret, hpc, rfl⟩ := SendSystem.step_release hstep
    have ht : (s.pc t).locked = true := by rw [hpc]; rfl
    obtain ⟨-, c, hc, rfl, hat⟩ := h.call ht
    rw [hpc] at hat
    have hfinish := Outbox.step_finish hc hat.2
    refine ⟨_, by rw [shows_release hpc]; exact exec_singleton hfinish, ?_⟩
    refine ⟨h.exclusive.release ht, ?_, fun _ => rfl, nofun⟩
    simp [SendSystem.finish, h.transmitted, Outbox.transmitted, hc]
  | bluetoothSppDataProc event =>
    obtain rfl := Option.some.inj hstep
    exact ⟨o, rfl, h.frame rfl rfl rfl⟩
  | waitBtCommand =>
    obtain ⟨event, events, -, -, rfl⟩ := SendSystem.step_waitBtCommand hstep
    exact ⟨o, rfl, h.frame rfl rfl rfl⟩
  | dalinkSppPacketDeal =>
    obtain ⟨-, rfl⟩ | ⟨f, rest, u, -, hu, rfl⟩ | ⟨f, rest, -, rfl⟩ :=
      SendSystem.step_dalinkSppPacketDeal hstep
    · exact ⟨o, rfl, h.frame rfl rfl rfl⟩
    · exact ⟨o, rfl, (h.build hu).frame rfl rfl rfl⟩
    · exact ⟨o, rfl, h.frame rfl rfl rfl⟩
  | dispatchCommand =>
    obtain ⟨f, rest, q, -, -, -, rfl⟩ | ⟨f, rest, u, -, -, hu, rfl⟩ | ⟨f, rest, -, -, rfl⟩ :=
      SendSystem.step_dispatchCommand hstep
    · exact ⟨o, rfl, h.frame rfl rfl rfl⟩
    · exact ⟨o, rfl, (h.build hu).frame rfl rfl rfl⟩
    · exact ⟨o, rfl, h.frame rfl rfl rfl⟩
  | semPost =>
    obtain ⟨f, rest, q, -, -, rfl⟩ := SendSystem.step_semPost hstep
    exact ⟨o, rfl, h.frame rfl rfl rfl⟩

/-- **Sends are atomic.** In every run, what the threads do between lock and release is,
in the order in which they do it, a run of the outbox: one call at a time, transmitted
once, or up to three times if it needs an ACK, and given up only after three times. The
outbox has transmitted what the threads have, and its open call is that of the thread that
holds the mutex. -/
theorem sends_are_atomic {s : SendSystem} {acts : List SendAction}
    (hrun : exec SendSystem.step sendStart acts = some s) :
    ∃ o, exec Outbox.step .empty (shown SendSystem.step SendSystem.shows sendStart acts) = some o ∧
      s.transmitted = o.transmitted ∧
      s.sppSendProctectMutex = o.current.map Delivering.thread := by
  obtain ⟨o, ho, h⟩ := simulates_outbox.exec_shown follows_start (meets_true sendStart acts) hrun
  refine ⟨o, ho, h.transmitted, ?_⟩
  cases hmutex : s.sppSendProctectMutex with
  | none => rw [h.free hmutex, Option.map_none]
  | some t =>
    obtain ⟨c, hc, hthread, -⟩ := h.held t hmutex
    rw [hc, Option.map_some, hthread]

/-- The HMI thread transmits three times and gives up. -/
theorem sends_are_atomic_unanswered :
    let s := (exec SendSystem.step sendStart requestUnanswered).get (by decide)
    ∃ o, exec Outbox.step .empty
        (shown SendSystem.step SendSystem.shows sendStart requestUnanswered) = some o ∧
      s.transmitted = o.transmitted ∧
      s.sppSendProctectMutex = o.current.map Delivering.thread :=
  sends_are_atomic (Option.some_get _).symm

end PhoneLink
