import PhoneLink.Protocol.Integrity

/-!
# The receive loop

`phoneAppMsgDeal` runs the frame checker over what is left of a Bluetooth event
and hands every frame found to the dispatcher. Its lengths are `int`s; the
checker takes a `char`, so each call sees the remaining length modulo 256.

The loop is modelled over an arbitrary dispatcher: a function of the program
state, the packet header (an offset into the buffer) and the event's length.

## Main definitions

* `phoneAppMsgDeal`: the loop
* `handed`: the successful checks of one run of the loop, in order
* `stream`, `starts`: a list of frames on the wire, and where each begins
* `BackToBack`: a buffer made of accepted frames and a rest the checker rejects

## Main results

* `phoneAppMsgDeal_eq_foldl`: the loop dispatches exactly `handed`
* `handed_bounds`, `handed_pairwise`: what is handed over stays inside the event
  and never overlaps
* `dispatched_stream_iff`: when a stream of frames is decoded into these frames
* `dispatched_noise_iff`: when the checker resynchronises after noise
* `handed_sound_iff`: when what is handed over is well formed
-/

namespace PhoneLink

open CS

variable {σ : Type*}

/-- The loop from position `i`. A negative `len` of the source runs no iteration,
as `0` does. -/
def phoneAppMsgDeal.loop (dalinkSppPacketDeal : σ → ℕ → ℕ → σ) (len : ℕ) (buf : Memory)
    (i : ℕ) (s : σ) : σ :=
  if i < len then
    -- `len - i` is narrowed to the checker's `char`
    match _h : dalinkCheckPacketIntegrity (buf.shift i) (UInt8.ofNat (len - i)) with
    | some p =>
      -- the dispatcher gets the length of the whole event, not of the frame
      phoneAppMsgDeal.loop dalinkSppPacketDeal len buf (i + p.length)
        (dalinkSppPacketDeal s (i + p.packetHeader) len)
    | none => s
  else s
termination_by len - i
decreasing_by
  have := (dalinkCheckPacketIntegrity_bounds _h).2.1
  omega

/-- Deal with the `len` bytes of one Bluetooth event. -/
def phoneAppMsgDeal (dalinkSppPacketDeal : σ → ℕ → ℕ → σ) (len : ℕ) (buf : Memory) (s : σ) : σ :=
  phoneAppMsgDeal.loop dalinkSppPacketDeal len buf 0 s

/-- The packet headers handed to the dispatcher, in order. -/
def dispatched (len : ℕ) (buf : Memory) : List ℕ :=
  phoneAppMsgDeal (fun log packetHeader _ => log ++ [packetHeader]) len buf []

/-- The successful checks of the loop from position `i`, as places in the whole
buffer. -/
def handed (len : ℕ) (buf : Memory) (i : ℕ) : List CheckedPacket :=
  if i < len then
    match _h : dalinkCheckPacketIntegrity (buf.shift i) (UInt8.ofNat (len - i)) with
    | some p => ⟨i + p.packetHeader, p.length⟩ :: handed len buf (i + p.length)
    | none => []
  else []
termination_by len - i
decreasing_by
  have := (dalinkCheckPacketIntegrity_bounds _h).2.1
  omega

variable {len i : ℕ} {buf : Memory} {p : CheckedPacket}

theorem handed_of_le (h : len ≤ i) : handed len buf i = [] := by
  rw [handed, if_neg (by omega)]

theorem handed_of_some (hi : i < len)
    (h : dalinkCheckPacketIntegrity (buf.shift i) (UInt8.ofNat (len - i)) = some p) :
    handed len buf i = ⟨i, p.length⟩ :: handed len buf (i + p.length) := by
  rw [handed, if_pos hi]
  split
  · next q hq =>
    obtain rfl : q = p := Option.some.inj (hq.symm.trans h)
    rw [(dalinkCheckPacketIntegrity_bounds h).1, Nat.add_zero]
  · next hnone => exact absurd (hnone.symm.trans h) (by simp)

theorem handed_of_none
    (h : dalinkCheckPacketIntegrity (buf.shift i) (UInt8.ofNat (len - i)) = none) :
    handed len buf i = [] := by
  rw [handed]
  split_ifs
  · split
    · next q hq => exact absurd (hq.symm.trans h) (by simp)
    · rfl
  · rfl

/-- What one pass of the loop does: stop, or hand over a packet at `i` and go on
behind it. -/
theorem handed_cases (len : ℕ) (buf : Memory) (i : ℕ) :
    handed len buf i = [] ∨ ∃ p, i < len ∧
      dalinkCheckPacketIntegrity (buf.shift i) (UInt8.ofNat (len - i)) = some p ∧
      handed len buf i = ⟨i, p.length⟩ :: handed len buf (i + p.length) := by
  rcases Nat.lt_or_ge i len with hi | hi
  · cases h : dalinkCheckPacketIntegrity (buf.shift i) (UInt8.ofNat (len - i)) with
    | none => exact .inl (handed_of_none h)
    | some p => exact .inr ⟨p, hi, rfl, handed_of_some hi h⟩
  · exact .inl (handed_of_le hi)

private theorem loop_eq_foldl (deal : σ → ℕ → ℕ → σ) (len : ℕ) (buf : Memory) (i : ℕ) (s : σ) :
    phoneAppMsgDeal.loop deal len buf i s =
      (handed len buf i).foldl (fun s p => deal s p.packetHeader len) s := by
  fun_induction phoneAppMsgDeal.loop deal len buf i s with
  | case1 i s hi p h ih =>
    rw [handed_of_some hi h, List.foldl_cons, ih, (dalinkCheckPacketIntegrity_bounds h).1,
      Nat.add_zero]
  | case2 i s hi h => rw [handed_of_none h, List.foldl_nil]
  | case3 i s hi => rw [handed_of_le (by omega), List.foldl_nil]

/-- The loop hands the dispatcher exactly the successful checks, in order. -/
theorem phoneAppMsgDeal_eq_foldl (deal : σ → ℕ → ℕ → σ) (len : ℕ) (buf : Memory) (s : σ) :
    phoneAppMsgDeal deal len buf s =
      (handed len buf 0).foldl (fun s p => deal s p.packetHeader len) s :=
  loop_eq_foldl deal len buf 0 s

theorem dispatched_eq (len : ℕ) (buf : Memory) :
    dispatched len buf = (handed len buf 0).map CheckedPacket.packetHeader := by
  -- the log grows at its end, so the induction is for every log
  have happend : ∀ (l : List CheckedPacket) (log : List ℕ),
      l.foldl (fun log p => log ++ [p.packetHeader]) log =
        log ++ l.map CheckedPacket.packetHeader := by
    intro l
    induction l with
    | nil => simp
    | cons q l ih => simp [ih]
  rw [dispatched, phoneAppMsgDeal_eq_foldl, happend, List.nil_append]

/-! ### Bounds -/

/-- The narrowed length never exceeds the true remaining length. -/
theorem toNat_narrowed_le (n : ℕ) : (UInt8.ofNat n).toNat ≤ n := by
  rw [UInt8.toNat_ofNat']
  exact Nat.mod_le _ _

/-- `p` ends before `q` begins. -/
def CheckedPacket.Before (p q : CheckedPacket) : Prop :=
  p.packetHeader + p.length ≤ q.packetHeader

theorem handed_bounds (hp : p ∈ handed len buf i) :
    i ≤ p.packetHeader ∧ 10 ≤ p.length ∧ p.packetHeader + p.length ≤ len := by
  fun_induction handed len buf i with
  | case1 i hi q h ih =>
    obtain ⟨hheader, hten, hlen⟩ := dalinkCheckPacketIntegrity_bounds h
    -- the checker stays below the narrowed length, which is no more than what is left
    have hle := toNat_narrowed_le (len - i)
    rcases List.mem_cons.mp hp with rfl | hrest
    · exact ⟨Nat.le_add_right _ _, hten, by dsimp only; omega⟩
    · obtain ⟨hfrom, hbounds⟩ := ih hrest
      exact ⟨by omega, hbounds⟩
  | case2 => simp at hp
  | case3 => simp at hp

/-- The packets handed over are disjoint ranges in the order of the buffer. -/
theorem handed_pairwise (len : ℕ) (buf : Memory) (i : ℕ) :
    (handed len buf i).Pairwise CheckedPacket.Before := by
  fun_induction handed len buf i with
  | case1 i hi q h ih =>
    refine List.Pairwise.cons (fun r hr => ?_) ih
    rw [CheckedPacket.Before, (dalinkCheckPacketIntegrity_bounds h).1, Nat.add_zero]
    exact (handed_bounds hr).1
  | case2 => exact .nil
  | case3 => exact .nil

/-! ### Streams of built frames -/

/-- The frames back to back. -/
def stream (frames : List Frame) : List UInt8 := frames.flatMap Frame.bytes

/-- Where each frame of a stream begins, the first one at `i`. -/
def starts (i : ℕ) : List Frame → List ℕ
  | [] => []
  | f :: frames => i :: starts (i + f.bytes.length) frames

variable {f : Frame} {frames : List Frame}

theorem stream_cons (f : Frame) (frames : List Frame) :
    stream (f :: frames) = f.bytes ++ stream frames := List.flatMap_cons

theorem length_bytes_bounds (f : Frame) : 10 ≤ f.bytes.length ∧ f.bytes.length ≤ 255 := by
  have := f.payload_le
  rw [f.length_bytes]
  omega

/-- A built frame at the start of a buffer long enough for it is accepted. -/
theorem accepts_of_holds (h : buf.Holds 0 f.bytes) (hlen : f.bytes.length ≤ len) :
    Accepts buf len 0 :=
  accepts_zero_iff.mpr
    ⟨announced_of_holds h ▸ hlen, announced_of_holds h ▸ isFrameAt_of_holds h⟩

/-- One pass over a built frame whose length survives the narrowing. -/
theorem handed_of_holds (hi : i < len) (h : buf.Holds i f.bytes)
    (hfits : f.bytes.length ≤ (len - i) % 256) :
    handed len buf i = ⟨i, f.bytes.length⟩ :: handed len buf (i + f.bytes.length) := by
  have hshift : (buf.shift i).Holds 0 f.bytes := Memory.holds_shift.mpr h
  have hsize : (UInt8.ofNat (len - i)).toNat = (len - i) % 256 := UInt8.toNat_ofNat'
  have hcheck := dalinkCheckPacketIntegrity_of_accepts_zero
    (accepts_of_holds hshift (hsize ▸ hfits))
  rw [announced_of_holds hshift] at hcheck
  exact handed_of_some hi hcheck

/-- Every frame of the list finds, when its turn comes, at least its own length
left after the remaining length is narrowed. -/
def SurvivesNarrowing (frames : List Frame) : Prop :=
  ∀ f rest, f :: rest <:+ frames → f.bytes.length ≤ (stream (f :: rest)).length % 256

theorem survivesNarrowing_cons : SurvivesNarrowing (f :: frames) ↔
    f.bytes.length ≤ (stream (f :: frames)).length % 256 ∧ SurvivesNarrowing frames := by
  constructor
  · intro h
    exact ⟨h f frames List.suffix_rfl, fun g rest hsuffix =>
      h g rest (hsuffix.trans (List.suffix_cons f frames))⟩
  · rintro ⟨hf, hframes⟩ g rest hsuffix
    rcases List.suffix_cons_iff.mp hsuffix with heq | hlater
    · obtain ⟨rfl, rfl⟩ := List.cons.inj heq
      exact hf
    · exact hframes g rest hlater

/-- The packets handed over from a stream of frames start where the frames start
exactly when all of them survive the narrowing. A frame that does not survive is
either lost with everything behind it, or reported too short, so that the next
packet starts in its middle. -/
theorem handed_stream_iff (h : buf.Holds i (stream frames))
    (hlen : len = i + (stream frames).length) :
    (handed len buf i).map CheckedPacket.packetHeader = starts i frames ↔
      SurvivesNarrowing frames := by
  induction frames generalizing i with
  | nil =>
    rw [handed_of_le (by simp [hlen, stream])]
    simp [starts, SurvivesNarrowing]
  | cons f frames ih =>
    rw [stream_cons] at h hlen
    obtain ⟨hf, hrest⟩ := Memory.holds_append.mp h
    rw [List.length_append] at hlen
    obtain ⟨hten, hmax⟩ := length_bytes_bounds f
    have hi : i < len := by omega
    have hleft : len - i = (stream (f :: frames)).length := by
      rw [stream_cons, List.length_append]
      omega
    rw [survivesNarrowing_cons, ← hleft, starts]
    rcases Nat.lt_or_ge ((len - i) % 256) f.bytes.length with hshort | hfits
    · -- some frame follows: a last frame is shorter than 256 bytes
      refine iff_of_false (fun heq => ?_) fun hboth => absurd hboth.1 (by omega)
      obtain ⟨g, frames, rfl⟩ : ∃ g rest, frames = g :: rest := by
        refine List.exists_cons_of_ne_nil fun hnil => ?_
        rw [hnil, stream, List.flatMap_nil, List.length_nil] at hlen
        omega
      rcases handed_cases len buf i with hnone | ⟨p, _, hcheck, hsome⟩
      · simp [hnone] at heq
      · -- what is found is shorter than `f`, so the next packet cannot start at `g`
        rw [hsome, List.map_cons, List.cons.injEq, starts] at heq
        have hp : p.length ≤ (len - i) % 256 :=
          UInt8.toNat_ofNat' ▸ (dalinkCheckPacketIntegrity_bounds hcheck).2.2
        rcases handed_cases len buf (i + p.length) with hend | ⟨q, _, _, hnext⟩
        · simp [hend] at heq
        · rw [hnext, List.map_cons, List.cons.injEq] at heq
          have := heq.2.1
          dsimp only at this
          omega
    · -- `f` is handed over, and the rest is the stream of the other frames
      rw [handed_of_holds hi hf hfits, List.map_cons, List.cons.injEq, ih hrest (by omega)]
      simp [hfits]

/-- **Stream decoding.** The receive loop hands over exactly the frames of a
stream, each once, from its first byte and in order, if and only if every frame
survives the narrowing of the remaining length to a `char`. -/
theorem dispatched_stream_iff (frames : List Frame) (mem : Memory) :
    dispatched (stream frames).length (Memory.overlay (stream frames) mem) = starts 0 frames ↔
      ∀ f rest, f :: rest <:+ frames →
        f.bytes.length ≤ (stream (f :: rest)).length % 256 := by
  rw [dispatched_eq]
  exact handed_stream_iff (Memory.holds_overlay _ _) (Nat.zero_add _).symm

/-- A frame with a payload of 118 zero bytes: 128 bytes on the wire. -/
def halfEventFrame : Frame := ⟨btSppMessageDlHuHeartbeat, 0, 0, List.replicate 118 0, by decide⟩

/-- Two frames of 128 bytes fill one event of 256, which narrows to length `0`:
both are lost. -/
theorem dispatched_two_half_events :
    (stream [halfEventFrame, halfEventFrame]).length = 256 ∧
      dispatched 256 (Memory.overlay (stream [halfEventFrame, halfEventFrame]) Memory.zero) = [] ∧
      starts 0 [halfEventFrame, halfEventFrame] = [0, 128] := by
  have hlen : halfEventFrame.bytes.length = 128 := by
    rw [Frame.length_bytes, halfEventFrame, List.length_replicate]
  refine ⟨?_, ?_, ?_⟩
  · simp [stream, hlen]
  · rw [dispatched_eq, handed_of_none (scan_of_le (by decide)), List.map_nil]
  · simp [starts, hlen]

/-! ### Noise before a frame -/

/-- **Resynchronisation.** Behind a prefix, with or without header bytes in it,
the checker finds the frame, reports its first byte and consumes prefix and
frame, and the loop then dispatches it and is done, only if the prefix is empty:
the place it reports is the start of the buffer. -/
theorem dispatched_noise_iff (g : List UInt8) (f : Frame) (mem : Memory)
    (hlen : g.length + f.bytes.length ≤ 255) :
    (dalinkCheckPacketIntegrity (Memory.overlay (g ++ f.bytes) mem)
          (UInt8.ofNat (g.length + f.bytes.length)) =
        some ⟨g.length, g.length + f.bytes.length⟩ ∧
      dispatched (g.length + f.bytes.length) (Memory.overlay (g ++ f.bytes) mem) =
        [g.length]) ↔ g = [] := by
  constructor
  · -- the place reported is always the buffer's start
    rintro ⟨hcheck, -⟩
    exact List.eq_nil_of_length_eq_zero (dalinkCheckPacketIntegrity_bounds hcheck).1
  · rintro rfl
    rw [List.length_nil, Nat.zero_add] at hlen ⊢
    have hholds : (Memory.overlay ([] ++ f.bytes) mem).Holds 0 f.bytes :=
      Memory.holds_overlay f.bytes mem
    have hpos : 0 < f.bytes.length := by
      have := (length_bytes_bounds f).1
      omega
    have hsize : (UInt8.ofNat f.bytes.length).toNat = f.bytes.length := by
      rw [UInt8.toNat_ofNat', Nat.mod_eq_of_lt (by omega)]
    have hcheck := dalinkCheckPacketIntegrity_of_accepts_zero
      (accepts_of_holds hholds hsize.ge)
    rw [announced_of_holds hholds] at hcheck
    refine ⟨hcheck, ?_⟩
    -- one pass over the frame, and nothing is left
    rw [dispatched_eq, handed_of_holds hpos hholds (by
      rw [Nat.sub_zero, Nat.mod_eq_of_lt (by omega)]), Nat.zero_add,
      handed_of_le le_rfl, List.map_cons, List.map_nil]

/-- A heartbeat frame with one payload byte. -/
def heartbeatFrame : Frame := ⟨btSppMessageDlHuHeartbeat, 0, 0, [0], by decide⟩

theorem dispatched_noise_iff_heartbeat :
    (dalinkCheckPacketIntegrity (Memory.overlay ([] ++ heartbeatFrame.bytes) Memory.zero)
          (UInt8.ofNat (([] : List UInt8).length + heartbeatFrame.bytes.length)) =
        some ⟨([] : List UInt8).length, ([] : List UInt8).length + heartbeatFrame.bytes.length⟩ ∧
      dispatched (([] : List UInt8).length + heartbeatFrame.bytes.length)
        (Memory.overlay ([] ++ heartbeatFrame.bytes) Memory.zero) =
          [([] : List UInt8).length]) ↔ ([] : List UInt8) = [] :=
  dispatched_noise_iff [] heartbeatFrame Memory.zero
    (by rw [Frame.length_bytes]; decide)

/-- One zero byte before a heartbeat frame: its tail is looked for one byte too
early, and the frame is lost. -/
theorem dispatched_zero_byte_before_heartbeat :
    dalinkCheckPacketIntegrity (Memory.overlay ([0] ++ heartbeatFrame.bytes) Memory.zero) 12 =
        none ∧
      dispatched 12 (Memory.overlay ([0] ++ heartbeatFrame.bytes) Memory.zero) = [] := by
  have hcheck : dalinkCheckPacketIntegrity
      (Memory.overlay ([0] ++ heartbeatFrame.bytes) Memory.zero) 12 = none := by
    refine scan_eq_none fun k _ hk => ?_
    have hall : ∀ k < 12, ¬ Accepts
        (Memory.overlay ([0] ++ heartbeatFrame.bytes) Memory.zero) 12 k := by decide
    exact hall k hk
  refine ⟨hcheck, ?_⟩
  rw [dispatched_eq, handed_of_none (by rwa [Memory.shift_zero]), List.map_nil]

/-! ### Arbitrary buffers -/

/-- From position `i` the event is a row of accepted frames, and in what then
remains the checker's test passes nowhere. -/
inductive BackToBack (len : ℕ) (buf : Memory) : ℕ → Prop
  | rest {i : ℕ} (hnone : ∀ j < (UInt8.ofNat (len - i)).toNat,
      ¬ Accepts (buf.shift i) (UInt8.ofNat (len - i)).toNat j) : BackToBack len buf i
  | frame {i : ℕ} (haccepts : Accepts (buf.shift i) (UInt8.ofNat (len - i)).toNat 0)
      (hrest : BackToBack len buf (i + announced buf i)) : BackToBack len buf i

theorem check_eq_none_iff {size : UInt8} : dalinkCheckPacketIntegrity buf size = none ↔
    ∀ j < size.toNat, ¬ Accepts buf size.toNat j := by
  constructor
  · intro hnone j hj haccepts
    have hex : ∃ j, j < size.toNat ∧ Accepts buf size.toNat j := ⟨j, hj, haccepts⟩
    have hfound := dalinkCheckPacketIntegrity_eq_some_iff.mpr
      ⟨_, (Nat.find_spec hex).1, (Nat.find_spec hex).2, fun k hk hacc =>
        Nat.find_min hex hk ⟨hk.trans (Nat.find_spec hex).1, hacc⟩, rfl⟩
    exact absurd (hnone.symm.trans hfound) (by simp)
  · exact fun h => scan_eq_none fun j _ hj => h j hj

/-- Behind a position where the checker finds something, the event can only go on
with an accepted frame. -/
theorem backToBack_of_some
    (h : dalinkCheckPacketIntegrity (buf.shift i) (UInt8.ofNat (len - i)) = some p) :
    BackToBack len buf i ↔ Accepts (buf.shift i) (UInt8.ofNat (len - i)).toNat 0 ∧
      BackToBack len buf (i + p.length) := by
  constructor
  · rintro (hnone | ⟨haccepts, hrest⟩)
    · exact absurd ((check_eq_none_iff.mpr hnone).symm.trans h) (by simp)
    · -- the scan stops at position 0, so `p` is the frame accepted there
      have hfound := dalinkCheckPacketIntegrity_of_accepts_zero haccepts
      obtain rfl := Option.some.inj (hfound.symm.trans h)
      exact ⟨haccepts, by rwa [announced_shift]⟩
  · rintro ⟨haccepts, hrest⟩
    have hfound := dalinkCheckPacketIntegrity_of_accepts_zero haccepts
    obtain rfl := Option.some.inj (hfound.symm.trans h)
    rw [announced_shift] at hrest
    exact .frame haccepts hrest

theorem handed_isFrameAt_iff (len : ℕ) (buf : Memory) (i : ℕ) :
    (∀ p ∈ handed len buf i, IsFrameAt buf p.packetHeader p.length) ↔ BackToBack len buf i := by
  fun_induction handed len buf i with
  | case1 i hi p h ih =>
    have hheader := (dalinkCheckPacketIntegrity_bounds h).1
    have hframe := isFrameAt_of_check_iff h
    rw [isFrameAt_shift, hheader, Nat.add_zero] at hframe
    rw [List.forall_mem_cons, ih, backToBack_of_some h, hheader, Nat.add_zero, hframe]
  | case2 i hi h =>
    exact iff_of_true (by simp) (.rest (check_eq_none_iff.mp h))
  | case3 i hi =>
    -- nothing is left to test
    refine iff_of_true (by simp) (.rest ?_)
    rw [Nat.sub_eq_zero_of_le (by omega)]
    simp

/-- **Parser soundness.** A successful check reports a well-formed frame inside
the buffer if and only if the buffer starts with an accepted header whenever any
position passes the test; and the packets of a whole run of the loop are pairwise
disjoint well-formed ranges inside the event if and only if the event is a row of
accepted frames before its undecodable rest. -/
theorem handed_sound_iff (buf : Memory) (size : UInt8) (len : ℕ) :
    ((∀ p, dalinkCheckPacketIntegrity buf size = some p →
        p.packetHeader + p.length ≤ size.toNat ∧ IsFrameAt buf p.packetHeader p.length) ↔
      ((∃ j < size.toNat, Accepts buf size.toNat j) → Accepts buf size.toNat 0)) ∧
    (((handed len buf 0).Pairwise CheckedPacket.Before ∧
        ∀ p ∈ handed len buf 0,
          p.packetHeader + p.length ≤ len ∧ IsFrameAt buf p.packetHeader p.length) ↔
      BackToBack len buf 0) := by
  refine ⟨⟨fun hsound hex => ?_, fun hstart p hp => ?_⟩, ?_⟩
  · have hsome : dalinkCheckPacketIntegrity buf size ≠ none := fun hnone => by
      obtain ⟨j, hj, haccepts⟩ := hex
      exact check_eq_none_iff.mp hnone j hj haccepts
    obtain ⟨p, hp⟩ := Option.ne_none_iff_exists'.mp hsome
    exact (isFrameAt_of_check_iff hp).mp (hsound p hp).2
  · obtain ⟨hheader, _, hlen⟩ := dalinkCheckPacketIntegrity_bounds hp
    obtain ⟨j, hj, haccepts, _⟩ := dalinkCheckPacketIntegrity_eq_some_iff.mp hp
    exact ⟨by omega, (isFrameAt_of_check_iff hp).mpr (hstart ⟨j, hj, haccepts⟩)⟩
  · rw [← handed_isFrameAt_iff]
    constructor
    · exact fun h p hp => (h.2 p hp).2
    · exact fun h => ⟨handed_pairwise len buf 0, fun p hp => ⟨(handed_bounds hp).2.2, h p hp⟩⟩

/-- A header pair one byte into the buffer, with its tail where the buffer's own
would be: the check succeeds and reports a place that holds no header. -/
theorem check_header_behind_byte :
    dalinkCheckPacketIntegrity
        (Memory.overlay [0x00, 0x44, 0x4C, 0x00, 0x00, 0x00, 0x00, 0x00, 0x0D, 0x0A]
          Memory.zero) 10 = some ⟨0, 10⟩ ∧
      ¬ IsFrameAt (Memory.overlay [0x00, 0x44, 0x4C, 0x00, 0x00, 0x00, 0x00, 0x00, 0x0D, 0x0A]
        Memory.zero) 0 10 := by
  -- the test fails at position 0 and passes at position 1
  refine ⟨dalinkCheckPacketIntegrity_eq_some_iff.mpr ⟨1, by decide, by decide, ?_, ?_⟩, by decide⟩
  · intro k hk
    obtain rfl : k = 0 := by omega
    decide
  · decide

end PhoneLink
