import PhoneLink.CS.Tearing
import PhoneLink.Hmi.CommandStream

/-!
# More than ten messages

The ring of messages has ten slots, and `write_hmimsg_sem_data` does not look at the read point
either. When the thread that deals with the messages falls behind, both threads may copy the
same slot at the same time. Here the two calls of `memcpy` go byte by byte.

## Main definitions

* `HmiCopies.step`: the ring with the two copies in progress

## Main results

* `newest_command_dequeued`: what `read_hmimsg_sem_data` returns, in every run
-/

namespace PhoneLink

open CS CS.Transition

/-- The bytes of a message as cells. -/
def PlMsgInfo.cell (msg : PlMsgInfo) (i : ℕ) : UInt8 := msg.bytes.getD i 0

/-- The message whose bytes stand in the cells. -/
def messageOf (v : ℕ → UInt8) : PlMsgInfo :=
  ⟨(List.range sizeofPlMsgInfo).map v, by rw [List.length_map, List.length_range]⟩

/-- It is the message itself if the cells are its own. -/
@[simp] theorem messageOf_cell (msg : PlMsgInfo) : messageOf msg.cell = msg := by
  apply PlMsgInfo.bytes_injective
  refine List.ext_getElem (by rw [(messageOf msg.cell).length_bytes, msg.length_bytes]) ?_
  intro i _ hi
  simp [messageOf, PlMsgInfo.cell, hi]

theorem messageOf_congr {v w : ℕ → UInt8} (h : ∀ i < sizeofPlMsgInfo, w i = v i) :
    messageOf w = messageOf v := by
  unfold messageOf
  congr 1
  exact List.map_congr_left fun i hi => h i (List.mem_range.mp hi)

/-- Every message fills its slot. -/
def hmiExtent : Extent fun _ : ℕ => UInt8 where
  cells _ := List.range sizeofPlMsgInfo
  cells_congr _ := rfl

theorem mem_cells_hmiExtent {v : ℕ → UInt8} {i : ℕ} :
    i ∈ hmiExtent.cells v ↔ i < sizeofPlMsgInfo := by
  dsimp only [hmiExtent]
  exact List.mem_range

/-- The ring, with how far the copies have come. -/
abbrev HmiCopies := CopyQueue fun _ : ℕ => UInt8

inductive HmiCopyAction
  /-- `write_hmimsg_sem_data` is called. -/
  | writeHmimsgSemData (msg : PlMsgInfo)
  | copyIn (i : ℕ)
  | moveWritePoint
  | semPost
  | semWait
  /-- `read_hmimsg_sem_data` is called. -/
  | readHmimsgSemData
  | copyOut (i : ℕ)
  | moveReadPoint

namespace HmiCopies

def step (s : HmiCopies) : HmiCopyAction → Option HmiCopies
  | .writeHmimsgSemData msg => s.put hmiExtent msg.cell
  | .copyIn i => s.putCell i
  | .moveWritePoint => s.putDone maxHmiMsgSize
  | .semPost => s.post
  | .semWait => s.wait
  | .readHmimsgSemData => s.take hmiExtent
  | .copyOut i => s.takeCell i
  | .moveReadPoint => s.takeDone maxHmiMsgSize

/-- Program start. The message of the thread that reads is a local. -/
def start (hmiMsg : ℕ → UInt8) : HmiCopies := CopyQueue.start (PlMsgInfo.fill 0).cell hmiMsg

/-- Messages are stored, and every byte has a source. -/
def Sound (s : HmiCopies) : Prop :=
  CopyQueue.Sound hmiExtent maxHmiMsgSize (PlMsgInfo.fill 0).cell
    (fun v => ∃ msg : PlMsgInfo, v = msg.cell) s

variable {s t : HmiCopies} {a : HmiCopyAction}

theorem start_sound (hmiMsg : ℕ → UInt8) : (start hmiMsg).Sound := CopyQueue.sound_start hmiMsg

theorem Sound.step (h : s.Sound) (hstep : HmiCopies.step s a = some t) : t.Sound := by
  cases a with
  | writeHmimsgSemData msg => exact CopyQueue.Sound.put h ⟨msg, rfl⟩ hstep
  | copyIn i => exact CopyQueue.Sound.putCell h hstep
  | moveWritePoint => exact CopyQueue.Sound.putDone h (by decide) hstep
  | semPost => exact CopyQueue.Sound.post h hstep
  | semWait => exact CopyQueue.Sound.wait h hstep
  | readHmimsgSemData => exact CopyQueue.Sound.take h (by decide) hstep
  | copyOut i => exact CopyQueue.Sound.takeCell h hstep
  | moveReadPoint => exact CopyQueue.Sound.takeDone h (by decide) hstep

end HmiCopies

/-- **Commands without room in the ring.** In every run, whatever the delay of the thread that
deals with them and however the two copies overlap, each byte of the message dequeued is that
of the newest message that its slot held in full when the copy began, or of a later one. If no
copy into the slot overlaps, the message dequeued is this one; and if no more than ten are
waiting it is the one that is due. -/
theorem newest_command_dequeued {hmiMsg : ℕ → UInt8} {s t : HmiCopies}
    {acts : List HmiCopyAction} (hrun : exec HmiCopies.step (.start hmiMsg) acts = some s)
    (hstep : HmiCopies.step s .moveReadPoint = some t) :
    t.taken = s.taken ++ [s.dest] ∧
      ∃ msg : PlMsgInfo,
        s.stored[newest maxHmiMsgSize s.taken.length s.begun]? = some msg.cell ∧
        (∀ i < sizeofPlMsgInfo, ∃ k, ∃ later : PlMsgInfo, s.stored[k]? = some later.cell ∧
          k % maxHmiMsgSize = s.taken.length % maxHmiMsgSize ∧
          newest maxHmiMsgSize s.taken.length s.begun ≤ k ∧ s.dest i = later.cell i) ∧
        (CopyQueue.Alone maxHmiMsgSize s.stored s.begun (s.taken.length % maxHmiMsgSize) →
          messageOf s.dest = msg) ∧
        (s.stored.length ≤ s.taken.length + maxHmiMsgSize →
          s.stored[s.taken.length]? = some msg.cell ∧ messageOf s.dest = msg) := by
  have hsound : s.Sound :=
    exec_invariant HmiCopies.Sound (fun _ _ _ h hstep => h.step hstep)
      (HmiCopies.start_sound hmiMsg) hrun
  obtain ⟨htaken, v, hmsg, hsource, halone⟩ := CopyQueue.Sound.taken hsound (by decide) hstep
  obtain ⟨msg, rfl⟩ := CopyQueue.Sound.of_getElem? hsound hmsg
  obtain ⟨slot, hextent⟩ := CopyQueue.Sound.extent_eq hsound hstep
  have hwhole (h : CopyQueue.Alone maxHmiMsgSize s.stored s.begun
      (s.taken.length % maxHmiMsgSize)) : messageOf s.dest = msg := by
    rw [messageOf_congr fun i hi => (halone h).2 i (mem_cells_hmiExtent.mpr hi), messageOf_cell]
  refine ⟨htaken, msg, hmsg, fun i hi => ?_, hwhole, fun hfew => ?_⟩
  · -- the slot whose cells are copied is as large as every other
    have hcell : i ∈ hmiExtent.cells slot := mem_cells_hmiExtent.mpr hi
    rw [← hextent] at hcell
    obtain ⟨k, w, hk, hslot, hge, hdest⟩ := (hsource i hcell).2 (mem_cells_hmiExtent.mpr hi)
    obtain ⟨later, rfl⟩ := CopyQueue.Sound.of_getElem? hsound hk
    exact ⟨k, later, hk, hslot, hge, hdest⟩
  · obtain ⟨h, hdue⟩ := CopyQueue.Sound.alone hsound hstep hfew
    rw [hdue] at hmsg
    exact ⟨hmsg, hwhole h⟩

/-- A message of equal bytes is written to the ring. -/
def writeFill (b : UInt8) : List HmiCopyAction :=
  .writeHmimsgSemData (.fill b) :: (List.range sizeofPlMsgInfo).map .copyIn ++
    [.moveWritePoint, .semPost]

/-- Ten messages are written. When the first byte of the first one is copied the eleventh
message comes. -/
def eleventhMessage : List HmiCopyAction :=
  ([0, 1, 2, 3, 4, 5, 6, 7, 8, 9] : List UInt8).flatMap writeFill ++
    [.semWait, .readHmimsgSemData, .copyOut 0] ++ writeFill 10 ++
    (List.range' 1 259).map .copyOut

set_option maxRecDepth 10000 in
theorem eleventhMessage_torn :
    (exec HmiCopies.step (.start fun _ => 0) eleventhMessage).any fun s =>
      (HmiCopies.step s .moveReadPoint).isSome ∧ s.dest 0 = 0 ∧ s.dest 259 = 10 := by
  decide +kernel

/-- The first byte is that of the first message and the last one that of the eleventh: each is
that of the first or of a later message of the slot. -/
theorem newest_command_dequeued_eleventh :
    ∃ s, exec HmiCopies.step (.start fun _ => 0) eleventhMessage = some s ∧
      s.dest 0 = 0 ∧ s.dest 259 = 10 ∧
      ∀ i < sizeofPlMsgInfo, ∃ k, ∃ later : PlMsgInfo, s.stored[k]? = some later.cell ∧
        k % maxHmiMsgSize = s.taken.length % maxHmiMsgSize ∧ s.dest i = later.cell i := by
  obtain ⟨s, hrun, hs⟩ := (Option.any_eq_true _ _).mp eleventhMessage_torn
  obtain ⟨hdone, hfirst, hlast⟩ := of_decide_eq_true hs
  obtain ⟨t, ht⟩ := Option.isSome_iff_exists.mp hdone
  obtain ⟨-, msg, -, hbytes, -⟩ := newest_command_dequeued hrun ht
  refine ⟨s, hrun, hfirst, hlast, fun i hi => ?_⟩
  obtain ⟨k, later, hk, hslot, -, hdest⟩ := hbytes i hi
  exact ⟨k, later, hk, hslot, hdest⟩

end PhoneLink
