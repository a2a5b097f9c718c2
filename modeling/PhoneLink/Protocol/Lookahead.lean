import PhoneLink.Protocol.MsgDeal

/-!
# Bytes behind the received ones

The checker reads the second header byte and the length byte ahead of its scan
position without comparing the place with the length it was given, so in the last six
positions it looks at bytes that were not received: what an earlier event left in the
buffer. The tail it looks for is always among the received bytes.

## Main definitions

* `AgreeBelow`: two memories hold the same received bytes
* `OpenHeader`, `TailWithin`: a header that bytes not received can complete, and a tail
  that it can be completed to
* `Decided`, `DecidedFrom`: the received bytes alone decide one check, and all the
  checks of the receive loop

## Main results

* `check_received_only_iff`, `parse_received_only_iff`: the outcome depends only on the
  received bytes exactly when they decide it
-/

namespace PhoneLink

open CS

/-- The memories agree on the first `len` bytes. -/
def AgreeBelow (len : ℕ) (buf buf' : Memory) : Prop := ∀ k < len, buf k = buf' k

/-- A header pair starts among the received bytes, as far as these show it, and its
length byte lies behind them. -/
def OpenHeader (buf : Memory) (len : ℕ) : Prop :=
  ∃ i < len, len ≤ i + 6 ∧ buf i = btSppMessageHeaderHigh ∧
    (i + 1 < len → buf (i + 1) = btSppMessageHeaderLow)

/-- Some length byte has its tail among the received bytes. -/
def TailWithin (buf : Memory) (len : ℕ) : Prop :=
  ∃ l, l + 10 ≤ len ∧ buf (l + 8) = 0x0D ∧ buf (l + 9) = 0x0A

/-- The received bytes decide the check: the test passes at a position whose header and
length byte were received, or bytes not received cannot make it pass. -/
def Decided (buf : Memory) (len : ℕ) : Prop :=
  (∃ j, j + 6 < len ∧ Accepts buf len j) ∨ ¬ (OpenHeader buf len ∧ TailWithin buf len)

variable {buf buf' : Memory} {len i j : ℕ}

/-! ### One check -/

theorem AgreeBelow.symm (h : AgreeBelow len buf buf') : AgreeBelow len buf' buf :=
  fun k hk => (h k hk).symm

theorem AgreeBelow.shift (h : AgreeBelow len buf buf') (i : ℕ) :
    AgreeBelow (len - i) (buf.shift i) (buf'.shift i) :=
  fun k hk => h (i + k) (by omega)

theorem AgreeBelow.announced_eq (h : AgreeBelow len buf buf') (hj : j + 6 < len) :
    announced buf j = announced buf' j := by
  rw [announced, announced, h _ hj]

/-- Where header and length byte were received, so was the tail. -/
theorem AgreeBelow.accepts (h : AgreeBelow len buf buf') (hj : j + 6 < len)
    (haccepts : Accepts buf len j) : Accepts buf' len j := by
  obtain ⟨⟨hhigh, hlow⟩, hfits, hcr, hlf⟩ := haccepts
  have hten := ten_le_announced buf j
  rw [Accepts, HeaderAt, ← h.announced_eq hj]
  refine ⟨⟨?_, ?_⟩, hfits, ?_, ?_⟩
  · rw [← h j (by omega), hhigh]
  · rw [← h (j + 1) (by omega), hlow]
  · rw [← h _ (by omega), hcr]
  · rw [← h _ (by omega), hlf]

theorem AgreeBelow.openHeader (h : AgreeBelow len buf buf') (hopen : OpenHeader buf len) :
    OpenHeader buf' len := by
  obtain ⟨i, hi, hbehind, hhigh, hlow⟩ := hopen
  refine ⟨i, hi, hbehind, ?_, fun hnext => ?_⟩
  · rw [← h i hi, hhigh]
  · rw [← h _ hnext, hlow hnext]

theorem AgreeBelow.tailWithin (h : AgreeBelow len buf buf') (htail : TailWithin buf len) :
    TailWithin buf' len := by
  obtain ⟨l, hl, hcr, hlf⟩ := htail
  refine ⟨l, hl, ?_, ?_⟩
  · rw [← h _ (by omega), hcr]
  · rw [← h _ (by omega), hlf]

/-- In the last six positions the test passes only with bytes not received. -/
theorem open_of_accepts (hi : i < len) (hbehind : len ≤ i + 6) (h : Accepts buf len i) :
    OpenHeader buf len ∧ TailWithin buf len := by
  obtain ⟨⟨hhigh, hlow⟩, hfits, hcr, hlf⟩ := h
  exact ⟨⟨i, hi, hbehind, hhigh, fun _ => hlow⟩, ⟨_, hfits, hcr, hlf⟩⟩

/-- The first received position that passes is the first that passes at all, in every
memory with the same received bytes. -/
theorem AgreeBelow.check_of_received {size : UInt8} (h : AgreeBelow size.toNat buf buf')
    (hj : j + 6 < size.toNat) (haccepts : Accepts buf size.toNat j)
    (hfirst : ∀ k < j, ¬ Accepts buf size.toNat k) :
    dalinkCheckPacketIntegrity buf' size = some ⟨0, announced buf j⟩ := by
  refine dalinkCheckPacketIntegrity_eq_some_iff.mpr
    ⟨j, by omega, h.accepts hj haccepts, fun k hk haccepts' => ?_, ?_⟩
  · exact hfirst k hk (h.symm.accepts (by omega) haccepts')
  · rw [h.announced_eq hj]

/-- With no received position that passes, and none that could be made to, the check
fails in every memory with the same received bytes. -/
theorem AgreeBelow.check_of_closed {size : UInt8} (h : AgreeBelow size.toNat buf buf')
    (hnone : ∀ j, j + 6 < size.toNat → ¬ Accepts buf size.toNat j)
    (hclosed : ¬ (OpenHeader buf size.toNat ∧ TailWithin buf size.toNat)) :
    dalinkCheckPacketIntegrity buf' size = none := by
  refine check_eq_none_iff.mpr fun j hj haccepts => ?_
  rcases Nat.lt_or_ge (j + 6) size.toNat with hin | hbehind
  · exact hnone j hin (h.symm.accepts hin haccepts)
  · obtain ⟨hopen, htail⟩ := open_of_accepts hj hbehind haccepts
    exact hclosed ⟨h.symm.openHeader hopen, h.symm.tailWithin htail⟩

/-- Some first position passes if any does. -/
theorem exists_first_accepts (h : Accepts buf len j) :
    ∃ i ≤ j, Accepts buf len i ∧ ∀ k < i, ¬ Accepts buf len k := by
  have hex : ∃ i, Accepts buf len i := ⟨j, h⟩
  exact ⟨Nat.find hex, Nat.find_min' hex h, Nat.find_spec hex, fun k hk => Nat.find_min hex hk⟩

/-- Behind the received bytes stand `0xFF`s: no header there is completed. -/
def withoutLeftover (buf : Memory) (len : ℕ) : Memory :=
  fun k => if k < len then buf k else 0xFF

/-- Behind the received bytes stands what completes a header at `i` to the length `l`. -/
def withLeftover (buf : Memory) (len i l : ℕ) : Memory := fun k =>
  if k < len then buf k else if k = i + 6 then UInt8.ofNat l else btSppMessageHeaderLow

theorem agreeBelow_withoutLeftover (buf : Memory) (len : ℕ) :
    AgreeBelow len buf (withoutLeftover buf len) := fun _ hk => (if_pos hk).symm

theorem agreeBelow_withLeftover (buf : Memory) (len i l : ℕ) :
    AgreeBelow len buf (withLeftover buf len i l) := fun _ hk => (if_pos hk).symm

/-- A length byte of `0xFF` fits in no event the checker can be told of. -/
theorem not_accepts_withoutLeftover (hlen : len ≤ 255) (hbehind : len ≤ i + 6) :
    ¬ Accepts (withoutLeftover buf len) len i := by
  rintro ⟨-, hfits, -⟩
  have hbyte : withoutLeftover buf len (i + 6) = 0xFF := if_neg (by omega)
  have htoNat : (0xFF : UInt8).toNat = 255 := rfl
  rw [announced, hbyte, htoNat] at hfits
  omega

theorem accepts_withLeftover (hlen : len ≤ 255) (hi : i < len) (hbehind : len ≤ i + 6)
    (hhigh : buf i = btSppMessageHeaderHigh)
    (hlow : i + 1 < len → buf (i + 1) = btSppMessageHeaderLow) {l : ℕ} (hl : l + 10 ≤ len)
    (hcr : buf (l + 8) = 0x0D) (hlf : buf (l + 9) = 0x0A) :
    Accepts (withLeftover buf len i l) len i := by
  have hagree := agreeBelow_withLeftover buf len i l
  have hlength : withLeftover buf len i l (i + 6) = UInt8.ofNat l := by
    rw [withLeftover, if_neg (by omega), if_pos rfl]
  have hannounced : announced (withLeftover buf len i l) i = l + 10 := by
    rw [announced, hlength, UInt8.toNat_ofNat', Nat.mod_eq_of_lt (by omega)]
  rw [Accepts, hannounced]
  refine ⟨⟨?_, ?_⟩, hl, ?_, ?_⟩
  · rw [← hagree i hi, hhigh]
  · -- the second header byte was received, or is a leftover itself
    by_cases hnext : i + 1 < len
    · rw [← hagree _ hnext, hlow hnext]
    · rw [withLeftover, if_neg hnext, if_neg (by omega)]
  · rw [← hagree _ (by omega), ← hcr]
    rfl
  · rw [← hagree _ (by omega), ← hlf]
    rfl

/-- If the received bytes do not decide the check, leftovers decide whether anything is
found. -/
theorem check_differs_of_not_decided {size : UInt8} (h : ¬ Decided buf size.toNat) :
    ∃ buf', AgreeBelow size.toNat buf buf' ∧ ¬ (dalinkCheckPacketIntegrity buf size = none ↔
      dalinkCheckPacketIntegrity buf' size = none) := by
  have hlen : size.toNat ≤ 255 := Nat.le_of_lt_succ size.toNat_lt
  rw [Decided, not_or, not_not] at h
  obtain ⟨hnone, ⟨i, hi, hbehind, hhigh, hlow⟩, ⟨l, hl, hcr, hlf⟩⟩ := h
  -- with one content behind the received bytes the check succeeds
  have hfound : dalinkCheckPacketIntegrity (withLeftover buf size.toNat i l) size ≠ none :=
    fun hfails => check_eq_none_iff.mp hfails i hi
      (accepts_withLeftover hlen hi hbehind hhigh hlow hl hcr hlf)
  -- with another it fails
  have hlost : dalinkCheckPacketIntegrity (withoutLeftover buf size.toNat) size = none := by
    refine check_eq_none_iff.mpr fun j _ haccepts => ?_
    rcases Nat.lt_or_ge (j + 6) size.toNat with hin | hout
    · exact hnone ⟨j, hin, (agreeBelow_withoutLeftover buf _).symm.accepts hin haccepts⟩
    · exact not_accepts_withoutLeftover hlen hout haccepts
  by_cases hbuf : dalinkCheckPacketIntegrity buf size = none
  · exact ⟨_, agreeBelow_withLeftover buf _ i l, fun hiff => hfound (hiff.mp hbuf)⟩
  · exact ⟨_, agreeBelow_withoutLeftover buf _, fun hiff => hbuf (hiff.mpr hlost)⟩

/-- One check depends only on the received bytes exactly when they decide it. -/
theorem check_received_only_iff (buf : Memory) (size : UInt8) :
    (∀ buf', AgreeBelow size.toNat buf buf' →
      dalinkCheckPacketIntegrity buf size = dalinkCheckPacketIntegrity buf' size) ↔
      Decided buf size.toNat := by
  constructor
  · intro hsame
    by_contra hundecided
    obtain ⟨buf', hagree, hdiffers⟩ := check_differs_of_not_decided hundecided
    exact hdiffers (by rw [hsame buf' hagree])
  · intro hdecided buf' hagree
    have hrefl : AgreeBelow size.toNat buf buf := fun _ _ => rfl
    by_cases hreceived : ∃ j, j + 6 < size.toNat ∧ Accepts buf size.toNat j
    · obtain ⟨j, hj, haccepts⟩ := hreceived
      obtain ⟨i, hij, hacc, hfirst⟩ := exists_first_accepts haccepts
      rw [hrefl.check_of_received (by omega) hacc hfirst,
        hagree.check_of_received (by omega) hacc hfirst]
    · have hclosed := hdecided.resolve_left hreceived
      push Not at hreceived
      rw [hrefl.check_of_closed hreceived hclosed, hagree.check_of_closed hreceived hclosed]

/-! ### The receive loop -/

/-- From position `i` on, the received bytes decide every check of the loop: a received
position passes first and the rest behind the frame is decided, or nothing passes and
nothing can be made to. -/
inductive DecidedFrom (len : ℕ) (buf : Memory) : ℕ → Prop
  | stop {i : ℕ} (hnone : ∀ j, j + 6 < len - i → ¬ Accepts (buf.shift i) (len - i) j)
      (hclosed : ¬ (OpenHeader (buf.shift i) (len - i) ∧ TailWithin (buf.shift i) (len - i))) :
      DecidedFrom len buf i
  | frame {i j : ℕ} (hj : j + 6 < len - i) (haccepts : Accepts (buf.shift i) (len - i) j)
      (hfirst : ∀ k < j, ¬ Accepts (buf.shift i) (len - i) k)
      (hrest : DecidedFrom len buf (i + announced (buf.shift i) j)) : DecidedFrom len buf i

/-- The start of a memory replaced from `i` on. -/
private def replaceFrom (buf tail : Memory) (i : ℕ) : Memory :=
  fun k => if k < i then buf k else tail (k - i)

private theorem replaceFrom_shift (buf tail : Memory) (i : ℕ) :
    (replaceFrom buf tail i).shift i = tail := by
  funext k
  rw [Memory.shift_apply, replaceFrom, if_neg (by omega), Nat.add_sub_cancel_left]

private theorem agreeBelow_replaceFrom {tail : Memory}
    (h : AgreeBelow (len - i) (buf.shift i) tail) :
    AgreeBelow len buf (replaceFrom buf tail i) := by
  intro k hk
  unfold replaceFrom
  split_ifs with hi
  · rfl
  · rw [← h (k - i) (by omega), Memory.shift_apply, Nat.add_sub_cancel' (Nat.not_lt.mp hi)]

/-- Up to 255 bytes the narrowing keeps the remaining length. -/
theorem toNat_remaining (hlen : len ≤ 255) (i : ℕ) : (UInt8.ofNat (len - i)).toNat = len - i := by
  rw [UInt8.toNat_ofNat', Nat.mod_eq_of_lt (by omega)]

/-- One pass of the loop over a received frame, in every memory with the same received
bytes. -/
theorem AgreeBelow.handed_of_received (h : AgreeBelow len buf buf') (hlen : len ≤ 255)
    (hj : j + 6 < len - i) (haccepts : Accepts (buf.shift i) (len - i) j)
    (hfirst : ∀ k < j, ¬ Accepts (buf.shift i) (len - i) k) :
    handed len buf' i = ⟨i, announced (buf.shift i) j⟩ ::
      handed len buf' (i + announced (buf.shift i) j) := by
  have hsize := toNat_remaining hlen i
  have hcheck : dalinkCheckPacketIntegrity (buf'.shift i) (UInt8.ofNat (len - i)) =
      some ⟨0, announced (buf.shift i) j⟩ :=
    AgreeBelow.check_of_received (hsize.symm ▸ h.shift i) (hsize.symm ▸ hj)
      (hsize.symm ▸ haccepts) (hsize.symm ▸ hfirst)
  exact handed_of_some (by omega) hcheck

/-- The loop ends, in every memory with the same received bytes. -/
theorem AgreeBelow.handed_of_closed (h : AgreeBelow len buf buf') (hlen : len ≤ 255)
    (hnone : ∀ j, j + 6 < len - i → ¬ Accepts (buf.shift i) (len - i) j)
    (hclosed : ¬ (OpenHeader (buf.shift i) (len - i) ∧ TailWithin (buf.shift i) (len - i))) :
    handed len buf' i = [] := by
  have hsize := toNat_remaining hlen i
  have hcheck : dalinkCheckPacketIntegrity (buf'.shift i) (UInt8.ofNat (len - i)) = none :=
    AgreeBelow.check_of_closed (hsize.symm ▸ h.shift i) (hsize.symm ▸ hnone)
      (hsize.symm ▸ hclosed)
  exact handed_of_none hcheck

theorem DecidedFrom.handed_eq (hdecided : DecidedFrom len buf i) (hlen : len ≤ 255)
    (h : AgreeBelow len buf buf') : handed len buf i = handed len buf' i := by
  have hrefl : AgreeBelow len buf buf := fun _ _ => rfl
  induction hdecided with
  | stop hnone hclosed =>
    rw [hrefl.handed_of_closed hlen hnone hclosed, h.handed_of_closed hlen hnone hclosed]
  | frame hj haccepts hfirst _ ih =>
    rw [hrefl.handed_of_received hlen hj haccepts hfirst,
      h.handed_of_received hlen hj haccepts hfirst, ih]

/-- One undecided check is enough to make the places of dispatch differ. -/
theorem starts_differ_of_not_decidedFrom (hlen : len ≤ 255) (h : ¬ DecidedFrom len buf i) :
    ∃ buf', AgreeBelow len buf buf' ∧
      (handed len buf i).map CheckedPacket.packetHeader ≠
        (handed len buf' i).map CheckedPacket.packetHeader := by
  -- induction on what is left of the event
  obtain ⟨d, hd⟩ : ∃ d, d = len - i := ⟨_, rfl⟩
  induction d using Nat.strong_induction_on generalizing i with
  | _ d ih =>
    have hrefl : AgreeBelow len buf buf := fun _ _ => rfl
    have hsize := toNat_remaining hlen i
    by_cases hcheck : Decided (buf.shift i) (len - i)
    · by_cases hreceived : ∃ j, j + 6 < len - i ∧ Accepts (buf.shift i) (len - i) j
      · -- the frame is handed over all the same: something behind it is undecided
        obtain ⟨j', hj', haccepts'⟩ := hreceived
        obtain ⟨j, hjj', haccepts, hfirst⟩ := exists_first_accepts haccepts'
        have hj : j + 6 < len - i := by omega
        have hten := ten_le_announced (buf.shift i) j
        have hrest : ¬ DecidedFrom len buf (i + announced (buf.shift i) j) :=
          fun hrest => h (.frame hj haccepts hfirst hrest)
        obtain ⟨buf', hagree, hdiffers⟩ := ih _ (by omega) hrest rfl
        refine ⟨buf', hagree, fun heq => hdiffers ?_⟩
        rw [hrefl.handed_of_received hlen hj haccepts hfirst,
          hagree.handed_of_received hlen hj haccepts hfirst, List.map_cons, List.map_cons,
          List.cons.injEq] at heq
        exact heq.2
      · have hclosed := hcheck.resolve_left hreceived
        push Not at hreceived
        exact absurd (.stop hreceived hclosed) h
    · -- this check finds something in one of two memories only
      have hundecided : ¬ Decided (buf.shift i) (UInt8.ofNat (len - i)).toNat := by
        rw [hsize]
        exact hcheck
      obtain ⟨tail, hagree, hdiffers⟩ := check_differs_of_not_decided hundecided
      rw [hsize] at hagree
      refine ⟨_, agreeBelow_replaceFrom hagree, fun heq => hdiffers ?_⟩
      rw [← replaceFrom_shift buf tail i]
      have hi : i < len := by
        by_contra hend
        have hzero : len - i = 0 := by omega
        refine hcheck (.inr ?_)
        rintro ⟨⟨k, hk, -⟩, -⟩
        omega
      have hempty (m : Memory) : dalinkCheckPacketIntegrity (m.shift i) (UInt8.ofNat (len - i)) =
          none ↔ (handed len m i).map CheckedPacket.packetHeader = [] := by
        constructor
        · intro hnone
          rw [handed_of_none hnone, List.map_nil]
        · intro hnil
          by_contra hsome
          obtain ⟨p, hp⟩ := Option.ne_none_iff_exists'.mp hsome
          rw [handed_of_some hi hp] at hnil
          exact absurd hnil (by simp)
      rw [hempty, hempty, heq]

/-- **Parsing depends on the received bytes only** exactly when they decide it. One
check gives the same answer for all contents of the memory behind the received bytes if
and only if the received bytes decide it; and the receive loop dispatches at the same
places if and only if they decide each of its checks. -/
theorem parse_received_only_iff (buf : Memory) (size : UInt8) :
    ((∀ buf', AgreeBelow size.toNat buf buf' →
        dalinkCheckPacketIntegrity buf size = dalinkCheckPacketIntegrity buf' size) ↔
      Decided buf size.toNat) ∧
    ((∀ buf', AgreeBelow size.toNat buf buf' →
        dispatched size.toNat buf = dispatched size.toNat buf') ↔
      DecidedFrom size.toNat buf 0) := by
  have hlen : size.toNat ≤ 255 := Nat.le_of_lt_succ size.toNat_lt
  refine ⟨check_received_only_iff buf size, fun hsame => ?_, fun hdecided buf' hagree => ?_⟩
  · by_contra hundecided
    obtain ⟨buf', hagree, hdiffers⟩ := starts_differ_of_not_decidedFrom hlen hundecided
    have heq := hsame buf' hagree
    rw [dispatched_eq, dispatched_eq] at heq
    exact hdiffers heq
  · rw [dispatched_eq, dispatched_eq, hdecided.handed_eq hlen hagree]

/-- Ten received bytes with a header pair in their middle and a tail at their end. -/
def headerInMiddle : List UInt8 := [0, 0, 0, 0, 0x44, 0x4C, 0, 0, 0x0D, 0x0A]

/-- The length byte of the header is the first byte not received: with a zero left there
the check finds a frame of ten bytes, with `0xFF` it finds nothing. -/
theorem leftover_byte_completes_header :
    AgreeBelow 10 (Memory.overlay headerInMiddle .zero)
        (Memory.overlay headerInMiddle fun _ => 0xFF) ∧
      dalinkCheckPacketIntegrity (Memory.overlay headerInMiddle .zero) 10 = some ⟨0, 10⟩ ∧
      dalinkCheckPacketIntegrity (Memory.overlay headerInMiddle fun _ => 0xFF) 10 = none := by
  refine ⟨by unfold AgreeBelow; decide, ?_, ?_⟩
  · -- the test passes at position 4 and nowhere before
    exact dalinkCheckPacketIntegrity_eq_some_iff.mpr
      ⟨4, by decide, by decide, by decide, by decide⟩
  · exact check_eq_none_iff.mpr (by decide)

end PhoneLink
