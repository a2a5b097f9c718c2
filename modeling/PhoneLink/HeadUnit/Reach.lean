import PhoneLink.HeadUnit.Program
import PhoneLink.HeadUnit.Remembered
import PhoneLink.Protocol.Lookahead

/-!
# How far an event is read

The checker looks one and six bytes behind the position it stands at without a comparison with
the length, and the dispatcher looks at four bytes of a payload that may be empty. Nothing of
this goes far: the length that the checker gets is narrowed to a `char`, and so of an event
only as many bytes are parsed as its length exceeds a multiple of 256.

## Main results

* `handed_mod`: the bytes of an event that are parsed
* `event_reads_bounded`: what is done about an event depends on these and the six behind them,
  and on no fewer
-/

namespace PhoneLink

open CS CS.Transition

section Parse

variable {buf buf' : Memory} {len i j : ℕ}

/-- The tail is within the length that is compared, and nothing else is read further than six
bytes behind a position. -/
theorem AgreeBelow.accepts_ahead (h : AgreeBelow (len + 6) buf buf') (hj : j < len)
    (haccepts : Accepts buf len j) : Accepts buf' len j := by
  obtain ⟨⟨hhigh, hlow⟩, hfits, hcr, hlf⟩ := haccepts
  have hten := ten_le_announced buf j
  rw [Accepts, HeaderAt, ← h.announced_eq (show j + 6 < len + 6 by omega)]
  refine ⟨⟨?_, ?_⟩, hfits, ?_, ?_⟩
  · rw [← h j (by omega), hhigh]
  · rw [← h (j + 1) (by omega), hlow]
  · rw [← h _ (by omega), hcr]
  · rw [← h _ (by omega), hlf]

theorem AgreeBelow.check_eq {size : UInt8} (h : AgreeBelow (size.toNat + 6) buf buf') :
    dalinkCheckPacketIntegrity buf size = dalinkCheckPacketIntegrity buf' size := by
  have hiff (k : ℕ) (hk : k < size.toNat) :
      Accepts buf size.toNat k ↔ Accepts buf' size.toNat k :=
    ⟨h.accepts_ahead hk, h.symm.accepts_ahead hk⟩
  cases hcheck : dalinkCheckPacketIntegrity buf size with
  | none =>
    rw [check_eq_none_iff] at hcheck
    exact (check_eq_none_iff.mpr fun k hk => (hiff k hk).not.mp (hcheck k hk)).symm
  | some p =>
    obtain ⟨k, hk, haccepts, hfirst, rfl⟩ := dalinkCheckPacketIntegrity_eq_some_iff.mp hcheck
    refine (dalinkCheckPacketIntegrity_eq_some_iff.mpr ⟨k, hk, (hiff k hk).mp haccepts,
      fun n hn => (hiff n (hn.trans hk)).not.mp (hfirst n hn), ?_⟩).symm
    rw [h.announced_eq (show k + 6 < size.toNat + 6 by omega)]

theorem AgreeBelow.handed_eq (h : AgreeBelow (len + 6) buf buf') (i : ℕ) :
    handed len buf i = handed len buf' i := by
  fun_induction handed len buf i with
  | case1 i hi p hp ih =>
    have hsize : (UInt8.ofNat (len - i)).toNat ≤ len - i := toNat_narrowed_le _
    have hagree : AgreeBelow ((UInt8.ofNat (len - i)).toNat + 6) (buf.shift i) (buf'.shift i) :=
      fun k hk => h (i + k) (by omega)
    rw [hagree.check_eq] at hp
    rw [handed_of_some hi hp, ih, (dalinkCheckPacketIntegrity_bounds hp).1, Nat.add_zero]
  | case2 i hi hnone =>
    have hsize : (UInt8.ofNat (len - i)).toNat ≤ len - i := toNat_narrowed_le _
    have hagree : AgreeBelow ((UInt8.ofNat (len - i)).toNat + 6) (buf.shift i) (buf'.shift i) :=
      fun k hk => h (i + k) (by omega)
    rw [hagree.check_eq] at hnone
    exact (handed_of_none hnone).symm
  | case3 i hi => exact (handed_of_le (by omega)).symm

/-- The length that the checker gets is what is left of the length modulo 256. -/
theorem narrowed_eq (hi : i ≤ len % 256) :
    UInt8.ofNat (len - i) = UInt8.ofNat (len % 256 - i) := by
  apply UInt8.toNat_inj.mp
  rw [UInt8.toNat_ofNat', UInt8.toNat_ofNat']
  have hle := Nat.mod_le len 256
  omega

/-- Of an event only the first bytes are parsed, as many as its length exceeds a multiple of
256. -/
theorem handed_mod (len : ℕ) (buf : Memory) (hi : i ≤ len % 256) :
    handed len buf i = handed (len % 256) buf i := by
  have hsize := narrowed_eq hi
  have hle := Nat.mod_le len 256
  fun_induction handed (len % 256) buf i with
  | case1 i hlt p hp ih =>
    have hbounds := dalinkCheckPacketIntegrity_bounds hp
    have hrest := toNat_narrowed_le (len % 256 - i)
    have hnext : i + p.length ≤ len % 256 := by omega
    rw [handed_of_some (by omega) (hsize ▸ hp), ih hnext (narrowed_eq hnext), hbounds.1,
      Nat.add_zero]
  | case2 i hlt hnone => exact handed_of_none (hsize ▸ hnone)
  | case3 i hge =>
    -- the checker is given nothing
    refine handed_of_none (check_eq_none_iff.mpr fun k hk => ?_)
    rw [hsize, Nat.sub_eq_zero_of_le (Nat.not_lt.mp hge)] at hk
    exact absurd hk (Nat.not_lt_zero k)

end Parse

/-! ### The dispatcher -/

namespace HeadUnit

/-- The dispatcher reads a header and five bytes of the payload. -/
theorem dalinkSppPacketDeal_congr {m m' : Memory} (h : AgreeBelow 12 m m') (s : HeadUnit)
    (len : ℕ) : s.dalinkSppPacketDeal m len = s.dalinkSppPacketDeal m' len := by
  have hread : readHeader m = readHeader m' := by
    simp only [readHeader, h 2 (by decide), h 3 (by decide), h 4 (by decide), h 5 (by decide)]
  have hpayload (k : ℕ) (hk : k < 5) : m.shift 7 k = m'.shift 7 k := h (7 + k) (by omega)
  have htime : (m.shift 7).read 1 4 = (m'.shift 7).read 1 4 :=
    List.map_congr_left fun k hk => hpayload (1 + k) (by have := List.mem_range.mp hk; omega)
  have hcommand : commandOf m = commandOf m' := by
    simp only [commandOf, ratioAt, h 2 (by decide), htime, hpayload 0 (by decide),
      hpayload 1 (by decide), hpayload 2 (by decide), hpayload 3 (by decide),
      hpayload 4 (by decide)]
  have hlength : m btSppMessageLengthIndex = m' btSppMessageLengthIndex := h 6 (by decide)
  unfold dalinkSppPacketDeal
  rw [hlength, hread, hcommand]

theorem dealWithEvent_congr {msg msg' : BtCsMsg} (htype : msg'.eEventType = msg.eEventType)
    (hlen : msg'.nDataLen = msg.nDataLen)
    (h : AgreeBelow (msg.nDataLen % 256 + 6) msg.szData msg'.szData)
    (checkConnect : Profile → ℤ) (s : HeadUnit) :
    s.dealWithEvent msg checkConnect = s.dealWithEvent msg' checkConnect := by
  unfold dealWithEvent
  rw [htype, hlen]
  split_ifs
  · rfl
  · have hparsed : handed msg.nDataLen msg.szData 0 = handed msg.nDataLen msg'.szData 0 := by
      rw [handed_mod _ msg.szData (Nat.zero_le _), handed_mod _ msg'.szData (Nat.zero_le _),
        h.handed_eq]
    rw [phoneAppMsgDeal_eq_foldl, phoneAppMsgDeal_eq_foldl, ← hparsed]
    refine List.foldl_ext _ _ s fun u p hp => ?_
    -- a packet ends among the bytes that are parsed, ten or more behind its header
    rw [handed_mod _ msg.szData (Nat.zero_le _)] at hp
    have hbounds := handed_bounds hp
    exact dalinkSppPacketDeal_congr (fun k hk => h (p.packetHeader + k) (by omega)) u _
  · rfl

end HeadUnit

/-! ### Six bytes behind -/

/-- Bytes of an event that are a heartbeat but for the header pair, which stands at the last
position of `len` and is completed behind it. -/
def lastPosition (len : ℕ) (lengthByte : UInt8) : Memory := fun k =>
  if k = 2 then btSppMessageDlHuHeartbeat
  else if k = 8 then 0x0D
  else if k = 9 then 0x0A
  else if k = len - 1 then btSppMessageHeaderHigh
  else if k = len then btSppMessageHeaderLow
  else if k = len + 5 then lengthByte
  else 0

section LastPosition

variable {len : ℕ} {b : UInt8}

/-- The header pair is the only one. -/
theorem eq_of_headerAt_lastPosition {k : ℕ} (hk : k < len)
    (h : HeaderAt (lastPosition len b) k) : k = len - 1 := by
  have hhigh := h.1
  unfold lastPosition at hhigh
  split_ifs at hhigh with h2 h8 h9 hlast hend hbehind
  · exact absurd hhigh (by decide)
  · exact absurd hhigh (by decide)
  · exact absurd hhigh (by decide)
  · exact hlast
  · omega
  · omega
  · exact absurd hhigh (by decide)

theorem announced_lastPosition (hlen : 11 ≤ len) :
    announced (lastPosition len b) (len - 1) = b.toNat + 10 := by
  have hbyte : lastPosition len b (len - 1 + 6) = b := by
    unfold lastPosition
    rw [if_neg (by omega), if_neg (by omega), if_neg (by omega), if_neg (by omega),
      if_neg (by omega), if_pos (by omega)]
  rw [announced, hbyte]

theorem handed_lastPosition_zero (hlen : 11 ≤ len) (hmax : len ≤ 255) :
    ∃ rest, handed len (lastPosition len 0) 0 = ⟨0, 10⟩ :: rest := by
  have hsize := toNat_remaining hmax 0
  have hannounced : announced (lastPosition len 0) (len - 1) = 10 := announced_lastPosition hlen
  have haccepts : Accepts (lastPosition len 0) len (len - 1) := by
    refine ⟨⟨?_, ?_⟩, by omega, ?_, ?_⟩
    · unfold lastPosition
      rw [if_neg (by omega), if_neg (by omega), if_neg (by omega), if_pos rfl]
    · unfold lastPosition
      rw [if_neg (by omega), if_neg (by omega), if_neg (by omega), if_neg (by omega),
        if_pos (by omega)]
    · rw [hannounced]
      rfl
    · rw [hannounced]
      rfl
  have hcheck : dalinkCheckPacketIntegrity ((lastPosition len 0).shift 0)
      (UInt8.ofNat (len - 0)) = some ⟨0, 10⟩ := by
    rw [Memory.shift_zero]
    refine dalinkCheckPacketIntegrity_eq_some_iff.mpr ⟨len - 1, by omega, ?_, ?_, ?_⟩
    · rw [hsize]
      exact haccepts
    · intro k hk h
      exact absurd (eq_of_headerAt_lastPosition (by omega) h.1) (by omega)
    · rw [hannounced]
  exact ⟨_, handed_of_some (by omega) hcheck⟩

theorem handed_lastPosition_max (hlen : 11 ≤ len) (hmax : len ≤ 255) :
    handed len (lastPosition len 0xFF) 0 = [] := by
  have hsize := toNat_remaining hmax 0
  have hannounced : announced (lastPosition len 0xFF) (len - 1) = 265 :=
    announced_lastPosition hlen
  refine handed_of_none (check_eq_none_iff.mpr fun k hk h => ?_)
  rw [Memory.shift_zero] at h
  -- the only header announces more than there is
  obtain rfl := eq_of_headerAt_lastPosition (by omega) h.1
  have hfits := h.2.1
  omega

/-- The first bytes are a heartbeat. -/
theorem isHeartbeat_lastPosition (hlen : 11 ≤ len) :
    (HeadAction.packet ((lastPosition len b).shift 0) len).isHeartbeat = true := by
  have hlength : lastPosition len b 6 = 0 := by
    unfold lastPosition
    rw [if_neg (by decide), if_neg (by decide), if_neg (by decide), if_neg (by omega),
      if_neg (by omega), if_neg (by omega)]
  have hcommand : (HeadAction.packet ((lastPosition len b).shift 0) len).command? =
      some .heartbeat := by
    rw [Memory.shift_zero, HeadAction.command?, hlength]
    exact if_neg (Nat.not_lt.mpr (show 10 ≤ len by omega))
  rw [HeadAction.isHeartbeat, hcommand]
  rfl

/-- An event whose outcome depends on the sixth byte behind it. -/
def undecidedEvent (len : ℕ) (hmax : len ≤ 255) (b : UInt8) : BtCsMsg :=
  ⟨btMsgSppReviceData, len, lastPosition len b, hmax.trans (by decide)⟩

end LastPosition

/-- **How far an event is read.** What is done about an event of `n` bytes depends on the first
`n % 256` of them and the six bytes behind these, whatever else the buffer holds. For every
length from 11 to 255 it does depend on the sixth: two events that differ in nothing else are
not dealt with in the same way. -/
theorem event_reads_bounded :
    (∀ (s : HeadUnit) (msg msg' : BtCsMsg) (checkConnect : Profile → ℤ),
      msg'.eEventType = msg.eEventType → msg'.nDataLen = msg.nDataLen →
      AgreeBelow (msg.nDataLen % 256 + 6) msg.szData msg'.szData →
        s.dealWithEvent msg checkConnect = s.dealWithEvent msg' checkConnect) ∧
    ∀ len, 11 ≤ len → len ≤ 255 → ∀ (env : Environment) (checkConnect : Profile → ℤ),
      ∃ msg msg' : BtCsMsg,
        msg'.eEventType = msg.eEventType ∧ msg.nDataLen = len ∧ msg'.nDataLen = len ∧
          (∀ k, k ≠ len + 5 → msg'.szData k = msg.szData k) ∧
          (HeadUnit.start env).dealWithEvent msg checkConnect ≠
            (HeadUnit.start env).dealWithEvent msg' checkConnect := by
  refine ⟨fun s msg msg' checkConnect htype hlen h =>
    HeadUnit.dealWithEvent_congr htype hlen h checkConnect s, ?_⟩
  intro len hlen hmax env checkConnect
  refine ⟨undecidedEvent len hmax 0, undecidedEvent len hmax 0xFF, rfl, rfl, rfl, ?_, ?_⟩
  · intro k hk
    show lastPosition len 0xFF k = lastPosition len 0 k
    simp only [lastPosition, if_neg hk]
  · -- only in the first is there a heartbeat
    intro hsame
    have hflag := congrArg HeadUnit.heartBeatFlag hsame
    obtain ⟨rest, hhanded⟩ := handed_lastPosition_zero hlen hmax
    have hfound : (Input.event (undecidedEvent len hmax 0) checkConnect).actions.any
        HeadAction.isHeartbeat = true := by
      show ((handed len (lastPosition len 0) 0).map _).any _ = true
      rw [hhanded, List.map_cons, List.any_cons]
      exact Bool.or_eq_true_iff.mpr (.inl (isHeartbeat_lastPosition hlen))
    have hnone : (Input.event (undecidedEvent len hmax 0xFF) checkConnect).actions.any
        HeadAction.isHeartbeat = false := by
      show ((handed len (lastPosition len 0xFF) 0).map _).any _ = false
      rw [handed_lastPosition_max hlen hmax]
      rfl
    rw [HeadUnit.dealWithEvent_eq, HeadUnit.dealWithEvent_eq, HeadUnit.heartBeatFlag_run,
      HeadUnit.heartBeatFlag_run, hfound, hnone] at hflag
    cases hflag

end PhoneLink
