import Mathlib.Data.Nat.ModEq
import PhoneLink.CS.CircularBuffer

/-!
# Slots copied cell by cell

A producer copies values into the slots of a circular buffer, posting a semaphore for each; a
consumer waits on it and copies the slots out. Nothing locks a slot, and the producer does not
look where the consumer is. When it has lapped the consumer, both may be copying the same slot
at the same time, and what the consumer gets may be put together from several values.

Here the two copies go cell by cell, in any order and mixed. A value need not fill its slot:
which cells belong to it can be told from these cells, as from a length that stands among
them. The others are left over from earlier values.

## Main definitions

* `CopyQueue`: the buffer, its semaphore, and how far the two copies have come
* `Source`: where the contents of a cell come from
* `Alone`: no copy into the slot has overlapped the copy out of it

## Main results

* `Sound.put`, `Sound.putCell`, `Sound.putDone`, `Sound.post`, `Sound.wait`, `Sound.take`,
  `Sound.takeCell`, `Sound.takeDone`: every operation keeps what is known about the cells
* `Sound.taken`: every cell taken is that of a value stored into the slot, none older than the
  newest one that has this cell; a copy that was alone is the newest value, whole
-/

namespace CS

/-! ### The newest value of a slot -/

/-- Of the numbers below `m` that share a slot of `n` with `k`, the last. -/
def newest (n k m : ℕ) : ℕ := k + n * ((m - 1 - k) / n)

section Newest

variable {n k m : ℕ}

theorem newest_mod (n k m : ℕ) : newest n k m % n = k % n := Nat.add_mul_mod_self_left ..

theorem newest_lt (hkm : k < m) : newest n k m < m := by
  have hle : n * ((m - 1 - k) / n) ≤ m - 1 - k := Nat.mul_div_le _ _
  unfold newest
  omega

/-- No other number of the slot comes between it and `m`. -/
theorem le_newest (hn : 0 < n) {i : ℕ} (hslot : i % n = k % n) (him : i < m) :
    i ≤ newest n k m := by
  have hlt : m - 1 - k < n * ((m - 1 - k) / n) + n := Nat.lt_mul_div_succ _ hn
  have hnear : i < newest n k m + n := by
    unfold newest
    omega
  by_contra hlater
  -- two numbers of a slot are at least `n` apart
  have hdvd : n ∣ i - newest n k m :=
    (Nat.modEq_iff_dvd' (by omega)).mp ((newest_mod n k m).trans hslot.symm)
  exact absurd (Nat.le_of_dvd (by omega) hdvd) (by omega)

/-- Where the producer has not lapped, it is the number itself. -/
theorem newest_eq_self (h : m ≤ k + n) : newest n k m = k := by
  unfold newest
  rcases Nat.eq_zero_or_pos n with rfl | hn
  · rw [Nat.zero_mul, Nat.add_zero]
  · rw [Nat.div_eq_of_lt (by omega), Nat.mul_zero, Nat.add_zero]

end Newest

/-! ### The queue -/

/-- Which cells belong to a value; they can be told from the value's own cells. -/
structure Extent {ι : Type*} (γ : ι → Type*) where
  cells : (∀ c, γ c) → List ι
  cells_congr : ∀ {v w : ∀ c, γ c}, (∀ c ∈ cells v, w c = v c) → cells w = cells v

/-- The slots with their points and semaphore, and how far the two copies have come. -/
structure CopyQueue {ι : Type*} (γ : ι → Type*) where
  slots : ℕ → ∀ c, γ c
  readPoint : ℕ
  writePoint : ℕ
  sem : ℕ
  /-- The value the producer is copying, with the cells still to come. -/
  storing : Option ((∀ c, γ c) × List ι)
  /-- The producer has moved its point and not yet posted. -/
  posting : Bool
  /-- The consumer's wait has succeeded and it has not yet moved its point. -/
  taking : Bool
  /-- The cells that the consumer has still to copy. -/
  loading : Option (List ι)
  /-- What the consumer copies to. -/
  dest : ∀ c, γ c
  /-- History: the values stored, the last one perhaps not yet in full. -/
  stored : List (∀ c, γ c)
  /-- History: how many are stored in full. -/
  finished : ℕ
  /-- History: how many were when the consumer began its copy, and the cells it is to copy. -/
  begun : ℕ
  extent : List ι
  /-- History: what the consumer had when it moved its point. -/
  taken : List (∀ c, γ c)

namespace CopyQueue

variable {ι : Type*} {γ : ι → Type*}

/-- Every slot holds `init`, and the consumer's copy is not yet made. -/
def start (init dest : ∀ c, γ c) : CopyQueue γ where
  slots _ := init
  readPoint := 0
  writePoint := 0
  sem := 0
  storing := none
  posting := false
  taking := false
  loading := none
  dest
  stored := []
  finished := 0
  begun := 0
  extent := []
  taken := []

/-- The producer begins to copy a value. -/
def put (E : Extent γ) (v : ∀ c, γ c) (q : CopyQueue γ) : Option (CopyQueue γ) :=
  if q.storing.isSome ∨ q.posting then none
  else some { q with storing := some (v, E.cells v), stored := q.stored ++ [v] }

/-- It copies a cell. -/
def putCell [DecidableEq ι] (c : ι) (q : CopyQueue γ) : Option (CopyQueue γ) :=
  match q.storing with
  | some (v, left) =>
    if c ∈ left then
      some { q with
        slots := Function.update q.slots q.writePoint
          (Function.update (q.slots q.writePoint) c (v c))
        storing := some (v, left.erase c) }
    else none
  | none => none

/-- It has copied all cells, and moves its point. -/
def putDone (n : ℕ) (q : CopyQueue γ) : Option (CopyQueue γ) :=
  match q.storing with
  | some (_, []) =>
    some { q with
      storing := none
      writePoint := CircularBuffer.advance n q.writePoint
      posting := true
      finished := q.finished + 1 }
  | _ => none

def post (q : CopyQueue γ) : Option (CopyQueue γ) :=
  if q.posting then some { q with sem := q.sem + 1, posting := false } else none

def wait (q : CopyQueue γ) : Option (CopyQueue γ) :=
  if q.taking ∨ q.sem = 0 then none else some { q with sem := q.sem - 1, taking := true }

/-- The consumer looks which cells it is to copy. -/
def take (E : Extent γ) (q : CopyQueue γ) : Option (CopyQueue γ) :=
  if q.taking ∧ q.loading.isNone then
    some { q with
      loading := some (E.cells (q.slots q.readPoint))
      begun := q.finished
      extent := E.cells (q.slots q.readPoint) }
  else none

/-- It copies a cell. -/
def takeCell [DecidableEq ι] (c : ι) (q : CopyQueue γ) : Option (CopyQueue γ) :=
  match q.loading with
  | some left =>
    if c ∈ left then
      some { q with
        dest := Function.update q.dest c (q.slots q.readPoint c)
        loading := some (left.erase c) }
    else none
  | none => none

/-- It has copied all of them, and moves its point. -/
def takeDone (n : ℕ) (q : CopyQueue γ) : Option (CopyQueue γ) :=
  match q.loading with
  | some [] =>
    some { q with
      loading := none
      taking := false
      readPoint := CircularBuffer.advance n q.readPoint
      taken := q.taken ++ [q.dest] }
  | _ => none

variable {E : Extent γ} {n : ℕ} {q t : CopyQueue γ} {v : ∀ c, γ c} {c : ι}

theorem put_eq_some (h : q.put E v = some t) : (q.storing = none ∧ q.posting = false) ∧
    t = { q with storing := some (v, E.cells v), stored := q.stored ++ [v] } := by
  unfold put at h
  split_ifs at h with hbusy
  push Not at hbusy
  exact ⟨⟨by simpa using hbusy.1, by simpa using hbusy.2⟩, (Option.some.inj h).symm⟩

theorem putCell_eq_some [DecidableEq ι] (h : q.putCell c = some t) :
    ∃ v left, q.storing = some (v, left) ∧ c ∈ left ∧ t = { q with
      slots := Function.update q.slots q.writePoint
        (Function.update (q.slots q.writePoint) c (v c))
      storing := some (v, left.erase c) } := by
  unfold putCell at h
  split at h
  · next v left hstoring =>
    split_ifs at h with hc
    exact ⟨v, left, hstoring, hc, (Option.some.inj h).symm⟩
  · cases h

theorem putDone_eq_some (h : q.putDone n = some t) : ∃ v, q.storing = some (v, []) ∧
    t = { q with
      storing := none
      writePoint := CircularBuffer.advance n q.writePoint
      posting := true
      finished := q.finished + 1 } := by
  unfold putDone at h
  split at h
  · next v hstoring => exact ⟨v, hstoring, (Option.some.inj h).symm⟩
  · cases h

theorem post_eq_some (h : q.post = some t) :
    q.posting = true ∧ t = { q with sem := q.sem + 1, posting := false } := by
  unfold post at h
  split_ifs at h with hposting
  exact ⟨hposting, (Option.some.inj h).symm⟩

theorem wait_eq_some (h : q.wait = some t) :
    (q.taking = false ∧ 0 < q.sem) ∧ t = { q with sem := q.sem - 1, taking := true } := by
  unfold wait at h
  split_ifs at h with hblocked
  push Not at hblocked
  exact ⟨⟨by simpa using hblocked.1, Nat.pos_of_ne_zero hblocked.2⟩, (Option.some.inj h).symm⟩

theorem take_eq_some (h : q.take E = some t) : (q.taking = true ∧ q.loading = none) ∧
    t = { q with
      loading := some (E.cells (q.slots q.readPoint))
      begun := q.finished
      extent := E.cells (q.slots q.readPoint) } := by
  unfold take at h
  split_ifs at h with hready
  exact ⟨⟨hready.1, Option.isNone_iff_eq_none.mp hready.2⟩, (Option.some.inj h).symm⟩

theorem takeCell_eq_some [DecidableEq ι] (h : q.takeCell c = some t) :
    ∃ left, q.loading = some left ∧ c ∈ left ∧ t = { q with
      dest := Function.update q.dest c (q.slots q.readPoint c)
      loading := some (left.erase c) } := by
  unfold takeCell at h
  split at h
  · next left hloading =>
    split_ifs at h with hc
    exact ⟨left, hloading, hc, (Option.some.inj h).symm⟩
  · cases h

theorem takeDone_eq_some (h : q.takeDone n = some t) : q.loading = some [] ∧
    t = { q with
      loading := none
      taking := false
      readPoint := CircularBuffer.advance n q.readPoint
      taken := q.taken ++ [q.dest] } := by
  unfold takeDone at h
  split at h
  · next hloading => exact ⟨hloading, (Option.some.inj h).symm⟩
  · cases h

/-! ### Where the contents of a cell come from -/

/-- None of the values numbered from `i` on, and below `m`, that came to the slot `j` has the
cell. -/
def Untouched (E : Extent γ) (n : ℕ) (stored : List (∀ c, γ c)) (i m j : ℕ) (c : ι) : Prop :=
  ∀ (k : ℕ) (v : ∀ c, γ c), i ≤ k → k < m → stored[k]? = some v → k % n = j → c ∉ E.cells v

/-- What the cell of the slot `j` holds is what it held at the start or what a value has there
that came to the slot; and of the first `m` values none that came to the slot later has the
cell. -/
def Source (E : Extent γ) (n : ℕ) (init : ∀ c, γ c) (stored : List (∀ c, γ c)) (m j : ℕ) (c : ι)
    (x : γ c) : Prop :=
  (x = init c ∧ Untouched E n stored 0 m j c) ∨
    ∃ k v, stored[k]? = some v ∧ k % n = j ∧ c ∈ E.cells v ∧ x = v c ∧
      Untouched E n stored (k + 1) m j c

/-- Every value that came to the slot `j` is one of the first `m`. -/
def Alone (n : ℕ) (stored : List (∀ c, γ c)) (m j : ℕ) : Prop :=
  ∀ k < stored.length, k % n = j → k < m

section Source

variable {init : ∀ c, γ c} {stored stored' : List (∀ c, γ c)} {i j k m m' r : ℕ} {x : γ c}

theorem Untouched.mono (h : Untouched E n stored i m j c) (hm : m' ≤ m) :
    Untouched E n stored i m' j c := fun k v hi hk => h k v hi (hk.trans_le hm)

theorem Untouched.append (h : Untouched E n stored i m j c) (hm : m ≤ stored.length) :
    Untouched E n (stored ++ [v]) i m j c := by
  intro k w hi hk hw
  rw [List.getElem?_append_left (hk.trans_le hm)] at hw
  exact h k w hi hk hw

theorem Untouched.succ (h : Untouched E n stored i m j c)
    (hnew : ∀ v, stored[m]? = some v → m % n = j → c ∉ E.cells v) :
    Untouched E n stored i (m + 1) j c := by
  intro k w hi hk hw
  rcases Nat.lt_succ_iff_lt_or_eq.mp hk with hold | rfl
  · exact h k w hi hold hw
  · exact hnew w hw

theorem Source.imp (h : Source E n init stored m j c x)
    (hstored : ∀ (k : ℕ) (v : ∀ c, γ c), stored[k]? = some v → stored'[k]? = some v)
    (huntouched : ∀ i, Untouched E n stored i m j c → Untouched E n stored' i m' j c) :
    Source E n init stored' m' j c x := by
  rcases h with ⟨hx, hnone⟩ | ⟨k, v, hk, hj, hc, hx, hlater⟩
  · exact .inl ⟨hx, huntouched 0 hnone⟩
  · exact .inr ⟨k, v, hstored k v hk, hj, hc, hx, huntouched (k + 1) hlater⟩

theorem Source.mono (h : Source E n init stored m j c x) (hm : m' ≤ m) :
    Source E n init stored m' j c x :=
  h.imp (fun _ _ => id) fun _ hu => hu.mono hm

theorem Source.append (h : Source E n init stored m j c x) (hm : m ≤ stored.length) :
    Source E n init (stored ++ [v]) m j c x :=
  h.imp (fun _ _ hk => List.getElem?_append_left (List.getElem?_eq_some_iff.mp hk).1 ▸ hk)
    fun _ hu => hu.append hm

theorem Source.succ (h : Source E n init stored m j c x)
    (hnew : ∀ v, stored[m]? = some v → m % n = j → c ∉ E.cells v) :
    Source E n init stored (m + 1) j c x :=
  h.imp (fun _ _ => id) fun _ hu => hu.succ hnew

/-- What a value that came to the slot has in a cell, if it is none of the first `m`, or the
last of them. -/
theorem source_of_stored (hv : stored[k]? = some v) (hj : k % n = j) (hc : c ∈ E.cells v)
    (hm : m ≤ k + 1) : Source E n init stored m j c (v c) :=
  .inr ⟨k, v, hv, hj, hc, rfl, fun _ _ hi hk => absurd (hi.trans_lt hk) (by omega)⟩

theorem Alone.of_append (h : Alone n (stored ++ [v]) m j) : Alone n stored m j := by
  intro k hk
  exact h k (by rw [List.length_append]; omega)

/-- A cell that the newest value has comes from this value or from a later one. -/
theorem Source.exists_newest_le (h : Source E n init stored m j c x) (hj : r % n = j) (hr : r < m)
    (hv : stored[newest n r m]? = some v) (hc : c ∈ E.cells v) :
    ∃ k w, stored[k]? = some w ∧ k % n = j ∧ newest n r m ≤ k ∧ x = w c := by
  have hslot : newest n r m % n = j := (newest_mod n r m).trans hj
  have hlt := newest_lt (n := n) hr
  -- were the source older than the newest value, this value would have come in between
  rcases h with ⟨-, hnone⟩ | ⟨k, w, hk, hkj, -, hx, hlater⟩
  · exact absurd hc (hnone _ v (Nat.zero_le _) hlt hv hslot)
  · refine ⟨k, w, hk, hkj, ?_, hx⟩
    by_contra hbefore
    exact hlater _ v (by omega) hlt hv hslot hc

/-- If no copy into a slot overlaps, its cells are those of the newest value. -/
theorem Source.eq_newest (h : Source E n init stored m j c x) (hn : 0 < n)
    (halone : Alone n stored m j) (hj : r % n = j) (hr : r < m)
    (hv : stored[newest n r m]? = some v) (hc : c ∈ E.cells v) : x = v c := by
  obtain ⟨k, w, hk, hkj, hge, hx⟩ := h.exists_newest_le hj hr hv hc
  have hkm := halone k (List.getElem?_eq_some_iff.mp hk).1 hkj
  obtain rfl : k = newest n r m :=
    Nat.le_antisymm (le_newest hn (hkj.trans hj.symm) hkm) hge
  obtain rfl := Option.some.inj (hk.symm.trans hv)
  exact hx

/-- With at most `n` values waiting no copy into the slot overlaps. -/
theorem alone_of_length_le (h : stored.length ≤ r + n) (hr : r < m) :
    Alone n stored m (r % n) := by
  intro k hk hslot
  by_contra hlater
  have hdvd : n ∣ k - r := (Nat.modEq_iff_dvd' (by omega)).mp hslot.symm
  exact absurd (Nat.le_of_dvd (by omega) hdvd) (by omega)

end Source

/-! ### What is known about the two copies -/

/-- The producer is copying a value to a slot: the last one stored, of which the cells that are
not still to come are there. -/
structure Storing (E : Extent γ) (stored : List (∀ c, γ c)) (m : ℕ) (slot v : ∀ c, γ c)
    (left : List ι) : Prop where
  last : stored[m]? = some v
  length_eq : stored.length = m + 1
  subset : left ⊆ E.cells v
  copied : ∀ c ∈ E.cells v, c ∉ left → slot c = v c

/-- The consumer is copying the slot whose turn it is, begun with `m` values stored in full:
where the cells copied so far come from; and if it is alone it copies the cells of the newest
value. -/
structure Loading (E : Extent γ) (n : ℕ) (init : ∀ c, γ c) (stored : List (∀ c, γ c)) (m r : ℕ)
    (extent : List ι) (dest : ∀ c, γ c) (left : List ι) : Prop where
  lt : r < m
  extent_eq : ∃ slot, extent = E.cells slot
  copied : ∀ c ∈ extent, c ∉ left → Source E n init stored m (r % n) c (dest c)
  whole : Alone n stored m (r % n) →
    ∃ v, stored[newest n r m]? = some v ∧ extent = E.cells v

/-- Both points go round, what has not been taken is counted, every value stored has what all
values put have, and the contents of every cell have a source. -/
structure Sound (E : Extent γ) (n : ℕ) (init : ∀ c, γ c) (P : (∀ c, γ c) → Prop)
    (q : CopyQueue γ) : Prop where
  readPoint_eq : q.readPoint = q.taken.length % n
  writePoint_eq : q.writePoint = q.finished % n
  counted : q.taken.length + (q.sem + q.posting.toNat + q.taking.toNat) = q.finished
  of_mem : ∀ v ∈ q.stored, P v
  slot : ∀ j c, Source E n init q.stored q.finished j c (q.slots j c)
  idle : q.storing = none → q.stored.length = q.finished
  storing : ∀ v left, q.storing = some (v, left) →
    q.posting = false ∧ Storing E q.stored q.finished (q.slots q.writePoint) v left
  loading : ∀ left, q.loading = some left → (q.taking = true ∧ q.begun ≤ q.finished) ∧
    Loading E n init q.stored q.begun q.taken.length q.extent q.dest left

section Sound

variable {init : ∀ c, γ c} {stored : List (∀ c, γ c)} {m r : ℕ} {extent left : List ι}
  {dest : ∀ c, γ c} {P : (∀ c, γ c) → Prop}

theorem sound_start (dest : ∀ c, γ c) : Sound E n init P (start init dest) where
  readPoint_eq := (Nat.zero_mod n).symm
  writePoint_eq := (Nat.zero_mod n).symm
  counted := rfl
  of_mem _ hv := absurd hv List.not_mem_nil
  slot _ _ := .inl ⟨rfl, fun _ _ _ hk => nomatch hk⟩
  idle _ := rfl
  storing _ _ h := nomatch h
  loading _ h := nomatch h

theorem Sound.of_getElem? (h : Sound E n init P q) {k : ℕ} (hv : q.stored[k]? = some v) : P v :=
  h.of_mem v (List.mem_of_getElem? hv)

theorem Sound.finished_le (h : Sound E n init P q) : q.finished ≤ q.stored.length := by
  cases hstoring : q.storing with
  | none => exact (h.idle hstoring).ge
  | some p => exact (h.storing p.1 p.2 hstoring).2.length_eq ▸ Nat.le_succ _

/-- One more value comes to a slot while the consumer copies. -/
theorem Loading.append (h : Loading E n init stored m r extent dest left)
    (hm : m ≤ stored.length) : Loading E n init (stored ++ [v]) m r extent dest left where
  lt := h.lt
  extent_eq := h.extent_eq
  copied c hc hleft := (h.copied c hc hleft).append hm
  whole halone := by
    obtain ⟨w, hw, hextent⟩ := h.whole halone.of_append
    exact ⟨w, List.getElem?_append_left (List.getElem?_eq_some_iff.mp hw).1 ▸ hw, hextent⟩

theorem Sound.put (h : Sound E n init P q) (hv : P v) (hput : q.put E v = some t) :
    Sound E n init P t := by
  have hfinished := h.finished_le
  obtain ⟨⟨hidle, hposting⟩, rfl⟩ := put_eq_some hput
  have hlength := h.idle hidle
  exact { h with
    of_mem := fun w hw => by
      rcases List.mem_append.mp hw with hold | hnew
      · exact h.of_mem w hold
      · exact List.mem_singleton.mp hnew ▸ hv
    slot := fun j c => (h.slot j c).append hfinished
    idle := fun hnone => nomatch hnone
    storing := fun w left hstoring => by
      obtain ⟨rfl, rfl⟩ := Prod.mk.inj (Option.some.inj hstoring)
      exact ⟨hposting, {
        last := by rw [← hlength, List.getElem?_concat_length]
        length_eq := by rw [List.length_append, List.length_singleton, hlength]
        subset := fun _ hc => hc
        copied := fun _ hc hnot => absurd hc hnot }⟩
    loading := fun left hloading =>
      have ⟨⟨htaking, hle⟩, hcopying⟩ := h.loading left hloading
      ⟨⟨htaking, hle⟩, hcopying.append (hle.trans hfinished)⟩ }

theorem Sound.putCell [DecidableEq ι] (h : Sound E n init P q) (hput : q.putCell c = some t) :
    Sound E n init P t := by
  obtain ⟨v, left, hstoring, hc, rfl⟩ := putCell_eq_some hput
  obtain ⟨hposting, hcopying⟩ := h.storing v left hstoring
  exact { h with
    slot := fun j b => by
      dsimp only
      obtain rfl | hj := eq_or_ne j q.writePoint
      · rw [Function.update_self]
        obtain rfl | hb := eq_or_ne b c
        · -- the cell now is that of the value being copied
          rw [Function.update_self]
          exact source_of_stored hcopying.last h.writePoint_eq.symm (hcopying.subset hc)
            (Nat.le_succ _)
        · rw [Function.update_of_ne hb]
          exact h.slot q.writePoint b
      · rw [Function.update_of_ne hj]
        exact h.slot j b
    idle := fun hnone => nomatch hnone
    storing := fun w left' hstoring' => by
      obtain ⟨rfl, rfl⟩ := Prod.mk.inj (Option.some.inj hstoring')
      refine ⟨hposting, hcopying.last, hcopying.length_eq,
        fun _ hb => hcopying.subset (List.mem_of_mem_erase hb), fun b hb hnot => ?_⟩
      dsimp only
      rw [Function.update_self]
      obtain rfl | hne := eq_or_ne b c
      · exact Function.update_self ..
      · rw [Function.update_of_ne hne]
        exact hcopying.copied b hb fun hleft => hnot ((List.mem_erase_of_ne hne).mpr hleft) }

theorem Sound.putDone (h : Sound E n init P q) (hn : 0 < n) (hput : q.putDone n = some t) :
    Sound E n init P t := by
  obtain ⟨v, hstoring, rfl⟩ := putDone_eq_some hput
  obtain ⟨hposting, hcopying⟩ := h.storing v [] hstoring
  have hcounted := h.counted
  rw [hposting] at hcounted
  exact { h with
    writePoint_eq := by
      dsimp only
      rw [h.writePoint_eq, CircularBuffer.advance_eq_mod (Nat.mod_lt _ hn), Nat.mod_add_mod]
    counted := by
      simp only [Bool.toNat_true, Bool.toNat_false] at hcounted ⊢
      omega
    slot := fun j c => by
      by_cases hcell : j = q.writePoint ∧ c ∈ E.cells v
      · -- a cell of the value now finished
        obtain ⟨rfl, hc⟩ := hcell
        dsimp only
        rw [hcopying.copied c hc List.not_mem_nil]
        exact source_of_stored hcopying.last h.writePoint_eq.symm hc le_rfl
      · -- no cell of the value now finished
        refine (h.slot j c).succ fun w hw hj hc => hcell ?_
        obtain rfl := Option.some.inj (hw.symm.trans hcopying.last)
        exact ⟨hj.symm.trans h.writePoint_eq.symm, hc⟩
    idle := fun _ => hcopying.length_eq
    storing := fun _ _ hnone => nomatch hnone
    loading := fun left hloading =>
      have ⟨⟨htaking, hle⟩, hcopied⟩ := h.loading left hloading
      ⟨⟨htaking, hle.trans (Nat.le_succ _)⟩, hcopied⟩ }

theorem Sound.post (h : Sound E n init P q) (hpost : q.post = some t) : Sound E n init P t := by
  obtain ⟨hposting, rfl⟩ := post_eq_some hpost
  have hcounted := h.counted
  rw [hposting] at hcounted
  exact { h with
    counted := by
      simp only [Bool.toNat_true, Bool.toNat_false] at hcounted ⊢
      omega
    storing := fun w left hstoring =>
      absurd (hposting.symm.trans (h.storing w left hstoring).1) Bool.noConfusion }

theorem Sound.wait (h : Sound E n init P q) (hwait : q.wait = some t) : Sound E n init P t := by
  obtain ⟨⟨htaking, hpos⟩, rfl⟩ := wait_eq_some hwait
  have hcounted := h.counted
  rw [htaking] at hcounted
  exact { h with
    counted := by
      simp only [Bool.toNat_true, Bool.toNat_false] at hcounted ⊢
      omega
    loading := fun left hloading =>
      absurd (htaking.symm.trans (h.loading left hloading).1.1) Bool.noConfusion }

theorem Sound.take (h : Sound E n init P q) (hn : 0 < n) (htake : q.take E = some t) :
    Sound E n init P t := by
  obtain ⟨⟨htaking, -⟩, rfl⟩ := take_eq_some htake
  have hlt : q.taken.length < q.finished := by
    have hcounted := h.counted
    rw [htaking, Bool.toNat_true] at hcounted
    omega
  exact { h with
    loading := fun left hloading => by
      obtain rfl := Option.some.inj hloading
      refine ⟨⟨htaking, le_rfl⟩, hlt, ⟨_, rfl⟩, fun c hc hnot => absurd hc hnot,
        fun halone => ?_⟩
      -- nothing is being copied to the slot, so it tells the cells of the newest value
      have hnewest : newest n q.taken.length q.finished < q.stored.length :=
        (newest_lt hlt).trans_le h.finished_le
      refine ⟨_, List.getElem?_eq_getElem hnewest, E.cells_congr fun c hc => ?_⟩
      rw [h.readPoint_eq]
      exact (h.slot _ c).eq_newest hn halone rfl hlt (List.getElem?_eq_getElem hnewest) hc }

theorem Sound.takeCell [DecidableEq ι] (h : Sound E n init P q) (htake : q.takeCell c = some t) :
    Sound E n init P t := by
  obtain ⟨left, hloading, -, rfl⟩ := takeCell_eq_some htake
  obtain ⟨⟨htaking, hle⟩, hlt, hextent, hcopied, hwhole⟩ := h.loading left hloading
  exact { h with
    loading := fun left' hloading' => by
      obtain rfl := Option.some.inj hloading'
      refine ⟨⟨htaking, hle⟩, hlt, hextent, fun b hb hnot => ?_, hwhole⟩
      dsimp only
      obtain rfl | hne := eq_or_ne b c
      · -- more values may be stored in full by now than when the copy began
        rw [Function.update_self, h.readPoint_eq]
        exact (h.slot _ b).mono hle
      · rw [Function.update_of_ne hne]
        exact hcopied b hb fun hleft => hnot ((List.mem_erase_of_ne hne).mpr hleft) }

theorem Sound.takeDone (h : Sound E n init P q) (hn : 0 < n) (htake : q.takeDone n = some t) :
    Sound E n init P t := by
  obtain ⟨hloading, rfl⟩ := takeDone_eq_some htake
  have hcounted := h.counted
  rw [(h.loading [] hloading).1.1] at hcounted
  exact { h with
    readPoint_eq := by
      dsimp only
      rw [h.readPoint_eq, CircularBuffer.advance_eq_mod (Nat.mod_lt _ hn), Nat.mod_add_mod,
        List.length_append, List.length_singleton]
    counted := by
      simp only [Bool.toNat_true, Bool.toNat_false, List.length_append,
        List.length_singleton] at hcounted ⊢
      omega
    loading := fun _ hnone => nomatch hnone }

/-- **What a take returns.** When the consumer began its copy the slot held a newest value in
full. Of the cells copied, every one is that of a value that came to the slot, of this value
or a later one if it has the cell; and if no copy into the slot has overlapped, they are the
cells of this value, with what it has there. -/
theorem Sound.taken (h : Sound E n init P q) (hn : 0 < n) (htake : q.takeDone n = some t) :
    t.taken = q.taken ++ [q.dest] ∧
      ∃ v, q.stored[newest n q.taken.length q.begun]? = some v ∧
        (∀ c ∈ q.extent,
          Source E n init q.stored q.begun (q.taken.length % n) c (q.dest c) ∧
            (c ∈ E.cells v → ∃ k w, q.stored[k]? = some w ∧ k % n = q.taken.length % n ∧
              newest n q.taken.length q.begun ≤ k ∧ q.dest c = w c)) ∧
        (Alone n q.stored q.begun (q.taken.length % n) →
          q.extent = E.cells v ∧ ∀ c ∈ E.cells v, q.dest c = v c) := by
  obtain ⟨hloading, rfl⟩ := takeDone_eq_some htake
  obtain ⟨⟨-, hle⟩, hlt, -, hcopied, hwhole⟩ := h.loading [] hloading
  have hnewest : newest n q.taken.length q.begun < q.stored.length :=
    (newest_lt hlt).trans_le (hle.trans h.finished_le)
  refine ⟨rfl, _, List.getElem?_eq_getElem hnewest, fun c hc => ?_, fun halone => ?_⟩
  · have hsource := hcopied c hc List.not_mem_nil
    exact ⟨hsource, hsource.exists_newest_le rfl hlt (List.getElem?_eq_getElem hnewest)⟩
  · obtain ⟨v, hv, hextent⟩ := hwhole halone
    obtain rfl := Option.some.inj (hv.symm.trans (List.getElem?_eq_getElem hnewest))
    refine ⟨hextent, fun c hc => ?_⟩
    exact (hcopied c (hextent ▸ hc) List.not_mem_nil).eq_newest hn halone rfl hlt hv hc

/-- The cells copied are those of what the slot held at the beginning. -/
theorem Sound.extent_eq (h : Sound E n init P q) (htake : q.takeDone n = some t) :
    ∃ slot, q.extent = E.cells slot :=
  (h.loading [] (takeDone_eq_some htake).1).2.extent_eq

/-- With at most `n` values waiting no copy overlaps, and the newest value is the one whose turn
it is. -/
theorem Sound.alone (h : Sound E n init P q) (htake : q.takeDone n = some t)
    (hfew : q.stored.length ≤ q.taken.length + n) :
    Alone n q.stored q.begun (q.taken.length % n) ∧
      newest n q.taken.length q.begun = q.taken.length := by
  obtain ⟨⟨-, hle⟩, hcopying⟩ := h.loading [] (takeDone_eq_some htake).1
  exact ⟨alone_of_length_le hfew hcopying.lt,
    newest_eq_self (hle.trans (h.finished_le.trans hfew))⟩

end Sound

end CopyQueue

end CS
