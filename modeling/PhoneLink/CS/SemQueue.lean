import PhoneLink.CS.CircularBuffer

/-!
# A circular buffer handed over by a counting semaphore

One producer stores a value in the buffer and then posts the semaphore; one
consumer waits on the semaphore and then takes the value at the read index. The
four halves are separate atomic steps, so the two sides interleave freely. The
producer never looks at the read index: nothing but the backlog keeps it from
overwriting what has not been taken yet.

`stored` and `taken` are history: they are written and never read by the steps.

## Main results

* `Fifo`: the taken values followed by the buffer's queue are the stored values,
  and the semaphore counts the queue
* `put_eq_some`, `post_eq_some`, `wait_eq_some`, `take_eq_some`: what each step does
* `Fifo.put`, `Fifo.post`, `Fifo.wait`, `Fifo.take`: each step keeps it, a store
  as long as the backlog is below capacity
* `Fifo.taken_isPrefix`: what has been taken is a prefix of what was stored
-/

namespace CS

/-- The buffer, its semaphore, and where the two sides stand. -/
structure SemQueue (α β : Type*) where
  buffer : CircularBuffer α
  sem : ℕ
  /-- The producer has stored and not yet posted. -/
  posting : Bool
  /-- The consumer's wait has succeeded and it has not yet taken. -/
  taking : Bool
  stored : List β
  taken : List β

namespace SemQueue

variable {α β : Type*} {n : ℕ} {view : α → β}

/-- An empty queue over the given buffer. -/
def start (b : CircularBuffer α) : SemQueue α β := ⟨b, 0, false, false, [], []⟩

/-- Store into the slot at the write index; `x` is the value stored. -/
def put (n : ℕ) (f : α → α) (x : β) (s : SemQueue α β) : Option (SemQueue α β) :=
  if s.posting then none
  else some { s with buffer := s.buffer.store n f, posting := true, stored := s.stored ++ [x] }

/-- Post the semaphore. -/
def post (s : SemQueue α β) : Option (SemQueue α β) :=
  if s.posting then some { s with sem := s.sem + 1, posting := false } else none

/-- The consumer's wait succeeds. -/
def wait (s : SemQueue α β) : Option (SemQueue α β) :=
  if s.taking ∨ s.sem = 0 then none else some { s with sem := s.sem - 1, taking := true }

/-- Read the slot at the read index and advance. -/
def take (n : ℕ) (view : α → β) (s : SemQueue α β) : Option (SemQueue α β) :=
  if s.taking then
    some { s with
      buffer := s.buffer.drop n
      taking := false
      taken := s.taken ++ [view s.buffer.front] }
  else none

/-- The number of values stored and not yet taken. -/
def backlog (s : SemQueue α β) : ℕ := s.stored.length - s.taken.length

/-- The values still to be taken are exactly those the buffer represents, in the
order of storing, and the semaphore counts them up to the half-done steps. -/
structure Holding (n : ℕ) (view : α → β) (s : SemQueue α β) (q : List β) : Prop where
  represents : s.buffer.Represents n view q
  stored_eq : s.stored = s.taken ++ q
  sem_eq : s.sem + s.posting.toNat + s.taking.toNat = q.length

/-- The queue is in order: it holds some list of values. -/
def Fifo (n : ℕ) (view : α → β) (s : SemQueue α β) : Prop := ∃ q, Holding n view s q

variable {s t : SemQueue α β} {q : List β}

theorem put_eq_some {f : α → α} {x : β} : s.put n f x = some t ↔ s.posting = false ∧
    t = { s with buffer := s.buffer.store n f, posting := true, stored := s.stored ++ [x] } := by
  unfold put
  cases s.posting <;> simp [eq_comm]

theorem post_eq_some : s.post = some t ↔
    s.posting = true ∧ t = { s with sem := s.sem + 1, posting := false } := by
  unfold post
  cases s.posting <;> simp [eq_comm]

theorem wait_eq_some : s.wait = some t ↔
    (s.taking = false ∧ 0 < s.sem) ∧ t = { s with sem := s.sem - 1, taking := true } := by
  unfold wait
  split_ifs with hblocked
  · refine iff_of_false (by simp) fun h => ?_
    rcases hblocked with htaking | hzero
    · simp [htaking] at h
    · omega
  · push Not at hblocked
    simp [hblocked.1, Nat.pos_of_ne_zero hblocked.2, eq_comm]

theorem take_eq_some : s.take n view = some t ↔ s.taking = true ∧
    t = { s with buffer := s.buffer.drop n, taking := false,
                 taken := s.taken ++ [view s.buffer.front] } := by
  unfold take
  cases s.taking <;> simp [eq_comm]

theorem Holding.backlog_eq (h : Holding n view s q) : s.backlog = q.length := by
  rw [backlog, h.stored_eq, List.length_append, Nat.add_sub_cancel_left]

theorem fifo_start {b : CircularBuffer α} (h : b.Represents n view []) :
    Fifo n view (start b) :=
  ⟨[], h, rfl, rfl⟩

/-- What has been taken is a prefix of what was stored. -/
theorem Fifo.taken_isPrefix (h : Fifo n view s) : s.taken <+: s.stored := by
  obtain ⟨q, hq⟩ := h
  exact ⟨q, hq.stored_eq.symm⟩

/-- Without a backlog all that was stored has been taken. -/
theorem Fifo.taken_eq_stored (h : Fifo n view s) (hbacklog : s.backlog = 0) :
    s.taken = s.stored := by
  obtain ⟨q, hq⟩ := h
  obtain rfl := List.eq_nil_of_length_eq_zero (hq.backlog_eq ▸ hbacklog)
  rw [hq.stored_eq, List.append_nil]

/-- Outside the half-done steps the semaphore is the backlog. -/
theorem Fifo.sem_eq_backlog (h : Fifo n view s) :
    s.sem + s.posting.toNat + s.taking.toNat = s.backlog := by
  obtain ⟨q, hq⟩ := h
  rw [hq.backlog_eq, hq.sem_eq]

theorem Fifo.put {f : α → α} {x : β} (h : Fifo n view s) (hspace : s.backlog < n)
    (hx : view (f (s.buffer.slots s.buffer.writePoint)) = x) (hput : s.put n f x = some t) :
    Fifo n view t := by
  obtain ⟨q, hq⟩ := h
  obtain ⟨hposting, rfl⟩ := put_eq_some.mp hput
  have hsem := hq.sem_eq
  refine ⟨q ++ [x], hq.represents.store (hq.backlog_eq ▸ hspace) hx, ?_, ?_⟩
  · rw [hq.stored_eq, List.append_assoc]
  · -- the value stored is counted by `posting` until it is posted
    simp [hposting] at hsem ⊢
    omega

theorem Fifo.post (h : Fifo n view s) (hpost : s.post = some t) : Fifo n view t := by
  obtain ⟨q, hq⟩ := h
  obtain ⟨hposting, rfl⟩ := post_eq_some.mp hpost
  have hsem := hq.sem_eq
  refine ⟨q, hq.represents, hq.stored_eq, ?_⟩
  simp [hposting] at hsem ⊢
  omega

theorem Fifo.wait (h : Fifo n view s) (hwait : s.wait = some t) : Fifo n view t := by
  obtain ⟨q, hq⟩ := h
  obtain ⟨⟨htaking, hpos⟩, rfl⟩ := wait_eq_some.mp hwait
  have hsem := hq.sem_eq
  refine ⟨q, hq.represents, hq.stored_eq, ?_⟩
  simp [htaking] at hsem ⊢
  omega

/-- A taker never finds the queue empty: its wait has reserved a value. -/
theorem Holding.exists_cons (h : Holding n view s q) (htaking : s.taking = true) :
    ∃ x rest, q = x :: rest := by
  have hsem := h.sem_eq
  refine List.exists_cons_of_length_pos ?_
  simp [htaking] at hsem
  omega

theorem Fifo.take (h : Fifo n view s) (htake : s.take n view = some t) : Fifo n view t := by
  obtain ⟨q, hq⟩ := h
  obtain ⟨htaking, rfl⟩ := take_eq_some.mp htake
  obtain ⟨x, rest, rfl⟩ := hq.exists_cons htaking
  have hsem := hq.sem_eq
  refine ⟨rest, hq.represents.drop, ?_, ?_⟩
  · -- the slot read holds the head of the queue
    rw [hq.stored_eq, hq.represents.front, List.append_assoc, List.singleton_append]
  · simp [htaking] at hsem ⊢
    omega

end SemQueue

end CS
