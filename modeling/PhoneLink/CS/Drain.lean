import PhoneLink.CS.SemQueue

/-!
# A queue that is emptied

A value stored asks for a post, a wait and a take, and then for something to be done with it.
The semaphore and the two half-done steps count the values that have been stored and not yet
taken, with or without room in the buffer. So if none of the three steps is enabled, there is
nothing left in the queue.

## Main definitions

* `SemQueue.Counted`: the values stored are those taken and those counted
* `SemQueue.Quiet`: no step but a store is enabled
* `SemQueue.work`: how many steps the values counted ask for

## Main results

* `Counted.put`, `Counted.post`, `Counted.wait`, `Counted.take`: every operation keeps it
* `Counted.backlog_eq_zero_iff`: a queue without a backlog is a quiet one
* `work_put`, `work_post`, `work_wait`, `work_take`: what every operation does to the work
-/

namespace CS.SemQueue

variable {α β : Type*} {n : ℕ} {view : α → β} {s t : SemQueue α β}

/-- Each value stored has been taken or is counted: by the semaphore, or by a step half done. -/
def Counted (s : SemQueue α β) : Prop :=
  s.taken.length + (s.sem + s.posting.toNat + s.taking.toNat) = s.stored.length

theorem counted_start (b : CircularBuffer α) : (start b : SemQueue α β).Counted := rfl

theorem Counted.put {f : α → α} {x : β} (h : s.Counted) (hput : s.put n f x = some t) :
    t.Counted := by
  obtain ⟨hposting, rfl⟩ := put_eq_some.mp hput
  unfold Counted at h ⊢
  rw [hposting] at h
  simp only [List.length_append, List.length_singleton, Bool.toNat_true, Bool.toNat_false] at h ⊢
  omega

theorem Counted.post (h : s.Counted) (hpost : s.post = some t) : t.Counted := by
  obtain ⟨hposting, rfl⟩ := post_eq_some.mp hpost
  unfold Counted at h ⊢
  rw [hposting] at h
  simp only [Bool.toNat_true, Bool.toNat_false] at h ⊢
  omega

theorem Counted.wait (h : s.Counted) (hwait : s.wait = some t) : t.Counted := by
  obtain ⟨⟨htaking, hpos⟩, rfl⟩ := wait_eq_some.mp hwait
  unfold Counted at h ⊢
  rw [htaking] at h
  simp only [Bool.toNat_true, Bool.toNat_false] at h ⊢
  omega

theorem Counted.take (h : s.Counted) (htake : s.take n view = some t) : t.Counted := by
  obtain ⟨htaking, rfl⟩ := take_eq_some.mp htake
  unfold Counted at h ⊢
  rw [htaking] at h
  simp only [List.length_append, List.length_singleton, Bool.toNat_true, Bool.toNat_false] at h ⊢
  omega

/-- Nothing is under way, and nothing is to be waited for. -/
structure Quiet (s : SemQueue α β) : Prop where
  posting_eq : s.posting = false
  sem_eq : s.sem = 0
  taking_eq : s.taking = false

theorem Quiet.post_eq (h : s.Quiet) : s.post = none := by simp [SemQueue.post, h.posting_eq]

theorem Quiet.wait_eq (h : s.Quiet) : s.wait = none := by simp [SemQueue.wait, h.sem_eq]

theorem Quiet.take_eq (h : s.Quiet) : s.take n view = none := by simp [SemQueue.take, h.taking_eq]

/-- If a queue is not quiet one of the three steps can be made. -/
theorem quiet_of_blocked (hpost : s.post = none) (hwait : s.wait = none)
    (htake : s.take n view = none) : s.Quiet := by
  have htaking : s.taking = false := by
    by_contra h
    simp [SemQueue.take, h] at htake
  refine ⟨?_, ?_, htaking⟩
  · by_contra h
    simp [SemQueue.post, h] at hpost
  · by_contra h
    simp [SemQueue.wait, h, htaking] at hwait

theorem Counted.backlog_eq_zero_iff (h : s.Counted) : s.backlog = 0 ↔ s.Quiet := by
  unfold Counted at h
  unfold backlog
  constructor
  · intro hzero
    have hnone : s.sem + s.posting.toNat + s.taking.toNat = 0 := by omega
    refine ⟨?_, by omega, ?_⟩
    · cases hposting : s.posting with
      | false => rfl
      | true => simp [hposting] at hnone
    · cases htaking : s.taking with
      | false => rfl
      | true => simp [htaking] at hnone
  · rintro ⟨hposting, hsem, htaking⟩
    rw [hposting, hsem, htaking] at h
    simp only [Bool.toNat_false] at h
    omega

theorem Counted.length_taken (h : s.Counted) (hbacklog : s.backlog = 0) :
    s.taken.length = s.stored.length := by
  unfold Counted at h
  unfold backlog at hbacklog
  omega

/-- The steps that the values counted ask for, with one for what is done with each. -/
def work (s : SemQueue α β) : ℕ := 4 * s.posting.toNat + 3 * s.sem + 2 * s.taking.toNat

theorem work_put {f : α → α} {x : β} (hput : s.put n f x = some t) : t.work = s.work + 4 := by
  obtain ⟨hposting, rfl⟩ := put_eq_some.mp hput
  simp only [work, hposting, Bool.toNat_true, Bool.toNat_false]
  omega

theorem work_post (hpost : s.post = some t) : t.work + 1 = s.work := by
  obtain ⟨hposting, rfl⟩ := post_eq_some.mp hpost
  simp only [work, hposting, Bool.toNat_true, Bool.toNat_false]
  omega

theorem work_wait (hwait : s.wait = some t) : t.work + 1 = s.work := by
  obtain ⟨⟨htaking, hpos⟩, rfl⟩ := wait_eq_some.mp hwait
  simp only [work, htaking, Bool.toNat_true, Bool.toNat_false]
  omega

theorem work_take (htake : s.take n view = some t) : t.work + 2 = s.work := by
  obtain ⟨htaking, rfl⟩ := take_eq_some.mp htake
  simp only [work, htaking, Bool.toNat_true, Bool.toNat_false]

end CS.SemQueue
