import Mathlib.Data.List.Chain
import Mathlib.Data.List.TakeWhile
import Mathlib.Order.Lattice
import Mathlib.Tactic.SplitIfs

/-!
# Waiting for one entry of a timed queue

A queue is the list of what is in it and what will still come, each entry with the time
from which it can be read. `await` is a wait for an entry that satisfies `p`: it reads one
entry after the other and gives up at a deadline. A wrong entry replaces the deadline by
a fresh one, `retry` after the time the entry is read. `attempts` starts a new wait after
every one that gave up.

## Main results

* `read_await`, `matched_await`, `not_matched_await`: which entries a wait reads
* `matched_await_iff`: a wait succeeds if and only if no entry up to the first right one is
  more than `retry` later than the one before it
* `last_attempt`, `read_attempts_of_matched`, `read_attempts_of_not_matched`: which
  entries a series of waits reads
-/

namespace CS.TimedQueue

variable {α : Type*}

/-! ### Queues -/

/-- The entries are in the order of their times. -/
def InOrder (l : List (ℕ × α)) : Prop := l.Pairwise fun a b => a.1 ≤ b.1

/-- Whoever reads from `now` on, each entry as soon as it is there, never finds `n` entries
at a time up to `stop`. -/
def Room (n stop now : ℕ) (l : List (ℕ × α)) : Prop :=
  ∀ time ≤ stop, (l.filter fun q => max now q.1 = time).length < n

instance (l : List (ℕ × α)) : Decidable (InOrder l) :=
  inferInstanceAs (Decidable (l.Pairwise _))

instance (n stop now : ℕ) (l : List (ℕ × α)) : Decidable (Room n stop now l) :=
  decidable_of_iff (∀ time < stop + 1, (l.filter fun q => max now q.1 = time).length < n)
    (by simp only [Room, Nat.lt_succ_iff])

/-- The entries up to the first that satisfies `p`, and that one. -/
def upTo (p : α → Prop) [DecidablePred p] : List (ℕ × α) → List (ℕ × α)
  | [] => []
  | q :: rest => if p q.2 then [q] else q :: upTo p rest

variable {n stop now now' : ℕ} {l l' : List (ℕ × α)} {p : α → Prop} [DecidablePred p]

theorem upTo_isPrefix (p : α → Prop) [DecidablePred p] (l : List (ℕ × α)) : upTo p l <+: l := by
  induction l with
  | nil => exact List.prefix_rfl
  | cons q rest ih =>
    rw [upTo]
    split_ifs
    · exact List.prefix_append [q] rest
    · exact List.cons_prefix_cons.mpr ⟨rfl, ih⟩

theorem head?_upTo (p : α → Prop) [DecidablePred p] (l : List (ℕ × α)) :
    (upTo p l).head? = l.head? := by
  cases l with
  | nil => rfl
  | cons q rest =>
    rw [upTo]
    split_ifs <;> rfl

theorem room_of_length_lt (h : l.length < n) : Room n stop now l :=
  fun _ _ => (List.length_filter_le _ l).trans_lt h

/-- What is left later has room, if no entry is there earlier than it was. -/
theorem Room.later (h : Room n stop now l) (hsub : l'.Sublist l)
    (hsame : ∀ q ∈ l', max now' q.1 = max now q.1) : Room n stop now' l' := by
  intro time htime
  have hfilter : (l'.filter fun q => max now' q.1 = time) =
      l'.filter fun q => max now q.1 = time :=
    List.filter_congr fun q hq => by rw [hsame q hq]
  rw [hfilter]
  exact (hsub.filter _).length_le.trans_lt (h time htime)

/-- The entries found at the start. -/
theorem Room.length_takeWhile (h : Room n stop now l) (hstop : now ≤ stop) :
    (l.takeWhile fun q => q.1 ≤ now).length < n := by
  refine lt_of_le_of_lt ?_ (h now hstop)
  -- they are found at `now`, all of them
  have hall : (l.takeWhile fun q => q.1 ≤ now).filter (fun q => max now q.1 = now) =
      l.takeWhile fun q => q.1 ≤ now := by
    refine List.filter_eq_self.mpr fun q hq => ?_
    simpa using List.mem_takeWhile_imp hq
  rw [← hall]
  exact ((List.takeWhile_sublist _).filter _).length_le

/-- The wait for the head of the queue makes no other entry wait. -/
theorem max_max_of_inOrder {q : ℕ × α} (h : InOrder (q :: l)) :
    ∀ r ∈ l, max (max now q.1) r.1 = max now r.1 := by
  intro r hr
  have hle : q.1 ≤ r.1 := (List.pairwise_cons.mp h).1 r hr
  rw [max_assoc, max_eq_right hle]

/-- The head of the queue is the first to come. -/
theorem InOrder.head_le {r : ℕ × α} (h : InOrder l) (hr : r ∈ l) : ∀ q ∈ l.head?, q.1 ≤ r.1 := by
  intro q hq
  obtain ⟨rest, rfl⟩ := List.head?_eq_some_iff.mp hq
  rcases List.mem_cons.mp hr with rfl | hrest
  · exact le_rfl
  · exact (List.pairwise_cons.mp h).1 r hrest

/-- Time passes until some moment before the first entry. -/
theorem max_eq_max_of_head {later : ℕ} (h : InOrder l) (hle : now ≤ later)
    (hhead : ∀ q ∈ l.head?, later < q.1) : ∀ r ∈ l, max later r.1 = max now r.1 := by
  intro r hr
  obtain ⟨q, rest, rfl⟩ := List.exists_cons_of_ne_nil (List.ne_nil_of_mem hr)
  have hlater : later ≤ r.1 := (hhead q rfl).le.trans (h.head_le hr q rfl)
  rw [max_eq_right hlater, max_eq_right (hle.trans hlater)]

/-! ### One wait -/

/-- How a wait ended. -/
structure Wait (α : Type*) where
  /-- A right entry was read; otherwise the wait timed out. -/
  matched : Bool
  /-- The entries read, in order. -/
  read : List (ℕ × α)
  now : ℕ
  /-- The queue afterwards. -/
  rest : List (ℕ × α)
  deriving DecidableEq

variable {retry timeOut : ℕ}

/-- Wait from `now` on, at first for `timeOut` and after each wrong entry for `retry`. -/
def await (p : α → Prop) [DecidablePred p] (retry : ℕ) : ℕ → ℕ → List (ℕ × α) → Wait α
  | timeOut, now, [] => ⟨false, [], now + timeOut, []⟩
  | timeOut, now, q :: rest =>
    if q.1 ≤ now + timeOut then
      if p q.2 then ⟨true, [q], max now q.1, rest⟩
      else
        let w := await p retry retry (max now q.1) rest
        { w with read := q :: w.read }
    else ⟨false, [], now + timeOut, q :: rest⟩

theorem await_of_match {q : ℕ × α} (hdue : q.1 ≤ now + timeOut) (hq : p q.2) :
    await p retry timeOut now (q :: l) = ⟨true, [q], max now q.1, l⟩ := by
  rw [await, if_pos hdue, if_pos hq]

theorem await_of_mismatch {q : ℕ × α} (hdue : q.1 ≤ now + timeOut) (hq : ¬ p q.2) :
    await p retry timeOut now (q :: l) =
      { await p retry retry (max now q.1) l with
        read := q :: (await p retry retry (max now q.1) l).read } := by
  rw [await, if_pos hdue, if_neg hq]

/-- The next entry comes too late, or none does. -/
theorem await_of_late (hlate : ∀ q ∈ l.head?, now + timeOut < q.1) :
    await p retry timeOut now l = ⟨false, [], now + timeOut, l⟩ := by
  cases l with
  | nil => rw [await]
  | cons q rest => rw [await, if_neg (not_le.mpr (hlate q rfl))]

/-- Induction along a wait: the next entry is late, right, or wrong. -/
theorem await_induction {motive : ℕ → ℕ → List (ℕ × α) → Prop} (p : α → Prop) (retry : ℕ)
    (late : ∀ timeOut now l, (∀ q ∈ l.head?, now + timeOut < q.1) → motive timeOut now l)
    (right : ∀ timeOut now q rest, q.1 ≤ now + timeOut → p q.2 → motive timeOut now (q :: rest))
    (wrong : ∀ timeOut now q rest, q.1 ≤ now + timeOut → ¬ p q.2 →
      motive retry (max now q.1) rest → motive timeOut now (q :: rest))
    (timeOut now : ℕ) (l : List (ℕ × α)) : motive timeOut now l := by
  induction l generalizing timeOut now with
  | nil => exact late timeOut now [] fun q hq => nomatch hq
  | cons q rest ih =>
    by_cases hdue : q.1 ≤ now + timeOut
    · by_cases hq : p q.2
      · exact right timeOut now q rest hdue hq
      · exact wrong timeOut now q rest hdue hq (ih retry (max now q.1))
    · refine late timeOut now (q :: rest) fun r hr => ?_
      obtain rfl := Option.some.inj hr
      exact not_le.mp hdue

/-- A wait reads the front of the queue. -/
theorem read_await (timeOut now : ℕ) (l : List (ℕ × α)) :
    (await p retry timeOut now l).read ++ (await p retry timeOut now l).rest = l := by
  induction timeOut, now, l using await_induction p retry with
  | late timeOut now l hlate => rw [await_of_late hlate, List.nil_append]
  | right timeOut now q rest hdue hq => rw [await_of_match hdue hq, List.singleton_append]
  | wrong timeOut now q rest hdue hq ih => rw [await_of_mismatch hdue hq, List.cons_append, ih]

theorem rest_await_isSuffix (timeOut now : ℕ) (l : List (ℕ × α)) :
    (await p retry timeOut now l).rest <:+ l := ⟨_, read_await timeOut now l⟩

/-- A wait that succeeds reads wrong entries and then a right one. -/
theorem matched_await (h : (await p retry timeOut now l).matched = true) :
    ∃ skipped q, (await p retry timeOut now l).read = skipped ++ [q] ∧ p q.2 ∧
      ∀ r ∈ skipped, ¬ p r.2 := by
  induction timeOut, now, l using await_induction p retry with
  | late timeOut now l hlate =>
    rw [await_of_late hlate] at h
    cases h
  | right timeOut now q rest hdue hq =>
    rw [await_of_match hdue hq]
    exact ⟨[], q, rfl, hq, fun r hr => absurd hr List.not_mem_nil⟩
  | wrong timeOut now q rest hdue hq ih =>
    rw [await_of_mismatch hdue hq] at h ⊢
    obtain ⟨skipped, q', hread, hq', hskipped⟩ := ih h
    refine ⟨q :: skipped, q', ?_, hq', List.forall_mem_cons.mpr ⟨hq, hskipped⟩⟩
    dsimp only
    rw [hread, List.cons_append]

/-- A wait that gives up reads wrong entries only, and the next one comes later. -/
theorem not_matched_await (h : (await p retry timeOut now l).matched = false) :
    (∀ r ∈ (await p retry timeOut now l).read, ¬ p r.2) ∧
      ∀ q ∈ (await p retry timeOut now l).rest.head?, (await p retry timeOut now l).now < q.1 := by
  induction timeOut, now, l using await_induction p retry with
  | late timeOut now l hlate =>
    rw [await_of_late hlate]
    exact ⟨fun r hr => absurd hr List.not_mem_nil, hlate⟩
  | right timeOut now q rest hdue hq =>
    rw [await_of_match hdue hq] at h
    cases h
  | wrong timeOut now q rest hdue hq ih =>
    rw [await_of_mismatch hdue hq] at h ⊢
    obtain ⟨hread, hrest⟩ := ih h
    exact ⟨List.forall_mem_cons.mpr ⟨hq, hread⟩, hrest⟩

/-- A wait ends at its start or later, and what it leaves in the queue is there no earlier
than before. -/
theorem max_now_await (timeOut now : ℕ) (h : InOrder l) :
    ∀ r ∈ (await p retry timeOut now l).rest,
      max (await p retry timeOut now l).now r.1 = max now r.1 := by
  induction timeOut, now, l using await_induction p retry with
  | late timeOut now l hlate =>
    rw [await_of_late hlate]
    exact max_eq_max_of_head h (Nat.le_add_right now timeOut) hlate
  | right timeOut now q rest hdue hq =>
    rw [await_of_match hdue hq]
    exact max_max_of_inOrder h
  | wrong timeOut now q rest hdue hq ih =>
    rw [await_of_mismatch hdue hq]
    intro r hr
    have hmem : r ∈ rest := (rest_await_isSuffix retry (max now q.1) rest).subset hr
    exact (ih (List.pairwise_cons.mp h).2 r hr).trans (max_max_of_inOrder h r hmem)

/-- **When a wait succeeds**, given that a right entry comes: no entry up to the first
right one comes more than `retry` after the one before it is read, and the first of all
within `timeOut`. -/
theorem matched_await_iff (h : InOrder l) (hp : ∃ q ∈ l, p q.2) :
    (await p retry timeOut now l).matched = true ↔
      (∀ q ∈ l.head?, q.1 ≤ now + timeOut) ∧
        (upTo p l).IsChain fun a b => b.1 ≤ max now a.1 + retry := by
  induction timeOut, now, l using await_induction p retry with
  | late timeOut now l hlate =>
    rw [await_of_late hlate]
    refine iff_of_false Bool.false_ne_true fun hdue => ?_
    obtain ⟨q, hq, -⟩ := hp
    obtain ⟨q, rest, rfl⟩ := List.exists_cons_of_ne_nil (List.ne_nil_of_mem hq)
    exact absurd (hdue.1 q rfl) (not_le.mpr (hlate q rfl))
  | right timeOut now q rest hdue hq =>
    rw [await_of_match hdue hq, upTo, if_pos hq]
    refine iff_of_true rfl ⟨fun r hr => ?_, List.isChain_singleton _⟩
    obtain rfl := Option.some.inj hr
    exact hdue
  | wrong timeOut now q rest hdue hq ih =>
    obtain ⟨r, hr, hpr⟩ := hp
    have hmem : r ∈ rest := (List.mem_cons.mp hr).resolve_left fun heq => hq (heq ▸ hpr)
    -- the chain does not notice the time spent on `q`
    have hchain : ((upTo p rest).IsChain fun a b => b.1 ≤ max (max now q.1) a.1 + retry) ↔
        (upTo p rest).IsChain fun a b => b.1 ≤ max now a.1 + retry := by
      refine List.IsChain.iff_of_mem_imp fun a b ha _ => ?_
      rw [max_max_of_inOrder h a ((upTo_isPrefix p rest).subset ha)]
    rw [await_of_mismatch hdue hq, upTo, if_neg hq, List.isChain_cons, head?_upTo, ← hchain,
      ih (List.pairwise_cons.mp h).2 ⟨r, hmem, hpr⟩]
    refine ⟨fun hright => ⟨fun r hr => ?_, hright⟩, fun hright => hright.2⟩
    obtain rfl := Option.some.inj hr
    exact hdue

/-! ### Several waits -/

/-- Wait `timeOut` again and again, at most so many times, until a wait succeeds. -/
def attempts (p : α → Prop) [DecidablePred p] (retry timeOut : ℕ) :
    ℕ → ℕ → List (ℕ × α) → List (Wait α)
  | 0, _, _ => []
  | left + 1, now, l =>
    let w := await p retry timeOut now l
    if w.matched then [w] else w :: attempts p retry timeOut left w.now w.rest

variable {left : ℕ}

theorem attempts_of_matched (h : (await p retry timeOut now l).matched = true) :
    attempts p retry timeOut (left + 1) now l = [await p retry timeOut now l] := by
  rw [attempts]
  exact if_pos h

theorem attempts_of_not_matched (h : (await p retry timeOut now l).matched = false) :
    attempts p retry timeOut (left + 1) now l =
      await p retry timeOut now l :: attempts p retry timeOut left
        (await p retry timeOut now l).now (await p retry timeOut now l).rest := by
  rw [attempts]
  exact if_neg (by simp [h])

/-- Each attempt is a wait. -/
theorem exists_await_of_mem_attempts {w : Wait α}
    (h : w ∈ attempts p retry timeOut left now l) : ∃ now l, w = await p retry timeOut now l := by
  induction left generalizing now l with
  | zero => exact absurd h List.not_mem_nil
  | succ left ih =>
    cases hmatched : (await p retry timeOut now l).matched with
    | true =>
      rw [attempts_of_matched hmatched] at h
      exact ⟨now, l, List.mem_singleton.mp h⟩
    | false =>
      rw [attempts_of_not_matched hmatched] at h
      rcases List.mem_cons.mp h with hfirst | hlater
      · exact ⟨now, l, hfirst⟩
      · exact ih hlater

theorem matched_of_mem_attempts {w : Wait α} (hw : w ∈ attempts p retry timeOut left now l)
    (h : w.matched = true) :
    ∃ skipped q, w.read = skipped ++ [q] ∧ p q.2 ∧ ∀ r ∈ skipped, ¬ p r.2 := by
  obtain ⟨now, l, rfl⟩ := exists_await_of_mem_attempts hw
  exact matched_await h

theorem not_matched_of_mem_attempts {w : Wait α} (hw : w ∈ attempts p retry timeOut left now l)
    (h : w.matched = false) : (∀ r ∈ w.read, ¬ p r.2) ∧ ∀ q ∈ w.rest.head?, w.now < q.1 := by
  obtain ⟨now, l, rfl⟩ := exists_await_of_mem_attempts hw
  exact not_matched_await h

theorem length_attempts_bounds (p : α → Prop) [DecidablePred p] (retry timeOut left now : ℕ)
    (l : List (ℕ × α)) : 1 ≤ (attempts p retry timeOut (left + 1) now l).length ∧
      (attempts p retry timeOut (left + 1) now l).length ≤ left + 1 := by
  induction left generalizing now l with
  | zero =>
    rw [attempts]
    split_ifs <;> exact ⟨le_rfl, le_rfl⟩
  | succ left ih =>
    rw [attempts]
    split_ifs
    · exact ⟨le_rfl, Nat.le_add_left 1 _⟩
    · exact ⟨Nat.le_add_left 1 _, Nat.succ_le_succ (ih ..).2⟩

/-- Only the last attempt can succeed, and all together read the front of the queue. -/
theorem last_attempt (p : α → Prop) [DecidablePred p] (retry timeOut left now : ℕ)
    (l : List (ℕ × α)) :
    let waits := attempts p retry timeOut (left + 1) now l
    ∃ w, waits.getLast? = some w ∧ w.matched = waits.any Wait.matched ∧
      waits.flatMap Wait.read ++ w.rest = l := by
  induction left generalizing now l with
  | zero =>
    have hone : attempts p retry timeOut (0 + 1) now l = [await p retry timeOut now l] := by
      rw [attempts, attempts]
      exact ite_self _
    rw [hone]
    refine ⟨await p retry timeOut now l, rfl, (Bool.or_false _).symm, ?_⟩
    rw [List.flatMap_singleton, read_await]
  | succ left ih =>
    cases hmatched : (await p retry timeOut now l).matched with
    | true =>
      rw [attempts_of_matched hmatched]
      refine ⟨await p retry timeOut now l, rfl, (Bool.or_false _).symm, ?_⟩
      rw [List.flatMap_singleton, read_await]
    | false =>
      obtain ⟨w, hlast, hany, hread⟩ :=
        ih (await p retry timeOut now l).now (await p retry timeOut now l).rest
      rw [attempts_of_not_matched hmatched]
      refine ⟨w, ?_, ?_, ?_⟩
      · rw [List.getLast?_cons, hlast, Option.getD_some]
      · rw [List.any_cons, hmatched, Bool.false_or, hany]
      · rw [List.flatMap_cons, List.append_assoc, hread, read_await]

/-- **A series of attempts that succeeds** reads wrong entries and then a right one. -/
theorem read_attempts_of_matched (h : (attempts p retry timeOut left now l).any Wait.matched) :
    ∃ skipped q, (attempts p retry timeOut left now l).flatMap Wait.read = skipped ++ [q] ∧
      p q.2 ∧ ∀ r ∈ skipped, ¬ p r.2 := by
  induction left generalizing now l with
  | zero => cases h
  | succ left ih =>
    cases hmatched : (await p retry timeOut now l).matched with
    | true =>
      rw [attempts_of_matched hmatched, List.flatMap_singleton]
      exact matched_await hmatched
    | false =>
      rw [attempts_of_not_matched hmatched] at h ⊢
      rw [List.any_cons, hmatched, Bool.false_or] at h
      obtain ⟨skipped, q, hread, hq, hskipped⟩ := ih h
      refine ⟨(await p retry timeOut now l).read ++ skipped, q, ?_, hq, ?_⟩
      · rw [List.flatMap_cons, hread, List.append_assoc]
      · exact List.forall_mem_append.mpr ⟨(not_matched_await hmatched).1, hskipped⟩

/-- **A series of attempts that gives up** has made them all, and reads wrong entries
only. -/
theorem read_attempts_of_not_matched
    (h : (attempts p retry timeOut left now l).any Wait.matched = false) :
    (attempts p retry timeOut left now l).length = left ∧
      ∀ r ∈ (attempts p retry timeOut left now l).flatMap Wait.read, ¬ p r.2 := by
  induction left generalizing now l with
  | zero => exact ⟨rfl, fun r hr => absurd hr List.not_mem_nil⟩
  | succ left ih =>
    have hmatched : (await p retry timeOut now l).matched = false := by
      by_contra hne
      have htrue := eq_true_of_ne_false hne
      rw [attempts_of_matched htrue, List.any_cons, htrue] at h
      cases h
    rw [attempts_of_not_matched hmatched] at h ⊢
    rw [List.any_cons, hmatched, Bool.false_or] at h
    obtain ⟨hlength, hread⟩ := ih h
    refine ⟨congrArg Nat.succ hlength, ?_⟩
    rw [List.flatMap_cons]
    exact List.forall_mem_append.mpr ⟨(not_matched_await hmatched).1, hread⟩

end CS.TimedQueue
