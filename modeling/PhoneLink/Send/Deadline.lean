import PhoneLink.CS.Signed
import Mathlib.Tactic

/-!
# Deadlines of the timed waits

`wait_dalink_ack_response` and `wait_bt_response` turn a time-out in milliseconds into
the absolute time `sem_timedwait` takes. They do so in 32-bit signed arithmetic: `int`
and the `long` fields of the time structures have that width. The two functions differ
in the semaphore they wait for.

## Main results

* `deadline_exact`: for a positive time-out nothing overflows, and both functions wait
  until exactly the time-out after the current time
-/

namespace PhoneLink.Deadline

open CS

/-- `struct timeval` as `gettimeofday` fills it in. -/
structure Timeval where
  tvSec : ℤ
  tvUsec : ℤ
  tvSec_fits : Signed.Fits 31 tvSec
  tvUsec_nonneg : 0 ≤ tvUsec
  tvUsec_lt : tvUsec < 1000000

/-- `struct timespec`. -/
structure Timespec where
  tvSec : ℤ
  tvNsec : ℤ
  deriving DecidableEq

/-- The semaphores that are waited for with a time-out. -/
inductive TimedSem where
  | dalinkAckSem
  | phoneStateFromBtWaitSem
  deriving DecidableEq

/-- The wait a function ends up in. -/
inductive SemWait where
  | semWait (sem : TimedSem)
  | semTimedwait (sem : TimedSem) (ts : Timespec)
  deriving DecidableEq

/-- The common body: how `sem` is waited for, the current time being `tt`. Nothing if the
arithmetic overflows. -/
def waitWithTimeOut (sem : TimedSem) (timeOut : ℤ) (tt : Timeval) : Option SemWait :=
  if timeOut = 0 then some (.semWait sem)
  else do
    let second ← Signed.div 31 timeOut 1000
    -- `time_out % 1000 * 1000 * 1000 + tt.tv_usec * 1000`, from the left
    let millis ← Signed.mod 31 timeOut 1000
    let micros ← Signed.mul 31 millis 1000
    let nanos ← Signed.mul 31 micros 1000
    let now ← Signed.mul 31 tt.tvUsec 1000
    let nsecond ← Signed.add 31 nanos now
    let tvSec ← Signed.add 31 tt.tvSec second
    if nsecond > 999999999 then do
      let tvNsec ← Signed.sub 31 nsecond 1000000000
      let tvSec ← Signed.add 31 tvSec 1
      return .semTimedwait sem ⟨tvSec, tvNsec⟩
    else return .semTimedwait sem ⟨tvSec, nsecond⟩

/-- The wait `wait_dalink_ack_response` ends up in. -/
def waitDalinkAckResponse (timeOut : ℤ) (tt : Timeval) : Option SemWait :=
  waitWithTimeOut .dalinkAckSem timeOut tt

/-- The wait `wait_bt_response` ends up in. -/
def waitBtResponse (timeOut : ℤ) (tt : Timeval) : Option SemWait :=
  waitWithTimeOut .phoneStateFromBtWaitSem timeOut tt

/-- The current time, in nanoseconds. -/
def Timeval.nanoseconds (tt : Timeval) : ℤ := tt.tvSec * 1000000000 + tt.tvUsec * 1000

/-- The time `sem_timedwait` waits for, in nanoseconds. -/
def Timespec.nanoseconds (ts : Timespec) : ℤ := ts.tvSec * 1000000000 + ts.tvNsec

variable {timeOut : ℤ} {tt : Timeval}

/-- The deadline, with the carry into the seconds taken at most once. -/
def carried (tt : Timeval) (timeOut : ℤ) : Timespec :=
  let nsecond := timeOut % 1000 * 1000 * 1000 + tt.tvUsec * 1000
  if nsecond > 999999999 then ⟨tt.tvSec + timeOut / 1000 + 1, nsecond - 1000000000⟩
  else ⟨tt.tvSec + timeOut / 1000, nsecond⟩

/-- No step of the computation overflows. -/
theorem waitWithTimeOut_eq (sem : TimedSem) (hpos : 0 < timeOut) (hint : Signed.Fits 31 timeOut)
    (hsec : Signed.Fits 31 (tt.tvSec + timeOut / 1000 + 1)) :
    waitWithTimeOut sem timeOut tt = some (.semTimedwait sem (carried tt timeOut)) := by
  have hnonneg := tt.tvUsec_nonneg
  have hlt := tt.tvUsec_lt
  have hnow := tt.tvSec_fits
  -- the milliseconds that are not whole seconds
  have hmillis : 0 ≤ timeOut % 1000 := Int.emod_nonneg _ (by decide)
  have hmillis' : timeOut % 1000 < 1000 := Int.emod_lt_of_pos _ (by decide)
  have hsecond : 0 ≤ timeOut / 1000 := Int.ediv_nonneg hpos.le (by decide)
  simp only [Signed.Fits] at hnow hsec
  rw [waitWithTimeOut, if_neg hpos.ne', Signed.div_of_nonneg hpos.le (by decide) hint,
    Signed.mod_of_nonneg hpos.le (by decide) hint]
  simp only [Option.bind_eq_bind, Option.bind_some]
  rw [Signed.mul_of_fits (by unfold Signed.Fits; omega), Option.bind_some,
    Signed.mul_of_fits (by unfold Signed.Fits; omega), Option.bind_some,
    Signed.mul_of_fits (by unfold Signed.Fits; omega), Option.bind_some,
    Signed.add_of_fits (by unfold Signed.Fits; omega), Option.bind_some,
    Signed.add_of_fits (by unfold Signed.Fits; omega), Option.bind_some, carried]
  split_ifs with hcarry
  · rw [Signed.sub_of_fits (by unfold Signed.Fits; omega), Option.bind_some,
      Signed.add_of_fits (by unfold Signed.Fits; omega), Option.bind_some]
    rfl
  · rfl

/-- One carry is enough. -/
theorem carried_spec (tt : Timeval) (timeOut : ℤ) :
    0 ≤ (carried tt timeOut).tvNsec ∧ (carried tt timeOut).tvNsec < 1000000000 ∧
      (carried tt timeOut).nanoseconds = tt.nanoseconds + timeOut * 1000000 := by
  have hnonneg := tt.tvUsec_nonneg
  have hlt := tt.tvUsec_lt
  unfold carried Timespec.nanoseconds Timeval.nanoseconds
  dsimp only
  split_ifs with hcarry
  · refine ⟨?_, ?_, ?_⟩ <;> dsimp only <;> omega
  · refine ⟨?_, ?_, ?_⟩ <;> dsimp only <;> omega

/-- **Exact deadlines.** For every positive `int` time-out and every current time, as long
as the seconds are representable, both functions compute a deadline without overflow, its
nanoseconds are below a second, and it is the current time plus the time-out. -/
theorem deadline_exact (hpos : 0 < timeOut) (hint : Signed.Fits 31 timeOut)
    (hsec : Signed.Fits 31 (tt.tvSec + timeOut / 1000 + 1)) :
    ∃ ts : Timespec,
      waitDalinkAckResponse timeOut tt = some (.semTimedwait .dalinkAckSem ts) ∧
      waitBtResponse timeOut tt = some (.semTimedwait .phoneStateFromBtWaitSem ts) ∧
      0 ≤ ts.tvNsec ∧ ts.tvNsec < 1000000000 ∧
      ts.nanoseconds = tt.nanoseconds + timeOut * 1000000 :=
  ⟨carried tt timeOut, waitWithTimeOut_eq _ hpos hint hsec, waitWithTimeOut_eq _ hpos hint hsec,
    carried_spec tt timeOut⟩

/-- The largest fraction of a second on both sides. -/
def lastMicrosecond : Timeval := ⟨1700000000, 999999, by decide, by decide, by decide⟩

theorem deadline_exact_last_microsecond : ∃ ts : Timespec,
    waitDalinkAckResponse 1999 lastMicrosecond = some (.semTimedwait .dalinkAckSem ts) ∧
    waitBtResponse 1999 lastMicrosecond = some (.semTimedwait .phoneStateFromBtWaitSem ts) ∧
    0 ≤ ts.tvNsec ∧ ts.tvNsec < 1000000000 ∧
    ts.nanoseconds = lastMicrosecond.nanoseconds + 1999 * 1000000 :=
  deadline_exact (by decide) (by decide) (by decide)

end PhoneLink.Deadline
