import UIoT.Library.Observations
import UIoT.Mqtt.Client

/-!
# Timers on a clock of seconds and microseconds

The timers of the Linux port, on `struct timeval`, behind the functions of
`utils_timer.c`.  They refine timers that are one number of microseconds, as
long as the time that is left fits into an `int`.
-/

namespace UIoT
namespace LinuxTimer

/-! ## Seconds and microseconds -/

/-- `struct timeval` -/
structure TimeVal where
  tvSec : Int
  tvUsec : Int
  deriving DecidableEq, Repr

/-- `timeradd` -/
def timeradd (a b : TimeVal) : TimeVal :=
  let tvSec := a.tvSec + b.tvSec
  let tvUsec := a.tvUsec + b.tvUsec
  if tvUsec ≥ 1000000 then ⟨tvSec + 1, tvUsec - 1000000⟩ else ⟨tvSec, tvUsec⟩

/-- `timersub` -/
def timersub (a b : TimeVal) : TimeVal :=
  let tvSec := a.tvSec - b.tvSec
  let tvUsec := a.tvUsec - b.tvUsec
  if tvUsec < 0 then ⟨tvSec - 1, tvUsec + 1000000⟩ else ⟨tvSec, tvUsec⟩

/-- A reading of `gettimeofday`: less than a million microseconds, and so few
seconds that milliseconds fit into a `long` as well. -/
structure Reading where
  sec : Nat
  usec : Nat
  usec_lt : usec < 1000000
  sec_lt : sec < 2 ^ 52

/-- The reading in its two fields. -/
def Reading.timeVal (now : Reading) : TimeVal := ⟨now.sec, now.usec⟩

/-- `Timer` -/
structure Timer where
  endTime : TimeVal
  deriving DecidableEq, Repr

/-! ## The port -/

/-- `HAL_Timer_Expired` -/
def halTimerExpired (timer : Timer) (now : Reading) : Bool :=
  let res := timersub timer.endTime now.timeVal
  res.tvSec < 0 || (res.tvSec = 0 && res.tvUsec ≤ 0)

/-- `HAL_Timer_Countdown_ms` -/
def halTimerCountdownMs (now : Reading) (timeoutMs : UInt32) : Timer :=
  let interval : TimeVal :=
    ⟨(timeoutMs / 1000).toNat, (timeoutMs % 1000 * 1000).toNat⟩
  ⟨timeradd now.timeVal interval⟩

/-- `HAL_Timer_Countdown` -/
def halTimerCountdown (now : Reading) (timeout : UInt32) : Timer :=
  ⟨timeradd now.timeVal ⟨timeout.toNat, 0⟩⟩

/-- `HAL_Timer_Remain_ms` -/
def halTimerRemainMs (timer : Timer) (now : Reading) : UInt32 :=
  let res := timersub timer.endTime now.timeVal
  if res.tvSec ≥ 0 then
    .ofNat (res.tvSec * 1000 + res.tvUsec / 1000).toNat
  else 0

/-- `HAL_Timer_Init` -/
def halTimerInit : Timer := ⟨⟨0, 0⟩⟩

/-! ## Calls -/

/-- The functions of `utils_timer.c`. -/
inductive Call
  | initTimer
  | countdownMs (timeoutMs : UInt32)
  | countdown (timeout : UInt32)
  | hasExpired
  | leftMs
  deriving DecidableEq, Repr

/-- What a call returns. -/
inductive Answer
  | nothing
  | expired (isOver : Bool)
  | left (ms : Int)
  deriving DecidableEq, Repr

/-- The timer behind a call. -/
def after (timer : Timer) : Call × Reading → Timer
  | (.initTimer, _) => halTimerInit
  | (.countdownMs timeoutMs, now) => halTimerCountdownMs now timeoutMs
  | (.countdown timeout, now) => halTimerCountdown now timeout
  | (_, _) => timer

/-- What a call returns.  The unsigned result of `HAL_Timer_Remain_ms` is taken
as an `int`. -/
def answer (timer : Timer) : Call × Reading → Answer
  | (.hasExpired, now) => .expired (halTimerExpired timer now)
  | (.leftMs, now) =>
      .left (Int.bmod (halTimerRemainMs timer now).toNat (2 ^ 32))
  | (_, _) => .nothing

/-! ## Timers of one number -/

/-- A reading in microseconds. -/
def Reading.clock (now : Reading) : Nat := now.sec * 1000000 + now.usec

/-- The timer of one number behind a call. -/
def plainAfter (timer : Mqtt.Timer) : Call × Reading → Mqtt.Timer
  | (.initTimer, _) => .init
  | (.countdownMs timeoutMs, now) => .countdownMs now.clock timeoutMs.toNat
  | (.countdown timeout, now) => .countdown now.clock timeout.toNat
  | (_, _) => timer

/-- What a timer of one number tells. -/
def plainAnswer (timer : Mqtt.Timer) : Call × Reading → Answer
  | (.hasExpired, now) => .expired (timer.hasExpired now.clock)
  | (.leftMs, now) => .left (timer.leftMs now.clock)
  | (_, _) => .nothing

/-- The time left fits into an `int` where it is asked for. -/
def Fits (timer : Mqtt.Timer) : Call × Reading → Prop
  | (.leftMs, now) => timer.leftMs now.clock < 2 ^ 31
  | (_, _) => True

/-! ## Refinement -/

/-- A time with its microseconds below a second is so many microseconds. -/
structure Shows (time : TimeVal) (micros : Int) : Prop where
  nonneg : 0 ≤ time.tvUsec
  small : time.tvUsec < 1000000
  sum : time.tvSec * 1000000 + time.tvUsec = micros

theorem Reading.shows (now : Reading) : Shows now.timeVal now.clock := by
  have small := now.usec_lt
  refine ⟨Int.natCast_nonneg _, Int.ofNat_lt.mpr small, ?_⟩
  unfold timeVal clock
  push_cast
  rfl

theorem Shows.timeradd {a b : TimeVal} {first second : Int}
    (left : Shows a first) (right : Shows b second) :
    Shows (timeradd a b) (first + second) := by
  obtain ⟨nonneg, small, sum⟩ := left
  obtain ⟨nonneg', small', sum'⟩ := right
  unfold LinuxTimer.timeradd
  dsimp only
  split <;> constructor <;> dsimp only <;> omega

theorem Shows.timersub {a b : TimeVal} {first second : Int}
    (left : Shows a first) (right : Shows b second) :
    Shows (timersub a b) (first - second) := by
  obtain ⟨nonneg, small, sum⟩ := left
  obtain ⟨nonneg', small', sum'⟩ := right
  unfold LinuxTimer.timersub
  dsimp only
  split <;> constructor <;> dsimp only <;> omega

/-- A difference is at most zero where its fields say so. -/
theorem Shows.nonpos_iff {time : TimeVal} {micros : Int}
    (shows : Shows time micros) :
    (decide (time.tvSec < 0) ||
        (decide (time.tvSec = 0) && decide (time.tvUsec ≤ 0))) = true ↔
      micros ≤ 0 := by
  obtain ⟨nonneg, small, sum⟩ := shows
  simp only [Bool.or_eq_true, Bool.and_eq_true, decide_eq_true_eq]
  omega

/-- Whole seconds. -/
theorem shows_seconds (seconds : Nat) :
    Shows ⟨seconds, 0⟩ (seconds * 1000000 : Nat) := by
  constructor <;> dsimp only <;> omega

/-- A timer of two fields stands for one of one number. -/
def Represents (timer : Timer) (plain : Mqtt.Timer) : Prop :=
  Shows timer.endTime plain.endTime

/-- The interval of a timeout in milliseconds. -/
theorem shows_interval (timeoutMs : UInt32) :
    Shows ⟨(timeoutMs / 1000).toNat, (timeoutMs % 1000 * 1000).toNat⟩
      (timeoutMs.toNat * 1000 : Nat) := by
  have seconds : (timeoutMs / 1000).toNat = timeoutMs.toNat / 1000 :=
    UInt32.toNat_div ..
  have rest : (timeoutMs % 1000).toNat = timeoutMs.toNat % 1000 :=
    UInt32.toNat_mod ..
  have micros : (timeoutMs % 1000 * 1000).toNat =
      timeoutMs.toNat % 1000 * 1000 := by
    rw [UInt32.toNat_mul, rest]
    exact Nat.mod_eq_of_lt (by change _ * 1000 < _; omega)
  rw [seconds, micros]
  constructor <;> dsimp only <;> omega

/-- The calls that set a timer keep it standing for the other one. -/
theorem Represents.after {timer : Timer} {plain : Mqtt.Timer}
    (represents : Represents timer plain) (call : Call × Reading) :
    Represents (after timer call) (plainAfter plain call) := by
  obtain ⟨call, now⟩ := call
  cases call with
  | initTimer => exact shows_seconds 0
  | countdownMs timeoutMs =>
      exact now.shows.timeradd (shows_interval timeoutMs)
  | countdown timeout =>
      exact now.shows.timeradd (shows_seconds timeout.toNat)
  | hasExpired => exact represents
  | leftMs => exact represents

theorem Represents.expired {timer : Timer} {plain : Mqtt.Timer}
    (represents : Represents timer plain) (now : Reading) :
    halTimerExpired timer now = plain.hasExpired now.clock := by
  have difference := represents.timersub now.shows
  rw [Bool.eq_iff_iff]
  refine difference.nonpos_iff.trans ?_
  rw [Mqtt.Timer.hasExpired, decide_eq_true_eq]
  omega

theorem Represents.remain {timer : Timer} {plain : Mqtt.Timer}
    (represents : Represents timer plain) (now : Reading) :
    (halTimerRemainMs timer now).toNat = plain.leftMs now.clock % 2 ^ 32 := by
  obtain ⟨nonneg, small, sum⟩ := represents.timersub now.shows
  unfold halTimerRemainMs Mqtt.Timer.leftMs
  dsimp only
  split
  · rename_i later
    have left : ((LinuxTimer.timersub timer.endTime now.timeVal).tvSec * 1000 +
        (LinuxTimer.timersub timer.endTime now.timeVal).tvUsec / 1000).toNat =
          (plain.endTime - now.clock) / 1000 := by
      omega
    rw [left]
    exact UInt32.toNat_ofNat ..
  · have gone : (plain.endTime - now.clock) / 1000 = 0 := by
      omega
    rw [gone]
    rfl

/-- An unsigned number taken as an `int` is itself exactly if it is small. -/
theorem bmod_eq_self_iff (number : Nat) :
    Int.bmod (number % 2 ^ 32 : Nat) (2 ^ 32) = number ↔ number < 2 ^ 31 := by
  rw [Int.bmod_def]
  omega

/-- The two kinds of timer answer the same exactly if the time left fits. -/
theorem Represents.answer_iff {timer : Timer} {plain : Mqtt.Timer}
    (represents : Represents timer plain) (call : Call × Reading) :
    answer timer call = plainAnswer plain call ↔ Fits plain call := by
  obtain ⟨call, now⟩ := call
  cases call with
  | initTimer => exact iff_of_true rfl trivial
  | countdownMs timeoutMs => exact iff_of_true rfl trivial
  | countdown timeout => exact iff_of_true rfl trivial
  | hasExpired =>
      exact iff_of_true (congrArg Answer.expired (represents.expired now))
        trivial
  | leftMs =>
      change Answer.left _ = Answer.left _ ↔ plain.leftMs now.clock < 2 ^ 31
      rw [Answer.left.injEq, represents.remain]
      exact bmod_eq_self_iff _

/-- Calls on a timer, each at a reading of its own, return what they return on
a timer of one number exactly if the milliseconds left fit into an `int`
whenever they are asked for. -/
theorem seen_eq_plain_iff (calls : List (Call × Reading)) :
    Machine.seen after answer halTimerInit calls =
        Machine.seen plainAfter plainAnswer .init calls ↔
      Machine.Along plainAfter Fits .init calls := by
  apply Machine.seen_eq_iff Represents
  · exact fun _ _ call represents => represents.after call
  · exact fun _ _ call represents => represents.answer_iff call
  · exact shows_seconds 0

end LinuxTimer
end UIoT
