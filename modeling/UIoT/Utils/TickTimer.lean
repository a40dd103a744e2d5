import UIoT.Defs

/-!
# Timers on a tick counter

The timers of the FreeRTOS and the bare-metal port, which count ticks in 32
bits, behind the functions of `utils_timer.c`.  The end of a timer is a sum and
the time left a difference modulo `2 ^ 32`, but whether a timer has expired is
a comparison of the two counts.
-/

namespace UIoT
namespace TickTimer

/-- `Timer` -/
structure Timer where
  endTime : UInt32
  deriving DecidableEq, Repr

/-- `portTICK_RATE_MS` or `HAL_GetTickFreq()`: the milliseconds of a tick. -/
structure TickRate where
  ms : UInt32
  positive : 0 < ms.toNat

/-! ## The ports -/

/-- `HAL_Timer_Expired` -/
def expiredAt (timer : Timer) (now : UInt32) : Bool := timer.endTime < now

/-- `HAL_Timer_Countdown_ms` -/
def countdownTicks (tickRate : TickRate) (now timeoutMs : UInt32) : Timer :=
  ⟨now + timeoutMs / tickRate.ms⟩

/-- `HAL_Timer_Countdown` -/
def countdownSeconds (tickRate : TickRate) (now timeout : UInt32) : Timer :=
  ⟨now + timeout * 1000 / tickRate.ms⟩

/-- `HAL_Timer_Remain_ms` -/
def remainAt (timer : Timer) (now : UInt32) : UInt32 := timer.endTime - now

/-- The `HAL_Timer` functions of a port, on the tick they read. -/
structure HalTimer where
  halTimerExpired : Timer → UInt32 → Bool
  halTimerCountdownMs : UInt32 → UInt32 → Timer
  halTimerCountdown : UInt32 → UInt32 → Timer
  halTimerRemainMs : Timer → UInt32 → UInt32

/-- `HAL_Timer_freertos.c`, with `portTICK_RATE_MS`. -/
def freertos (portTickRateMs : TickRate) : HalTimer where
  halTimerExpired := expiredAt
  halTimerCountdownMs := countdownTicks portTickRateMs
  halTimerCountdown := countdownSeconds portTickRateMs
  halTimerRemainMs := remainAt

/-- `HAL_Timer_nos.c`, with `HAL_GetTickFreq()`. -/
def nos (halGetTickFreq : TickRate) : HalTimer where
  halTimerExpired := expiredAt
  halTimerCountdownMs := countdownTicks halGetTickFreq
  halTimerCountdown := countdownSeconds halGetTickFreq
  halTimerRemainMs := remainAt

/-- The ports that count ticks. -/
inductive Port
  | freertos
  | nos
  deriving DecidableEq, Repr

/-- The functions of a port. -/
def Port.hal : Port → TickRate → HalTimer
  | freertos => TickTimer.freertos
  | nos => TickTimer.nos

/-- `has_expired` -/
def hasExpired (hal : HalTimer) (timer : Timer) (now : UInt32) : Bool :=
  hal.halTimerExpired timer now

/-- `countdown_ms` -/
def countdownMs (hal : HalTimer) (now timeoutMs : UInt32) : Timer :=
  hal.halTimerCountdownMs now timeoutMs

/-- `countdown` -/
def countdown (hal : HalTimer) (now timeout : UInt32) : Timer :=
  hal.halTimerCountdown now timeout

/-- `left_ms`: the unsigned result is taken as an `int`. -/
def leftMs (hal : HalTimer) (timer : Timer) (now : UInt32) : Int :=
  Int.bmod (hal.halTimerRemainMs timer now).toNat (2 ^ 32)

/-! ## The two views of a timer -/

/-- The timer has expired when the timeout is over, and has time left until it
has expired. -/
def Tells (hal : HalTimer) (timer : Timer) (timeout : Nat)
    (start elapsed : UInt32) : Prop :=
  (hasExpired hal timer (start + elapsed) = true ↔ timeout ≤ elapsed.toNat) ∧
    (0 < leftMs hal timer (start + elapsed) ↔
      hasExpired hal timer (start + elapsed) = false)

/-- The tick counter does not pass zero between the end of the timer and the
tick at which it is looked at, and the two are not the same. -/
def SameLap (start ticks elapsed : Nat) : Prop :=
  elapsed ≠ ticks ∧ (start + ticks < 2 ^ 32 ↔ start + elapsed < 2 ^ 32)

/-- The sum of two tick counts. -/
theorem toNat_sum (start ticks : UInt32) :
    (start + ticks).toNat =
      if start.toNat + ticks.toNat < 2 ^ 32 then start.toNat + ticks.toNat
      else start.toNat + ticks.toNat - 2 ^ 32 := by
  have start_lt := start.toNat_lt
  have ticks_lt := ticks.toNat_lt
  rw [UInt32.toNat_add]
  split <;> omega

/-- A timer that ends after so many ticks has expired where the comparison of
the counts says so. -/
theorem expiredAt_iff {start ticks elapsed : UInt32}
    (ticks_small : ticks.toNat < 2 ^ 31)
    (elapsed_small : elapsed.toNat < 2 ^ 31) :
    (expiredAt ⟨start + ticks⟩ (start + elapsed) = true ↔
        ticks.toNat ≤ elapsed.toNat) ↔
      SameLap start.toNat ticks.toNat elapsed.toNat := by
  have start_lt := start.toNat_lt
  unfold expiredAt SameLap
  rw [decide_eq_true_iff, UInt32.lt_iff_toNat_lt, toNat_sum, toNat_sum]
  split <;> split <;> omega

/-- The time left is the difference of the counts. -/
theorem leftMs_pos_iff {hal : HalTimer} {start ticks elapsed : UInt32}
    (remain : hal.halTimerRemainMs = remainAt)
    (ticks_small : ticks.toNat < 2 ^ 31)
    (elapsed_small : elapsed.toNat < 2 ^ 31) :
    0 < leftMs hal ⟨start + ticks⟩ (start + elapsed) ↔
      elapsed.toNat < ticks.toNat := by
  have start_lt := start.toNat_lt
  unfold leftMs
  rw [remain]
  unfold remainAt
  rw [UInt32.toNat_sub, toNat_sum, toNat_sum, Int.bmod_def]
  split <;> split <;> split <;> omega

/-- A timer of a port tells the truth where its ticks are on the same side of
the elapsed ones as the timeout, and in their lap. -/
theorem tells_iff {hal : HalTimer} {start ticks elapsed : UInt32}
    {timeout : Nat} (expired : hal.halTimerExpired = expiredAt)
    (remain : hal.halTimerRemainMs = remainAt)
    (ticks_small : ticks.toNat < 2 ^ 31)
    (elapsed_small : elapsed.toNat < 2 ^ 31) :
    Tells hal ⟨start + ticks⟩ timeout start elapsed ↔
      (ticks.toNat ≤ elapsed.toNat ↔ timeout ≤ elapsed.toNat) ∧
        SameLap start.toNat ticks.toNat elapsed.toNat := by
  have left : 0 < leftMs hal ⟨start + ticks⟩ (start + elapsed) ↔
      elapsed.toNat < ticks.toNat :=
    leftMs_pos_iff remain ticks_small elapsed_small
  unfold Tells hasExpired
  rw [left, expired, ← expiredAt_iff ticks_small elapsed_small,
    ← Bool.not_eq_true]
  by_cases passed : expiredAt ⟨start + ticks⟩ (start + elapsed) = true
  · simp only [passed, true_iff, not_true, iff_false]
    omega
  · simp only [passed, Bool.false_eq_true, false_iff, not_false_iff, iff_true]
    omega

/-- A timer counts its ticks. -/
theorem countdownMs_eq (port : Port) (tickRate : TickRate)
    (start timeoutMs : UInt32) :
    countdownMs (port.hal tickRate) start timeoutMs =
      ⟨start + timeoutMs / tickRate.ms⟩ := by
  cases port <;> rfl

theorem countdown_eq (port : Port) (tickRate : TickRate)
    (start timeout : UInt32) :
    countdown (port.hal tickRate) start timeout =
      ⟨start + timeout * 1000 / tickRate.ms⟩ := by
  cases port <;> rfl

theorem hal_expired (port : Port) (tickRate : TickRate) :
    (port.hal tickRate).halTimerExpired = expiredAt := by
  cases port <;> rfl

theorem hal_remain (port : Port) (tickRate : TickRate) :
    (port.hal tickRate).halTimerRemainMs = remainAt := by
  cases port <;> rfl

/-- The ticks that `HAL_Timer_Countdown` counts for so many seconds: the product
is cut to 32 bits in front of the division. -/
theorem toNat_seconds (tickRate : TickRate) (timeout : UInt32) :
    (timeout * 1000 / tickRate.ms).toNat =
      timeout.toNat * 1000 % 2 ^ 32 / tickRate.ms.toNat := by
  rw [UInt32.toNat_div, UInt32.toNat_mul]
  rfl

/-- A timer started at any tick tells the truth after any time if and only if
the tick counter does not pass zero between the end of the timer and that time,
which is not its end; and, for a timer of seconds, the ticks that are left of
the product in 32 bits are over when the timeout is. -/
theorem timersTell_iff (port : Port) (tickRate : TickRate)
    (start timeout elapsed : UInt32) (elapsed_small : elapsed.toNat < 2 ^ 31) :
    (timeout.toNat / tickRate.ms.toNat < 2 ^ 31 →
      (Tells (port.hal tickRate)
          (countdownMs (port.hal tickRate) start timeout)
          (timeout.toNat / tickRate.ms.toNat) start elapsed ↔
        SameLap start.toNat (timeout.toNat / tickRate.ms.toNat)
          elapsed.toNat)) ∧
    (timeout.toNat * 1000 / tickRate.ms.toNat < 2 ^ 31 →
      (Tells (port.hal tickRate)
          (countdown (port.hal tickRate) start timeout)
          (timeout.toNat * 1000 / tickRate.ms.toNat) start elapsed ↔
        (timeout.toNat * 1000 % 2 ^ 32 / tickRate.ms.toNat ≤ elapsed.toNat ↔
          timeout.toNat * 1000 / tickRate.ms.toNat ≤ elapsed.toNat) ∧
        SameLap start.toNat
          (timeout.toNat * 1000 % 2 ^ 32 / tickRate.ms.toNat)
          elapsed.toNat)) := by
  constructor
  · intro timeout_small
    have ticks : (timeout / tickRate.ms).toNat =
        timeout.toNat / tickRate.ms.toNat := UInt32.toNat_div ..
    have ticks_small : (timeout / tickRate.ms).toNat < 2 ^ 31 := by
      rw [ticks]
      exact timeout_small
    rw [countdownMs_eq, tells_iff (hal_expired ..) (hal_remain ..) ticks_small
      elapsed_small, ticks]
    simp only [true_and]
  · intro timeout_small
    have ticks := toNat_seconds tickRate timeout
    have ticks_small : (timeout * 1000 / tickRate.ms).toNat < 2 ^ 31 := by
      rw [ticks]
      exact Nat.lt_of_le_of_lt (Nat.div_le_div_right (Nat.mod_le ..))
        timeout_small
    rw [countdown_eq, tells_iff (hal_expired ..) (hal_remain ..) ticks_small
      elapsed_small, ticks]

/-- One millisecond a tick. -/
def tickRateOne : TickRate := ⟨1, by decide⟩

theorem timersTell_iff_early :
    Tells (freertos tickRateOne) (countdownMs (freertos tickRateOne) 7 100) 100
      7 40 :=
  ((timersTell_iff .freertos tickRateOne 7 100 40 (by decide)).1
    (by decide)).mpr (by unfold SameLap; decide)

/-- A timer of 100 ticks started 50 ticks before the counter passes zero has
expired at once. -/
theorem timer_expires_early :
    ¬ ∀ (port : Port) (tickRate : TickRate) (start timeout elapsed : UInt32),
      elapsed.toNat < 2 ^ 31 →
        (timeout.toNat / tickRate.ms.toNat < 2 ^ 31 →
          Tells (port.hal tickRate)
            (countdownMs (port.hal tickRate) start timeout)
            (timeout.toNat / tickRate.ms.toNat) start elapsed) ∧
        (timeout.toNat * 1000 / tickRate.ms.toNat < 2 ^ 31 →
          Tells (port.hal tickRate)
            (countdown (port.hal tickRate) start timeout)
            (timeout.toNat * 1000 / tickRate.ms.toNat) start elapsed) := by
  intro tells
  have early := ((tells .freertos tickRateOne (0 - 50) 100 0 (by decide)).1
    (by decide)).1
  revert early
  decide

end TickTimer
end UIoT
