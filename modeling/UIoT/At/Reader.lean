import UIoT.At.RingBuff

/-!
# The reader of the AT client

`at_client_getchar` takes bytes from the ring buffer that the handler of the
serial line fills.  Between any two of its steps time may pass and bytes may
arrive; the world tells how much and which.
-/

namespace UIoT
namespace At

/-! ## The world -/

/-- The return codes of the AT client. -/
inductive Ret
  | successRet
  | failureRet
  | errTcpNothingToRead
  deriving DecidableEq, Repr

/-- `HAL_Timer_Expired` on a clock in milliseconds: a timer has not expired in
front of its end and has expired behind it.  At the end itself the ports
differ. -/
structure HalTimer where
  expired : (endTime now : Nat) → Bool
  before : ∀ {endTime now}, now < endTime → expired endTime now = false
  behind : ∀ {endTime now}, endTime < now → expired endTime now = true

namespace HalTimer

/-- The Linux port, whose timers have expired at their end. -/
def linux : HalTimer where
  expired := fun endTime now => endTime ≤ now
  before := fun early => decide_eq_false (Nat.not_le.mpr early)
  behind := fun late => decide_eq_true (Nat.le_of_lt late)

/-- The ports that count ticks, whose timers have expired behind their end. -/
def ticks : HalTimer where
  expired := fun endTime now => endTime < now
  before := fun early => decide_eq_false (Nat.not_lt.mpr (Nat.le_of_lt early))
  behind := fun late => decide_eq_true late

/-- A timer that has expired stays so. -/
theorem stays (hal : HalTimer) {endTime now later : Nat}
    (expired : hal.expired endTime now = true) (le : now ≤ later) :
    hal.expired endTime later = true := by
  rcases Nat.eq_or_lt_of_le le with rfl | lt
  · exact expired
  · apply hal.behind
    by_contra early
    rw [hal.before (by omega)] at expired
    cases expired

/-- A timer that has not expired has not passed its end. -/
theorem le_of_running (hal : HalTimer) {endTime now : Nat}
    (running : hal.expired endTime now = false) : now ≤ endTime := by
  by_contra late
  rw [hal.behind (Nat.lt_of_not_le late)] at running
  cases running

end HalTimer

/-- What happens during a step of the reader: how much longer it takes than it
has to, and the bytes the serial line delivers. -/
structure Moment where
  delay : Nat
  arrives : List UInt8

/-- The clock and the ring buffer, with the moments that are still ahead.  When
there are none left, nothing happens any more. -/
structure Uart where
  now : Nat
  ahead : List Moment
  ring : RingBuff

/-- The handler of the serial line pushes the bytes that arrive. -/
def arrive (ring : RingBuff) (bytes : List UInt8) : RingBuff :=
  bytes.foldl (fun ring byte => (ringBuffPushData ring (fun _ => byte) 1).ring)
    ring

namespace Uart

/-- A step that takes so many milliseconds at least. -/
def elapse (uart : Uart) (ms : Nat) : Uart :=
  match uart.ahead with
  | [] => { uart with now := uart.now + ms }
  | moment :: ahead =>
      { now := uart.now + ms + moment.delay
        ahead
        ring := arrive uart.ring moment.arrives }

/-- The bytes the serial line is still to deliver. -/
def toCome (uart : Uart) : List UInt8 := uart.ahead.flatMap Moment.arrives

end Uart

/-! ## Reading -/

/-- What `at_client_getchar` does: what it returns and leaves in `*pch`, and the
bytes it took from the ring buffer. -/
structure Getchar where
  ret : Ret
  pch : UInt8
  popped : List UInt8
  uart : Uart

/-- The loop of `at_client_getchar`; `continue` goes on with its test. -/
def getcharLoop (hal : HalTimer) (endTime : Nat) (pch : UInt8) :
    (turns : Nat) → Uart → Option Getchar
  | 0, _ => none
  | turns + 1, uart =>
      let done := ringBuffPopData uart.ring 1
      if done.ret = 0 then
        let slept := uart.elapse 10
        let tested := slept.elapse 0
        if hal.expired endTime tested.now then
          some ⟨.successRet, pch, [], tested⟩
        else getcharLoop hal endTime pch turns tested
      else
        some ⟨.successRet, done.bytes.headD pch, done.bytes,
          { uart with ring := done.ring }⟩

/-- `at_client_getchar`.  A turn of its loop sleeps ten milliseconds, so that
there are no more turns than `timeout / 10 + 1`. -/
def atClientGetchar (hal : HalTimer) (uart : Uart) (pch : UInt8)
    (timeout : Nat) : Option Getchar := do
  let started := uart.elapse 0
  let endTime := started.now + timeout
  let done ← getcharLoop hal endTime pch (timeout / 10 + 1) started
  let tested := done.uart.elapse 0
  if hal.expired endTime tested.now then
    some { done with ret := .errTcpNothingToRead, uart := tested }
  else some { done with uart := tested }

/-- The loop of `at_client_obj_recv`, with what it has stored. -/
def objRecvLoop (hal : HalTimer) (timeout : Nat) (ch : UInt8) :
    (left : Nat) → Uart → (buf : List UInt8) →
      Option (Nat × List UInt8 × Uart)
  | 0, uart, buf => some (buf.length, buf, uart)
  | left + 1, uart, buf => do
      let done ← atClientGetchar hal uart ch timeout
      if done.ret ≠ .successRet then some (0, buf, done.uart)
      else
        objRecvLoop hal timeout done.pch left done.uart (buf ++ [done.pch])

/-- `at_client_obj_recv`: what it returns, and the bytes it has stored. -/
def atClientObjRecv (hal : HalTimer) (uart : Uart) (ch : UInt8) (size : Int)
    (timeout : Nat) : Option (Nat × List UInt8 × Uart) :=
  objRecvLoop hal timeout ch size.toNat uart []

/-! ## The ring buffer of the reader -/

section Ring

variable {ring : RingBuff}

/-- A byte that is pushed is stored if there is room. -/
theorem pushOne (formed : ring.WellFormed) (byte : UInt8) :
    PushLoops ring [] [byte] (ringBuffPushData ring (fun _ => byte) 1) := by
  have size_pos := Nat.zero_lt_of_lt formed.read_lt
  unfold ringBuffPushData
  rw [if_neg (not_tooShort (by decide) (by omega))]
  exact pushLoop_loops formed [] _

/-- A byte that is popped is the first one. -/
theorem popOne (formed : ring.WellFormed) :
    PopLoops ring [] 1 (ringBuffPopData ring 1) := by
  have size_pos := Nat.zero_lt_of_lt formed.read_lt
  unfold ringBuffPopData
  rw [if_neg (not_tooShort (by decide) (by omega))]
  exact popLoop_loops formed [] 1

/-- What arrives is stored as far as there is room. -/
structure Arrives (ring : RingBuff) (bytes : List UInt8) (after : RingBuff) :
    Prop where
  formed : after.WellFormed
  size : after.size = ring.size
  stored : after.stored = ring.stored ++ bytes.take ring.room

theorem arrive_arrives (formed : ring.WellFormed) (bytes : List UInt8) :
    Arrives ring bytes (arrive ring bytes) := by
  induction bytes generalizing ring with
  | nil => exact ⟨formed, rfl, by simp [arrive]⟩
  | cons byte rest inductionHypothesis =>
      have first := pushOne formed byte
      have later := inductionHypothesis first.formed
      refine ⟨later.formed, later.size.trans first.size, ?_⟩
      have stored : (arrive ring (byte :: rest)).stored = _ := later.stored
      rw [stored, first.stored, List.append_assoc]
      congr 1
      have rooms : (ringBuffPushData ring (fun _ => byte) 1).ring.room =
          ring.room - 1 := by
        unfold RingBuff.room
        rw [first.stored, first.size, List.length_append, List.length_take]
        unfold RingBuff.room
        simp only [List.length_singleton]
        omega
      rw [rooms]
      cases room : ring.room with
      | zero => simp
      | succ room => simp

end Ring

namespace Uart

variable {uart : Uart}

theorem elapse_now_le (uart : Uart) (ms : Nat) :
    uart.now + ms ≤ (uart.elapse ms).now := by
  unfold elapse
  split
  · exact Nat.le_refl _
  · exact Nat.le_add_right ..

/-- The clock does not depend on the ring buffer. -/
theorem elapse_now_congr {first second : Uart} (now : first.now = second.now)
    (ahead : first.ahead = second.ahead) (ms : Nat) :
    (first.elapse ms).now = (second.elapse ms).now := by
  unfold elapse
  rw [ahead]
  cases second.ahead <;> simp [now]

theorem elapse_formed (formed : uart.ring.WellFormed) (ms : Nat) :
    (uart.elapse ms).ring.WellFormed := by
  unfold elapse
  split
  · exact formed
  · exact (arrive_arrives formed _).formed

/-- Between two states so many bytes were taken out of the ring buffer; what
was in it stays, and what is new in it has arrived. -/
def Conserves (uart : Uart) (popped : List UInt8) (after : Uart) : Prop :=
  ∃ arrived, popped ++ after.ring.stored = uart.ring.stored ++ arrived ∧
    (arrived ++ after.toCome).Sublist uart.toCome

theorem Conserves.refl (uart : Uart) : uart.Conserves [] uart :=
  ⟨[], by simp, by simp⟩

theorem Conserves.trans {middle after : Uart} {first second : List UInt8}
    (before : uart.Conserves first middle)
    (behind : middle.Conserves second after) :
    uart.Conserves (first ++ second) after := by
  obtain ⟨arrived, stored, sublist⟩ := before
  obtain ⟨later, stored_later, sublist_later⟩ := behind
  refine ⟨arrived ++ later, ?_, ?_⟩
  · rw [List.append_assoc, stored_later, ← List.append_assoc, stored,
      List.append_assoc]
  · rw [List.append_assoc]
    exact (List.Sublist.append_left sublist_later arrived).trans sublist

/-- A step takes nothing out. -/
theorem elapse_conserves (formed : uart.ring.WellFormed) (ms : Nat) :
    uart.Conserves [] (uart.elapse ms) := by
  unfold Conserves elapse toCome
  cases uart.ahead with
  | nil => exact ⟨[], by simp, by simp⟩
  | cons moment ahead =>
      refine ⟨moment.arrives.take uart.ring.room,
        (arrive_arrives formed _).stored, ?_⟩
      rw [List.flatMap_cons]
      exact List.Sublist.append_right (List.take_sublist ..) _

/-- A pop takes out what it returns. -/
theorem pop_conserves (formed : uart.ring.WellFormed) :
    uart.Conserves (ringBuffPopData uart.ring 1).bytes
      { uart with ring := (ringBuffPopData uart.ring 1).ring } := by
  have pop := popOne formed
  refine ⟨[], ?_, by simp [toCome]⟩
  rw [List.append_nil]
  dsimp only
  rw [pop.bytes, pop.stored, List.nil_append, List.take_append_drop]

end Uart

/-! ## When a byte is taken -/

section Taking

variable {hal : HalTimer} {endTime : Nat} {pch : UInt8} {uart : Uart}

/-- The state at a later poll, if nothing is taken before. -/
def polled (uart : Uart) : Nat → Uart
  | 0 => uart
  | count + 1 => ((polled uart count).elapse 10).elapse 0

theorem polled_succ (uart : Uart) (count : Nat) :
    polled uart (count + 1) = polled ((uart.elapse 10).elapse 0) count := by
  induction count with
  | zero => rfl
  | succ count inductionHypothesis =>
      rw [polled, inductionHypothesis]
      rfl

/-- Nothing is there at any earlier poll, and the timer has not expired after
one. -/
def Polls (hal : HalTimer) (endTime : Nat) (uart : Uart) (count : Nat) : Prop :=
  ∀ earlier < count, (polled uart earlier).ring.stored = [] ∧
    hal.expired endTime (polled uart (earlier + 1)).now = false

theorem polls_zero : Polls hal endTime uart 0 :=
  fun _ earlier => absurd earlier (Nat.not_lt_zero _)

theorem polls_succ {count : Nat} :
    Polls hal endTime uart (count + 1) ↔
      (uart.ring.stored = [] ∧
        hal.expired endTime ((uart.elapse 10).elapse 0).now = false) ∧
      Polls hal endTime ((uart.elapse 10).elapse 0) count := by
  constructor
  · intro polls
    refine ⟨polls 0 (Nat.succ_pos _), fun earlier small => ?_⟩
    have later := polls (earlier + 1) (Nat.succ_lt_succ small)
    rw [polled_succ, polled_succ] at later
    exact later
  · rintro ⟨first, rest⟩ earlier small
    cases earlier with
    | zero => exact first
    | succ earlier =>
        rw [polled_succ, polled_succ]
        exact rest earlier (Nat.lt_of_succ_lt_succ small)

/-- A byte that a poll finds is there in time: the timer has not expired when
it is looked at again behind the poll. -/
def InTimeFrom (hal : HalTimer) (endTime : Nat) (uart : Uart) : Prop :=
  ∀ count, Polls hal endTime uart count →
    (polled uart count).ring.stored ≠ [] →
      hal.expired endTime ((polled uart count).elapse 0).now = false

/-- The byte a call takes, if there is one, is there in time. -/
def InTime (hal : HalTimer) (uart : Uart) (timeout : Nat) : Prop :=
  InTimeFrom hal ((uart.elapse 0).now + timeout) (uart.elapse 0)

/-- A poll that finds a byte is the only one that matters. -/
theorem inTimeFrom_found (found : uart.ring.stored ≠ []) :
    InTimeFrom hal endTime uart ↔
      hal.expired endTime (uart.elapse 0).now = false := by
  constructor
  · exact fun inTime => inTime 0 polls_zero found
  · intro running count polls _
    cases count with
    | zero => exact running
    | succ count => exact absurd (polls_succ.mp polls).1.1 found

/-- A poll that finds nothing leads to the next one, unless the timer has
expired. -/
theorem inTimeFrom_empty (empty : uart.ring.stored = []) :
    InTimeFrom hal endTime uart ↔
      (hal.expired endTime ((uart.elapse 10).elapse 0).now = false →
        InTimeFrom hal endTime ((uart.elapse 10).elapse 0)) := by
  constructor
  · intro inTime running count polls found
    have later := inTime (count + 1) (polls_succ.mpr ⟨⟨empty, running⟩, polls⟩)
    rw [polled_succ] at later
    exact later found
  · intro later count polls found
    cases count with
    | zero => exact absurd empty found
    | succ count =>
        obtain ⟨⟨-, running⟩, rest⟩ := polls_succ.mp polls
        rw [polled_succ] at found ⊢
        exact later running count rest found

/-- What the loop of a reader does: it takes the first byte that is there, or
nothing until the timer has expired. -/
inductive Loops (hal : HalTimer) (endTime : Nat) (pch : UInt8) (uart : Uart) :
    Getchar → Prop
  | took (byte : UInt8) (after : Uart) (formed : after.ring.WellFormed)
      (conserves : uart.Conserves [byte] after)
      (inTime : InTimeFrom hal endTime uart ↔
        hal.expired endTime (after.elapse 0).now = false) :
      Loops hal endTime pch uart ⟨.successRet, byte, [byte], after⟩
  | waited (after : Uart) (formed : after.ring.WellFormed)
      (conserves : uart.Conserves [] after)
      (inTime : InTimeFrom hal endTime uart)
      (expired : hal.expired endTime after.now = true) :
      Loops hal endTime pch uart ⟨.successRet, pch, [], after⟩

/-- A turn that finds nothing passes on what the later ones do. -/
theorem Loops.later {done : Getchar} (formed : uart.ring.WellFormed)
    (empty : uart.ring.stored = [])
    (running :
      hal.expired endTime ((uart.elapse 10).elapse 0).now = false)
    (loops : Loops hal endTime pch ((uart.elapse 10).elapse 0) done) :
    Loops hal endTime pch uart done := by
  have step : uart.Conserves [] ((uart.elapse 10).elapse 0) :=
    (Uart.elapse_conserves formed 10).trans
      (Uart.elapse_conserves (Uart.elapse_formed formed 10) 0)
  have same : InTimeFrom hal endTime uart ↔
      InTimeFrom hal endTime ((uart.elapse 10).elapse 0) := by
    rw [inTimeFrom_empty empty]
    exact ⟨fun later => later running, fun later _ => later⟩
  cases loops with
  | took byte after after_formed conserves inTime =>
      exact .took byte after after_formed (step.trans conserves)
        (same.trans inTime)
  | waited after after_formed conserves inTime expired =>
      exact .waited after after_formed (step.trans conserves)
        (same.mpr inTime) expired

theorem getcharLoop_loops (formed : uart.ring.WellFormed) {turns : Nat}
    (enough : endTime < uart.now + 10 * turns) (running : uart.now ≤ endTime) :
    ∃ done, getcharLoop hal endTime pch turns uart = some done ∧
      Loops hal endTime pch uart done := by
  induction turns generalizing uart with
  | zero => omega
  | succ turns inductionHypothesis =>
      have pop := popOne formed
      rw [getcharLoop]
      dsimp only
      rw [pop.ret, pop.bytes, List.nil_append]
      cases stored : uart.ring.stored with
      | nil =>
          have none : ((List.take 1 ([] : List UInt8)).length : Int) = 0 := rfl
          rw [if_pos none]
          have tested_formed : ((uart.elapse 10).elapse 0).ring.WellFormed :=
            Uart.elapse_formed (Uart.elapse_formed formed 10) 0
          cases expired :
              hal.expired endTime ((uart.elapse 10).elapse 0).now with
          | true =>
              rw [if_pos rfl]
              refine ⟨_, rfl, .waited _ tested_formed ?_ ?_ expired⟩
              · exact (Uart.elapse_conserves formed 10).trans
                  (Uart.elapse_conserves (Uart.elapse_formed formed 10) 0)
              · rw [inTimeFrom_empty stored, expired]
                exact fun absurdity => absurd absurdity (by decide)
          | false =>
              rw [if_neg Bool.false_ne_true]
              have slept := Uart.elapse_now_le uart 10
              have tested := Uart.elapse_now_le (uart.elapse 10) 0
              obtain ⟨done, returns, loops⟩ := inductionHypothesis
                tested_formed (by omega) (hal.le_of_running expired)
              exact ⟨done, returns, loops.later formed stored expired⟩
      | cons byte rest =>
          rw [if_neg (by simp)]
          have conserves := Uart.pop_conserves formed
          rw [pop.bytes, stored] at conserves
          refine ⟨_, rfl, .took byte _ pop.formed conserves ?_⟩
          have found : uart.ring.stored ≠ [] := by
            rw [stored]
            exact List.cons_ne_nil _ _
          rw [inTimeFrom_found found, Uart.elapse_now_congr _ _ 0]
          · rfl
          · rfl

/-- What a call returns: a byte that was there in time, an error for one that
was not, and an error when none came. -/
inductive Reads (hal : HalTimer) (uart : Uart) (pch : UInt8) (timeout : Nat) :
    Getchar → Prop
  | took (byte : UInt8) (after : Uart) (formed : after.ring.WellFormed)
      (conserves : uart.Conserves [byte] after)
      (inTime : InTime hal uart timeout) :
      Reads hal uart pch timeout ⟨.successRet, byte, [byte], after⟩
  | late (byte : UInt8) (after : Uart) (formed : after.ring.WellFormed)
      (conserves : uart.Conserves [byte] after)
      (late : ¬ InTime hal uart timeout) :
      Reads hal uart pch timeout ⟨.errTcpNothingToRead, byte, [byte], after⟩
  | silent (after : Uart) (formed : after.ring.WellFormed)
      (conserves : uart.Conserves [] after)
      (inTime : InTime hal uart timeout) :
      Reads hal uart pch timeout ⟨.errTcpNothingToRead, pch, [], after⟩

/-- Every call returns, in one of these ways. -/
theorem atClientGetchar_reads (hal : HalTimer) (formed : uart.ring.WellFormed)
    (pch : UInt8) (timeout : Nat) :
    ∃ done, atClientGetchar hal uart pch timeout = some done ∧
      Reads hal uart pch timeout done := by
  have started := Uart.elapse_conserves formed 0
  have enough : (uart.elapse 0).now + timeout <
      (uart.elapse 0).now + 10 * (timeout / 10 + 1) := by omega
  obtain ⟨done, returns, loops⟩ :
      ∃ done, getcharLoop hal ((uart.elapse 0).now + timeout) pch
          (timeout / 10 + 1) (uart.elapse 0) = some done ∧
        Loops hal ((uart.elapse 0).now + timeout) pch (uart.elapse 0) done :=
    getcharLoop_loops (Uart.elapse_formed formed 0) enough
      (Nat.le_add_right ..)
  unfold atClientGetchar
  simp only [returns, Option.bind_eq_bind, Option.bind_some]
  cases loops with
  | took byte after after_formed conserves inTime =>
      have whole := (started.trans conserves).trans
        (Uart.elapse_conserves after_formed 0)
      have tested := Uart.elapse_formed after_formed 0
      cases expired : hal.expired ((uart.elapse 0).now + timeout)
          (after.elapse 0).now with
      | true =>
          rw [if_pos rfl]
          refine ⟨_, rfl, .late byte _ tested whole fun punctual => ?_⟩
          rw [inTime.mp punctual] at expired
          cases expired
      | false =>
          rw [if_neg Bool.false_ne_true]
          exact ⟨_, rfl, .took byte _ tested whole (inTime.mpr expired)⟩
  | waited after after_formed conserves inTime expired =>
      have whole := (started.trans conserves).trans
        (Uart.elapse_conserves after_formed 0)
      have still := hal.stays expired (Uart.elapse_now_le after 0)
      rw [if_pos still]
      exact ⟨_, rfl, .silent _ (Uart.elapse_formed after_formed 0) whole
        inTime⟩

theorem Reads.formed {done : Getchar} {timeout : Nat}
    (reads : Reads hal uart pch timeout done) : done.uart.ring.WellFormed := by
  cases reads <;> assumption

theorem Reads.conserves {done : Getchar} {timeout : Nat}
    (reads : Reads hal uart pch timeout done) :
    uart.Conserves done.popped done.uart := by
  cases reads <;> assumption

/-- A call succeeds if and only if it took one byte and stored it, and takes
nothing if it does not succeed. -/
def Getchar.Exact (done : Getchar) : Prop :=
  (done.ret = .successRet ↔
      ∃ byte, done.popped = [byte] ∧ done.pch = byte) ∧
    (done.ret ≠ .successRet → done.popped = [])

theorem Reads.exact_iff {done : Getchar} {timeout : Nat}
    (reads : Reads hal uart pch timeout done) :
    done.Exact ↔ InTime hal uart timeout := by
  cases reads with
  | took byte after after_formed conserves inTime =>
      exact ⟨fun _ => inTime, fun _ => ⟨⟨fun _ => ⟨byte, rfl, rfl⟩, fun _ =>
        rfl⟩, fun failed => absurd rfl failed⟩⟩
  | late byte after after_formed conserves late =>
      exact ⟨fun exactly => absurd (exactly.2 nofun) (List.cons_ne_nil _ _),
        fun inTime => absurd inTime late⟩
  | silent after after_formed conserves inTime =>
      refine ⟨fun _ => inTime, fun _ => ⟨⟨fun succeeded => ?_, ?_⟩, fun _ =>
        rfl⟩⟩
      · cases succeeded
      · rintro ⟨byte, popped, -⟩
        cases popped

end Taking

/-- What is left in `*pch` matters to nothing else. -/
theorem getcharLoop_pch (hal : HalTimer) (endTime turns : Nat) (uart : Uart)
    (pch : UInt8) :
    getcharLoop hal endTime pch turns uart =
      (getcharLoop hal endTime 0 turns uart).map fun done =>
        { done with pch := done.popped.headD pch } := by
  induction turns generalizing uart with
  | zero => rfl
  | succ turns inductionHypothesis =>
      rw [getcharLoop, getcharLoop]
      dsimp only
      by_cases none : (ringBuffPopData uart.ring 1).ret = 0
      · rw [if_pos none, if_pos none]
        by_cases expired :
            hal.expired endTime ((uart.elapse 10).elapse 0).now = true
        · rw [if_pos expired, if_pos expired]
          rfl
        · rw [if_neg expired, if_neg expired]
          exact inductionHypothesis _
      · rw [if_neg none, if_neg none]
        rfl

theorem atClientGetchar_pch (hal : HalTimer) (uart : Uart) (pch : UInt8)
    (timeout : Nat) :
    atClientGetchar hal uart pch timeout =
      (atClientGetchar hal uart 0 timeout).map fun done =>
        { done with pch := done.popped.headD pch } := by
  unfold atClientGetchar
  simp only [Option.bind_eq_bind]
  rw [getcharLoop_pch]
  cases getcharLoop hal ((uart.elapse 0).now + timeout) 0 (timeout / 10 + 1)
      (uart.elapse 0) with
  | none => rfl
  | some done =>
      simp only [Option.map_some, Option.bind_some]
      by_cases expired : hal.expired ((uart.elapse 0).now + timeout)
          (done.uart.elapse 0).now = true
      · rw [if_pos expired, if_pos expired]
        rfl
      · rw [if_neg expired, if_neg expired]
        rfl

/-- The clock goes on, and a loop that took nothing ends when the timer has
expired. -/
theorem getcharLoop_clock (hal : HalTimer) {endTime turns : Nat} {uart : Uart}
    {pch : UInt8} {done : Getchar} (formed : uart.ring.WellFormed)
    (returns : getcharLoop hal endTime pch turns uart = some done) :
    uart.now ≤ done.uart.now ∧
      (done.popped = [] → endTime ≤ done.uart.now) := by
  induction turns generalizing uart with
  | zero => cases returns
  | succ turns inductionHypothesis =>
      have pop := popOne formed
      have slept := Uart.elapse_now_le uart 10
      have tested := Uart.elapse_now_le (uart.elapse 10) 0
      rw [getcharLoop] at returns
      dsimp only at returns
      by_cases none : (ringBuffPopData uart.ring 1).ret = 0
      · rw [if_pos none] at returns
        by_cases expired :
            hal.expired endTime ((uart.elapse 10).elapse 0).now = true
        · rw [if_pos expired] at returns
          cases returns
          refine ⟨by dsimp only; omega, fun _ => ?_⟩
          by_contra early
          dsimp only at early
          rw [hal.before (Nat.lt_of_not_le early)] at expired
          cases expired
        · rw [if_neg expired] at returns
          obtain ⟨later, late⟩ := inductionHypothesis
            (Uart.elapse_formed (Uart.elapse_formed formed 10) 0) returns
          exact ⟨by omega, late⟩
      · rw [if_neg none] at returns
        cases returns
        refine ⟨Nat.le_refl _, fun nothing => absurd ?_ none⟩
        rw [pop.ret]
        dsimp only at nothing
        rw [nothing]
        rfl

/-- The clock goes on, and a call that took nothing has waited. -/
theorem atClientGetchar_clock (hal : HalTimer) {uart : Uart} {pch : UInt8}
    {timeout : Nat} {done : Getchar} (formed : uart.ring.WellFormed)
    (returns : atClientGetchar hal uart pch timeout = some done) :
    uart.now ≤ done.uart.now ∧
      (done.popped = [] → uart.now + timeout ≤ done.uart.now) := by
  have started := Uart.elapse_now_le uart 0
  unfold atClientGetchar at returns
  simp only [Option.bind_eq_bind, Option.bind_eq_some_iff] at returns
  obtain ⟨first, looped, last⟩ := returns
  obtain ⟨later, late⟩ :=
    getcharLoop_clock hal (Uart.elapse_formed formed 0) looped
  have tested := Uart.elapse_now_le first.uart 0
  have same : done.popped = first.popped ∧
      done.uart = first.uart.elapse 0 := by
    by_cases expired : hal.expired ((uart.elapse 0).now + timeout)
        (first.uart.elapse 0).now = true
    · rw [if_pos expired] at last
      cases last
      exact ⟨rfl, rfl⟩
    · rw [if_neg expired] at last
      cases last
      exact ⟨rfl, rfl⟩
  rw [same.1, same.2]
  refine ⟨by omega, fun nothing => ?_⟩
  have waited := late nothing
  omega

/-! ## Sequences of calls -/

/-- The bytes that some calls returned with success, those they took from the
ring buffer, and the state behind them. -/
structure Course where
  returned : List UInt8
  removed : List UInt8
  uart : Uart

/-- Calls of `at_client_getchar`, each with what is in `*pch` and its
timeout. -/
def getchars (hal : HalTimer) : List (UInt8 × Nat) → Uart → Option Course
  | [], uart => some ⟨[], [], uart⟩
  | (pch, timeout) :: calls, uart => do
      let done ← atClientGetchar hal uart pch timeout
      let rest ← getchars hal calls done.uart
      let returned := if done.ret = .successRet then [done.pch] else []
      some ⟨returned ++ rest.returned, done.popped ++ rest.removed, rest.uart⟩

/-- The byte each call takes is there in time. -/
def AllInTime (hal : HalTimer) : List (UInt8 × Nat) → Uart → Prop
  | [], _ => True
  | (pch, timeout) :: calls, uart =>
      InTime hal uart timeout ∧
        ∀ done, atClientGetchar hal uart pch timeout = some done →
          AllInTime hal calls done.uart

section Calls

variable {uart : Uart}

/-- What some calls return is what they take, but for the bytes that are not
there in time. -/
theorem getchars_returns (hal : HalTimer) (calls : List (UInt8 × Nat))
    (formed : uart.ring.WellFormed) :
    ∃ course, getchars hal calls uart = some course ∧
      uart.Conserves course.removed course.uart ∧
      course.returned.Sublist course.removed ∧
      (course.returned = course.removed ↔ AllInTime hal calls uart) := by
  induction calls generalizing uart with
  | nil =>
      exact ⟨⟨[], [], uart⟩, rfl, .refl uart, .refl _, iff_of_true rfl trivial⟩
  | cons call calls inductionHypothesis =>
      obtain ⟨pch, timeout⟩ := call
      obtain ⟨done, returns, reads⟩ :=
        atClientGetchar_reads hal formed pch timeout
      obtain ⟨rest, later, conserves, sublist, same⟩ :=
        inductionHypothesis reads.formed
      have others : AllInTime hal ((pch, timeout) :: calls) uart ↔
          InTime hal uart timeout ∧ AllInTime hal calls done.uart := by
        rw [AllInTime]
        simp only [returns, Option.some.injEq, forall_eq']
      rw [getchars, others, ← same]
      simp only [returns, later, Option.bind_eq_bind, Option.bind_some]
      refine ⟨_, rfl, reads.conserves.trans conserves, ?_, ?_⟩
      · cases reads with
        | took byte => exact sublist.cons_cons byte
        | late byte => exact sublist.cons byte
        | silent => exact sublist
      · cases reads with
        | took byte after _ _ inTime =>
            simp only [if_true, List.cons_append, List.nil_append,
              List.cons.injEq, true_and, inTime]
        | late byte after _ _ late =>
            refine iff_of_false (fun equal => ?_) (fun both => late both.1)
            have lengths := congrArg List.length equal
            have shorter := sublist.length_le
            dsimp only at lengths
            rw [if_neg (by decide)] at lengths
            simp only [List.nil_append, List.length_append,
              List.length_singleton] at lengths
            omega
        | silent after _ _ inTime =>
            dsimp only
            rw [if_neg (by decide), List.nil_append, List.nil_append]
            exact ⟨fun equal => ⟨inTime, equal⟩, fun both => both.2⟩

/-- A call of the reader is exact if and only if the byte it takes is there in
time; and what any sequence of calls returns with success are the bytes they
took from the ring buffer if and only if each of these is there in time. -/
theorem getchar_exact_iff (hal : HalTimer) (formed : uart.ring.WellFormed) :
    (∀ pch timeout, ∃ done,
      atClientGetchar hal uart pch timeout = some done ∧
        uart.Conserves done.popped done.uart ∧
        (done.Exact ↔ InTime hal uart timeout)) ∧
    ∀ calls, ∃ course, getchars hal calls uart = some course ∧
      uart.Conserves course.removed course.uart ∧
      (course.returned = course.removed ↔ AllInTime hal calls uart) := by
  constructor
  · intro pch timeout
    obtain ⟨done, returns, reads⟩ :=
      atClientGetchar_reads hal formed pch timeout
    exact ⟨done, returns, reads.conserves, reads.exact_iff⟩
  · intro calls
    obtain ⟨course, returns, conserves, -, same⟩ :=
      getchars_returns hal calls formed
    exact ⟨course, returns, conserves, same⟩

/-- A ring buffer of four bytes that holds one. -/
def oneByte : RingBuff :=
  arrive (ringBuffInit (fun _ => 0) 4) [65]

theorem oneByte_wellFormed : oneByte.WellFormed := ⟨by decide, by decide⟩

theorem getchar_exact_iff_oneByte :
    ∃ done, atClientGetchar .linux ⟨0, [], oneByte⟩ 0 100 = some done ∧
      (⟨0, [], oneByte⟩ : Uart).Conserves done.popped done.uart ∧
      (done.Exact ↔ InTime .linux ⟨0, [], oneByte⟩ 100) :=
  (getchar_exact_iff .linux oneByte_wellFormed).1 0 100

/-- The thread is not run for 200 milliseconds behind the pop: the byte is taken
and the call fails. -/
theorem lateByte_lost :
    ¬ ∀ (hal : HalTimer) (uart : Uart) (pch : UInt8) (timeout : Nat),
      uart.ring.WellFormed → ∀ done,
        atClientGetchar hal uart pch timeout = some done → done.Exact := by
  intro exactly
  have lost := (exactly .linux ⟨0, [⟨0, []⟩, ⟨200, []⟩], oneByte⟩ 0 100
    oneByte_wellFormed _ rfl).2 (by decide)
  exact absurd lost (by decide)

/-- What `at_client_obj_recv` stores are the bytes it took, but for a last one
that was not there in time; then it returns zero. -/
theorem atClientObjRecv_stores (hal : HalTimer) (timeout : Nat) (ch : UInt8)
    (left : Nat) (formed : uart.ring.WellFormed) (buf : List UInt8) :
    ∃ count stored lost after,
      objRecvLoop hal timeout ch left uart buf =
        some (count, buf ++ stored, after) ∧
      uart.Conserves (stored ++ lost) after ∧
      (count = (buf ++ stored).length ∧ stored.length = left ∧ lost = [] ∨
        count = 0 ∧ lost.length ≤ 1) := by
  induction left generalizing uart ch buf with
  | zero =>
      refine ⟨buf.length, [], [], uart, ?_, .refl uart, .inl ⟨?_, rfl, rfl⟩⟩
      · rw [List.append_nil]
        rfl
      · rw [List.append_nil]
  | succ left inductionHypothesis =>
      obtain ⟨done, returns, reads⟩ :=
        atClientGetchar_reads hal formed ch timeout
      rw [objRecvLoop]
      simp only [returns, Option.bind_eq_bind, Option.bind_some]
      have conserves := reads.conserves
      cases reads with
      | took byte middle middle_formed =>
          rw [if_neg (not_not_intro rfl)]
          obtain ⟨count, stored, lost, after, later, rest, outcome⟩ :=
            inductionHypothesis byte middle_formed (buf ++ [byte])
          rw [List.append_assoc] at later outcome
          refine ⟨count, byte :: stored, lost, after, later,
            conserves.trans rest, outcome.imp_left ?_⟩
          rintro ⟨counted, length, none⟩
          exact ⟨counted, by rw [List.length_cons, length], none⟩
      | late byte after =>
          rw [if_pos nofun]
          refine ⟨0, [], [byte], after, ?_, conserves,
            .inr ⟨rfl, Nat.le_refl _⟩⟩
          rw [List.append_nil]
      | silent after =>
          rw [if_pos nofun]
          refine ⟨0, [], [], after, ?_, conserves, .inr ⟨rfl, Nat.zero_le _⟩⟩
          rw [List.append_nil]

end Calls

end At
end UIoT
