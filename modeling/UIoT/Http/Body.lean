import UIoT.Http.Bounds
import UIoT.Http.Response

/-!
# Retrieving a body

What `_http_get_response_body` leaves in the response buffer when the bytes of
the body arrive in reads that are not empty: as many of them as are to be
retrieved, with a terminator.  Where more are to be retrieved than come, the
loop gives up after some time.
-/

namespace UIoT
namespace Http

/-! ## What runs end with -/

/-- With enough turns a run ends with a value, the code and the length of the
response, and the contents of the response buffer. -/
def Leaves (run : Nat → Session × Option HttpReturn) (ret : HttpReturn)
    (responseCode responseContentLen : Int) (contents : List UInt8) : Prop :=
  ∃ enough, ∀ turns, enough ≤ turns →
    (run turns).2 = some ret ∧
      (run turns).1.client.responseCode = responseCode ∧
      (run turns).1.data.responseContentLen = responseContentLen ∧
      (run turns).1.data.responseBuf = some contents

namespace Leaves

variable {run later : Nat → Session × Option HttpReturn} {ret : HttpReturn}
  {responseCode responseContentLen : Int} {contents : List UInt8}

/-- A run that takes some turns more than another ends as this one does. -/
theorem of_later (leaves :
      Leaves later ret responseCode responseContentLen contents)
    (more : Nat) (same : ∀ turns, run (turns + more) = later turns) :
    Leaves run ret responseCode responseContentLen contents := by
  obtain ⟨enough, ends⟩ := leaves
  refine ⟨enough + more, fun turns reached => ?_⟩
  have shifted := same (turns - more)
  rw [Nat.sub_add_cancel (by omega)] at shifted
  rw [shifted]
  exact ends _ (by omega)

/-- A run that ends at once. -/
theorem of_const {s : Session} (same : ∀ turns, run turns = (s, some ret))
    (code : s.client.responseCode = responseCode)
    (length : s.data.responseContentLen = responseContentLen)
    (buffer : s.data.responseBuf = some contents) :
    Leaves run ret responseCode responseContentLen contents := by
  refine ⟨0, fun turns _ => ?_⟩
  rw [same]
  exact ⟨rfl, code, length, buffer⟩

end Leaves

/-! ## Filling the buffer -/

theorem responseBuf_fillResponse {s : Session} {buffer : List UInt8}
    (held : s.data.responseBuf = some buffer) (count length : Int)
    (data : List UInt8) :
    (fillResponse s count data length).data.responseBuf =
      some (overlay (overlay buffer count.toNat (data.take length.toNat))
        (count + length).toNat [0]) := by
  simp [fillResponse, terminateResponse, copyToResponse, Session.use,
    Session.setRetrieveLen, held]

/-- The first bytes of a body, from the beginning of an array. -/
theorem fillResponse_first {s : Session} {buffer data : List UInt8}
    (held : s.data.responseBuf = some buffer) {length : Nat}
    (available : length ≤ data.length) (fits : length < buffer.length) :
    (fillResponse s 0 data length).data.responseBuf =
      some (headerArray (data.take length) buffer) := by
  have size : (data.take length).length = length :=
    List.length_take_of_le available
  have written : overlay (overlay buffer 0 (data.take length))
      (data.take length).length [0] = headerArray (data.take length) buffer :=
    overlay_first (size.trans_lt fits)
  rw [responseBuf_fillResponse held, ← written, size]
  simp

/-- Further bytes of a body. -/
theorem fillResponse_further {s : Session} {buffer done data : List UInt8}
    (held : s.data.responseBuf = some (headerArray done buffer)) {length : Nat}
    (available : length ≤ data.length)
    (fits : done.length + length < buffer.length) :
    (fillResponse s done.length data length).data.responseBuf =
      some (headerArray (done ++ data.take length) buffer) := by
  have size : (data.take length).length = length :=
    List.length_take_of_le available
  have written : overlay (overlay (headerArray done buffer) done.length
      (data.take length)) (done.length + (data.take length).length) [0] =
        headerArray (done ++ data.take length) buffer :=
    overlay_headerArray (by rw [size]; exact fits)
  rw [responseBuf_fillResponse held, ← written, size]
  congr 3

/-! ## Waiting in vain -/

/-- The timer runs on, or is extended. -/
def extended (clock : Nat) (patience : Patience) : Patience :=
  if leftMs patience.timer clock < minTimeout then
    { patience with
      timer := .countdownMs clock minTimeout.toNat
      extendCount := patience.extendCount + 1 }
  else patience

theorem giveUp_eq (patience : Patience) {first second : Prop}
    [Decidable first] [Decidable second] :
    (if first then (patience, IoTError.errHttpConnError)
      else if second then (patience, .errHttpConnError)
      else (patience, .successRet)) =
      (patience,
        if first ∨ second then .errHttpConnError else .successRet) := by
  by_cases one : first
  · rw [if_pos one, if_pos (.inl one)]
  · by_cases two : second
    · rw [if_neg one, if_pos two, if_pos (.inr two)]
    · rw [if_neg one, if_neg two, if_neg (not_or.mpr ⟨one, two⟩)]

/-- The check gives up only when nothing was read, and goes on then only while
the timer has not been extended too often. -/
theorem utilsCheckDeadloop_eq (len clock : Nat) (patience : Patience)
    (ret : IoTError) :
    ∃ (deadLoopCount : Nat) (dead : Prop) (_ : Decidable dead),
      (dead → len = 0) ∧
      utilsCheckDeadloop len clock patience ret =
        ({ extended clock patience with deadLoopCount },
          if dead ∨ len = 0 ∧
              2 * maxRetryCount < (extended clock patience).extendCount ∧
              ret = .failureRet then
            .errHttpConnError
          else .successRet) := by
  unfold utilsCheckDeadloop extended
  by_cases low : leftMs patience.timer clock < minTimeout
  · rw [if_pos low]
    dsimp only
    rw [giveUp_eq]
    exact ⟨_, _, _, fun dead => dead.1.1, rfl⟩
  · rw [if_neg low]
    dsimp only
    rw [giveUp_eq]
    exact ⟨_, _, _, fun dead => dead.1.1, rfl⟩

theorem giveUp_facts {result : Patience × IoTError} {patience : Patience}
    {deadLoopCount len : Nat} {ret : IoTError} {dead : Prop} [Decidable dead]
    (nothing : dead → len = 0)
    (same : result =
      ({ patience with deadLoopCount },
        if dead ∨ len = 0 ∧ 2 * maxRetryCount < patience.extendCount ∧
            ret = .failureRet then
          .errHttpConnError
        else .successRet)) :
    result.1.timer = patience.timer ∧
      result.1.extendCount = patience.extendCount ∧
      (len ≠ 0 → result.2 = .successRet) ∧
      (len = 0 → ret = .failureRet → result.2 ≠ .errHttpConnError →
        patience.extendCount ≤ 2 * maxRetryCount) := by
  subst same
  refine ⟨rfl, rfl, fun brought => ?_, fun empty failed goesOn => ?_⟩
  · exact if_neg (not_or.mpr ⟨fun gone => brought (nothing gone),
      fun gone => brought gone.1⟩)
  · by_contra often
    exact goesOn (if_pos (.inr ⟨empty, Nat.lt_of_not_le often, failed⟩))

theorem checkRead_facts (bytes : List UInt8) (clock : Nat)
    (patience : Patience) :
    (checkRead bytes clock patience).1.timer =
        (extended clock patience).timer ∧
      (checkRead bytes clock patience).1.extendCount =
        (extended clock patience).extendCount ∧
      (bytes.length ≠ 0 → (checkRead bytes clock patience).2 = .successRet) ∧
      (bytes.length = 0 → (if bytes = [] then IoTError.failureRet
          else .successRet) = .failureRet →
        (checkRead bytes clock patience).2 ≠ .errHttpConnError →
        (extended clock patience).extendCount ≤ 2 * maxRetryCount) := by
  obtain ⟨_, _, _, nothing, same⟩ := utilsCheckDeadloop_eq bytes.length clock
    patience (if bytes = [] then .failureRet else .successRet)
  exact giveUp_facts nothing same

/-- A read that brings bytes is no sign of a dead loop. -/
theorem checkRead_bytes {bytes : List UInt8} (nonempty : bytes ≠ [])
    (clock : Nat) (patience : Patience) :
    (checkRead bytes clock patience).2 = .successRet :=
  (checkRead_facts bytes clock patience).2.2.1 fun zero =>
    nonempty (List.eq_nil_of_length_eq_zero zero)

theorem lt_endTime_of_leftMs {timer : Mqtt.Timer} {clock : Nat}
    (left : minTimeout ≤ leftMs timer clock) : clock < timer.endTime := by
  by_contra expired
  have none : timer.leftMs clock = 0 := by
    unfold Mqtt.Timer.leftMs
    rw [Nat.sub_eq_zero_of_le (Nat.le_of_not_lt expired)]
  unfold leftMs at left
  rw [none] at left
  exact absurd left (by decide)

/-- A read in vain uses up the timer or one of its extensions, unless it is the
last. -/
theorem checkRead_nil {clock : Nat} {patience : Patience}
    (goesOn : (checkRead [] clock patience).2 ≠ .errHttpConnError) :
    (checkRead [] clock patience).1.extendCount = patience.extendCount + 1 ∧
        patience.extendCount < 2 * maxRetryCount ∨
      (checkRead [] clock patience).1.extendCount = patience.extendCount ∧
        (checkRead [] clock patience).1.timer = patience.timer ∧
        clock < patience.timer.endTime := by
  obtain ⟨timer, count, -, few⟩ := checkRead_facts [] clock patience
  have few := few rfl (if_pos rfl) goesOn
  rw [timer, count]
  by_cases low : leftMs patience.timer clock < minTimeout
  · left
    have step : extended clock patience =
        { patience with
          timer := .countdownMs clock minTimeout.toNat
          extendCount := patience.extendCount + 1 } := if_pos low
    rw [step] at few ⊢
    exact ⟨rfl, few⟩
  · right
    have step : extended clock patience = patience := if_neg low
    rw [step]
    exact ⟨rfl, rfl, lt_endTime_of_leftMs (not_lt.mp low)⟩

/-- The session behind a read of the body and the copying of what it brought. -/
def Session.afterBodyRead (s : Session) (written : Int)
    (chunk buf : List UInt8) (timeoutMs : Nat) : Session :=
  fillResponse
    (s.afterRead buf.length 0 (bodyMaxLen s written) timeoutMs)
    written (overlay buf 0 chunk) chunk.length

/-- A turn that brings no more than is to be retrieved and goes on. -/
theorem behindFill_turn {timeoutMs turns elapsed : Nat} {s : Session}
    {buf chunk : List UInt8} {written : Int} {patience : Patience}
    {rest : List Arrival} (undone : s.data.retrieveLen ≠ 0)
    (read : netRead s.client.arrivals (bodyMaxLen s written).toNat timeoutMs =
      (⟨elapsed, .ok chunk⟩, rest))
    (due : (chunk.length : Int) ≤ s.data.retrieveLen)
    (room : written + chunk.length < s.data.responseBufLen - 1)
    (goesOn : (checkRead chunk (s.client.clock + elapsed) patience).2 ≠
      .errHttpConnError) :
    behindFill timeoutMs (turns + 1) s buf written patience =
      behindFill timeoutMs turns (s.afterBodyRead written chunk buf timeoutMs)
        (overlay buf 0 chunk) (written + chunk.length)
        (checkRead chunk (s.client.clock + elapsed) patience).1 := by
  have clock : (s.afterRead buf.length 0 (bodyMaxLen s written)
      timeoutMs).client.clock = s.client.clock + elapsed := by
    change s.client.clock + (netRead s.client.arrivals
      (bodyMaxLen s written).toNat timeoutMs).1.elapsed = _
    rw [read]
  rw [behindFill_ok undone read]
  dsimp only
  rw [clock, if_neg goesOn, bodyLoop_eq]
  have all : min (chunk.length : Int) (s.afterRead buf.length 0
      (bodyMaxLen s written) timeoutMs).data.retrieveLen = chunk.length :=
    min_eq_left due
  dsimp only
  rw [all]
  exact if_pos room

/-- When nothing more comes, the loop gives up. -/
theorem behindFill_waiting {timeoutMs : Nat} {s : Session}
    {buf done buffer : List UInt8} {patience : Patience}
    (silent : s.client.arrivals = [])
    (held : s.data.responseBuf = some (headerArray done buffer))
    (undone : 0 < s.data.retrieveLen)
    (room : done.length + 1 < buffer.length)
    (size : (buffer.length : Int) = s.data.responseBufLen) :
    Leaves (fun turns => behindFill timeoutMs turns s buf done.length patience)
      (.code .errHttpConnError) s.client.responseCode s.data.responseContentLen
      (headerArray done buffer) := by
  have read : netRead s.client.arrivals
      (bodyMaxLen s done.length).toNat timeoutMs =
        (⟨max 1 (timeoutMs * 1000), .ok []⟩, []) := by
    rw [silent]
    rfl
  by_cases failed : (checkRead [] (s.client.clock + max 1 (timeoutMs * 1000))
    patience).2 = .errHttpConnError
  · have ends (turns : Nat) :
        behindFill timeoutMs turns s buf done.length patience =
          (s.afterRead buf.length 0 (bodyMaxLen s done.length) timeoutMs,
            some (.code .errHttpConnError)) := by
      have clock : (s.afterRead buf.length 0 (bodyMaxLen s done.length)
          timeoutMs).client.clock =
            s.client.clock + max 1 (timeoutMs * 1000) := by
        change s.client.clock + (netRead s.client.arrivals
          (bodyMaxLen s done.length).toNat timeoutMs).1.elapsed = _
        rw [read]
      rw [behindFill_ok undone.ne' read]
      dsimp only
      rw [clock, if_pos failed]
    exact .of_const ends rfl rfl held
  · have shrinks := checkRead_nil failed
    have refilled :
        (s.afterBodyRead done.length [] buf timeoutMs).data.responseBuf =
          some (headerArray (done ++ (overlay buf 0 []).take 0) buffer) :=
      fillResponse_further held (Nat.zero_le _)
        (by rw [List.length_nil]; omega)
    rw [List.take_zero, List.append_nil] at refilled
    have quiet : (s.afterBodyRead done.length [] buf timeoutMs).client.arrivals =
        [] := by
      change (netRead s.client.arrivals
        (bodyMaxLen s done.length).toNat timeoutMs).2 = _
      rw [read]
    have left : 0 < (s.afterBodyRead done.length [] buf
        timeoutMs).data.retrieveLen := by
      change 0 < s.data.retrieveLen - 0
      omega
    have next : Leaves
        (fun turns => behindFill timeoutMs turns
          (s.afterBodyRead done.length [] buf timeoutMs) (overlay buf 0 [])
          done.length
          (checkRead [] (s.client.clock + max 1 (timeoutMs * 1000))
            patience).1)
        (.code .errHttpConnError) s.client.responseCode
        s.data.responseContentLen (headerArray done buffer) :=
      behindFill_waiting quiet refilled left room size
    apply next.of_later 1
    intro turns
    have fits : (done.length : Int) + ([] : List UInt8).length <
        s.data.responseBufLen - 1 := by
      rw [← size, List.length_nil]
      omega
    rw [behindFill_turn undone.ne' read undone.le fits failed]
    rfl
termination_by (2 * maxRetryCount - patience.extendCount,
  patience.timer.endTime - s.client.clock)
decreasing_by
  have later : (s.afterBodyRead done.length [] buf timeoutMs).client.clock =
      s.client.clock + max 1 (timeoutMs * 1000) := by
    change s.client.clock + (netRead s.client.arrivals
      (bodyMaxLen s done.length).toNat timeoutMs).1.elapsed = _
    rw [read]
  rcases shrinks with ⟨more, few⟩ | ⟨same, timer, before⟩
  · apply Prod.Lex.left
    rw [more]
    omega
  · rw [same, timer, later]
    apply Prod.Lex.right
    omega

/-! ## Retrieving what comes -/

theorem take_overlay {buf chunk : List UInt8}
    (within : chunk.length ≤ buf.length) :
    (overlay buf 0 chunk).take chunk.length = chunk := by
  rw [overlay_eq (by omega), List.take_zero, List.nil_append, List.take_left]

/-- A read of a body brings bytes, which are copied behind those before. -/
structure Session.Brings (s : Session) (timeoutMs : Nat)
    (buf done buffer : List UInt8) (patience : Patience) (elapsed : Nat)
    (chunk : List UInt8) (later : List Arrival) (behind : List UInt8) :
    Prop where
  read : netRead s.client.arrivals (bodyMaxLen s done.length).toNat
    timeoutMs = (⟨elapsed, .ok chunk⟩, later)
  nonempty : chunk ≠ []
  due : (chunk.length : Int) ≤ s.data.retrieveLen
  room : done.length + chunk.length + 1 ≤ buffer.length
  goesOn : (checkRead chunk (s.client.clock + elapsed) patience).2 ≠
    .errHttpConnError
  refilled : (s.afterBodyRead done.length chunk buf
    timeoutMs).data.responseBuf = some (headerArray (done ++ chunk) buffer)
  incoming : Delivers (s.afterBodyRead done.length chunk buf
    timeoutMs).client.arrivals behind

/-- While bytes come, are to be retrieved and have room, a read brings the
first of them. -/
theorem Session.exists_brings (s : Session) (timeoutMs : Nat)
    (patience : Patience) {buf done rest buffer : List UInt8}
    (delivers : Delivers s.client.arrivals rest) (left : rest ≠ [])
    (held : s.data.responseBuf = some (headerArray done buffer))
    (owed : 0 < s.data.retrieveLen)
    (array : buf.length = httpClientReadBufSize)
    (room : done.length + 1 < buffer.length)
    (size : (buffer.length : Int) = s.data.responseBufLen) :
    ∃ elapsed chunk later behind, rest = chunk ++ behind ∧
      s.Brings timeoutMs buf done buffer patience elapsed chunk later
        behind := by
  have chunkSize : (httpClientChunkSize : Int) = 1024 := rfl
  have bufSize : buf.length = 1024 := array
  have asked : 0 < (bodyMaxLen s done.length).toNat := by
    unfold bodyMaxLen
    omega
  obtain ⟨elapsed, chunk, later, behind, read, split, delivered, brings⟩ :=
    delivers.read (bodyMaxLen s done.length).toNat timeoutMs
  have nonempty := brings left asked
  have short := length_netRead read
  unfold bodyMaxLen at short
  have within : chunk.length ≤ buf.length := by omega
  have refilled : (s.afterBodyRead done.length chunk buf
      timeoutMs).data.responseBuf =
        some (headerArray (done ++ (overlay buf 0 chunk).take chunk.length)
          buffer) :=
    fillResponse_further held (by rw [length_overlay]; exact within)
      (by omega)
  rw [take_overlay within] at refilled
  refine ⟨elapsed, chunk, later, behind, split, read, nonempty, by omega,
    by omega, ?_, refilled, ?_⟩
  · rw [checkRead_bytes nonempty]
    decide
  · change Delivers (netRead s.client.arrivals
      (bodyMaxLen s done.length).toNat timeoutMs).2 behind
    rw [read]
    exact delivered

/-- How a run over the body ends: with success when as many bytes have come as
were to be retrieved. -/
def bodyRet (due : Int) (available : Nat) : HttpReturn :=
  if due ≤ available then .code .successRet else .code .errHttpConnError

/-- The loop over the body copies what comes, up to what is to be retrieved. -/
theorem behindFill_leaves {timeoutMs : Nat} {s : Session}
    {buf done rest buffer : List UInt8} {patience : Patience}
    (delivers : Delivers s.client.arrivals rest)
    (held : s.data.responseBuf = some (headerArray done buffer))
    (nonnegative : 0 ≤ s.data.retrieveLen)
    (array : buf.length = httpClientReadBufSize)
    (room : done.length + rest.length + 1 < buffer.length)
    (size : (buffer.length : Int) = s.data.responseBufLen) :
    Leaves (fun turns => behindFill timeoutMs turns s buf done.length patience)
      (bodyRet s.data.retrieveLen rest.length) s.client.responseCode
      s.data.responseContentLen
      (headerArray (done ++ rest.take s.data.retrieveLen.toNat) buffer) := by
  by_cases finished : s.data.retrieveLen = 0
  · have ends (turns : Nat) :
        behindFill timeoutMs turns s buf done.length patience =
          ({ s with data := { s.data with isMore := false } },
            some (.code .successRet)) :=
      behindFill_done finished
    have success : bodyRet s.data.retrieveLen rest.length =
        .code .successRet := if_pos (by omega)
    rw [success, finished, Int.toNat_zero, List.take_zero, List.append_nil]
    exact .of_const ends rfl rfl held
  · by_cases empty : rest = []
    · subst empty
      have failure : bodyRet s.data.retrieveLen ([] : List UInt8).length =
          .code .errHttpConnError := if_neg (by rw [List.length_nil]; omega)
      rw [failure, List.take_nil, List.append_nil]
      exact behindFill_waiting delivers.eq_nil held (by omega)
        (by rw [List.length_nil] at room; omega) size
    · obtain ⟨elapsed, chunk, later, behind, split, brings⟩ :=
        s.exists_brings timeoutMs patience delivers empty held (by omega) array
          (by omega) size
      have shorter : behind.length < rest.length := by
        have positive := List.length_pos_iff.mpr brings.nonempty
        rw [split, List.length_append]
        omega
      have due := brings.due
      rw [split, List.length_append] at room
      have fits : (done.length : Int) + chunk.length <
          s.data.responseBufLen - 1 := by
        omega
      have next : Leaves
          (fun turns => behindFill timeoutMs turns
            (s.afterBodyRead done.length chunk buf timeoutMs)
            (overlay buf 0 chunk) (done ++ chunk).length
            (checkRead chunk (s.client.clock + elapsed) patience).1) _ _ _ _ :=
        behindFill_leaves brings.incoming brings.refilled
          (Int.sub_nonneg_of_le due)
          ((length_overlay ..).trans array)
          (by rw [List.length_append]; omega) size
      have sum : (((done ++ chunk).length : Nat) : Int) =
          done.length + chunk.length := by
        rw [List.length_append]
        exact Int.natCast_add ..
      have left : (s.afterBodyRead done.length chunk buf
          timeoutMs).data.retrieveLen = s.data.retrieveLen - chunk.length := rfl
      have ret : bodyRet (s.data.retrieveLen - chunk.length) behind.length =
          bodyRet s.data.retrieveLen rest.length := by
        unfold bodyRet
        rw [split, List.length_append]
        congr 1
        apply propext
        omega
      have contents : done ++ chunk ++
          behind.take (s.data.retrieveLen - chunk.length).toNat =
            done ++ rest.take s.data.retrieveLen.toNat := by
        rw [split, List.append_assoc, List.take_append,
          List.take_of_length_le (by omega : chunk.length ≤ _)]
        congr 3
        omega
      rw [left, ret, contents, sum] at next
      apply next.of_later 1
      intro turns
      exact behindFill_turn finished brings.read due fits brings.goesOn
termination_by rest.length
decreasing_by
  exact shorter

/-- The body is copied from what has come with the header and what comes
later. -/
theorem httpGetResponseBody_leaves {timeoutMs : Nat} {s : Session}
    {data begun rest buffer : List UInt8}
    (delivers : Delivers s.client.arrivals rest)
    (held : s.data.responseBuf = some buffer)
    (nonnegative : 0 ≤ s.data.retrieveLen)
    (declared : s.data.responseContentLen ≠ -1)
    (array : data.length = httpClientReadBufSize)
    (begins : data.take begun.length = begun)
    (room : begun.length + rest.length + 1 < buffer.length)
    (size : (buffer.length : Int) = s.data.responseBufLen) :
    Leaves (fun turns => httpGetResponseBody turns s data begun.length timeoutMs)
      (bodyRet s.data.retrieveLen (begun ++ rest).length) s.client.responseCode
      s.data.responseContentLen
      (headerArray ((begun ++ rest).take s.data.retrieveLen.toNat) buffer) := by
  obtain ⟨count, least⟩ : ∃ count : Nat,
      min (begun.length : Int) s.data.retrieveLen = count :=
    Int.eq_ofNat_of_zero_le (by omega)
  have available : count ≤ begun.length := by omega
  have within : begun.length ≤ data.length := by
    rw [← begins, List.length_take]
    exact Nat.min_le_right ..
  have copied : data.take count = begun.take count := by
    have shortened := congrArg (List.take count) begins
    rw [List.take_take, Nat.min_eq_left available] at shortened
    exact shortened
  have doneLength : (begun.take count).length = count :=
    List.length_take_of_le available
  set started : Session := { s with data := { s.data with isMore := true } }
  have filled : (fillResponse started 0 data count).data.responseBuf =
      some (headerArray (begun.take count) buffer) := by
    rw [← copied]
    exact fillResponse_first held (by omega) (by omega)
  have next : Leaves
      (fun turns => behindFill timeoutMs turns
        (fillResponse started 0 data count) data (begun.take count).length
        ⟨.countdownMs s.client.clock timeoutMs, 0, 0⟩) _ _ _ _ :=
    behindFill_leaves delivers filled
      (by change 0 ≤ s.data.retrieveLen - count; omega) array
      (by rw [doneLength]; omega) size
  have ret : bodyRet (s.data.retrieveLen - count) rest.length =
      bodyRet s.data.retrieveLen (begun ++ rest).length := by
    unfold bodyRet
    rw [List.length_append]
    congr 1
    apply propext
    omega
  have contents : begun.take count ++
      rest.take (s.data.retrieveLen - count).toNat =
        (begun ++ rest).take s.data.retrieveLen.toNat := by
    rw [List.take_append]
    by_cases whole : (begun.length : Int) ≤ s.data.retrieveLen
    · have all : count = begun.length := by omega
      have uncut : begun.take s.data.retrieveLen.toNat = begun :=
        List.take_of_length_le (by omega)
      rw [all, List.take_length, uncut]
      congr 2
      omega
    · have due : s.data.retrieveLen.toNat = count := by omega
      have none : (s.data.retrieveLen - count).toNat = 0 := by omega
      rw [due, none, List.take_zero, Nat.sub_eq_zero_of_le available,
        List.take_zero]
  have left : (fillResponse started 0 data count).data.retrieveLen =
      s.data.retrieveLen - count := rfl
  rw [left, ret, contents, doneLength] at next
  apply next.of_later 1
  intro turns
  have undeclared : ¬(s.data.responseContentLen = -1 ∧ s.data.isChunked = 0) :=
    fun both => declared both.1
  change (if s.data.responseContentLen = -1 ∧ s.data.isChunked = 0 then _
    else bodyLoop timeoutMs (turns + 1) started data 0 begun.length _) = _
  have fits : (0 : Int) + count < s.data.responseBufLen - 1 := by omega
  rw [if_neg undeclared, bodyLoop_eq]
  change (if (0 : Int) + min (begun.length : Int) s.data.retrieveLen <
    s.data.responseBufLen - 1 then _ else _) = _
  rw [least, if_pos fits, Int.zero_add]

end Http
end UIoT
