import UIoT.Http.Body
import UIoT.Http.Safety
import Mathlib.Data.List.Infix

/-!
# Reading into silence

What `http_client_recv_data` does when the stream stops.  The loop over the body
counts how long it has waited and always ends; the loop over the header does
not, and it ends only if the blank line comes.
-/

namespace UIoT
namespace Http

/-! ## Streams -/

/-- The bytes of the arrivals. -/
def arrived : List Arrival → List UInt8
  | [] => []
  | ⟨_, .ok bytes⟩ :: arrivals => bytes ++ arrived arrivals
  | ⟨_, .error _⟩ :: arrivals => arrived arrivals

/-- How much there is to read: every arrival and each of its bytes. -/
def weight : List Arrival → Nat
  | [] => 0
  | ⟨_, .ok bytes⟩ :: arrivals => bytes.length + 1 + weight arrivals
  | ⟨_, .error _⟩ :: arrivals => 1 + weight arrivals

/-- None of the reads fails. -/
def Unbroken (arrivals : List Arrival) : Prop :=
  ∀ arrival ∈ arrivals, ∃ bytes, arrival.result = .ok bytes

/-- A read takes its bytes from the front of the stream. -/
theorem arrived_netRead {arrivals rest : List Arrival}
    {room timeoutMs elapsed : Nat} {bytes : List UInt8}
    (read : netRead arrivals room timeoutMs = (⟨elapsed, .ok bytes⟩, rest)) :
    arrived arrivals = bytes ++ arrived rest := by
  unfold netRead at read
  split at read
  · cases read
    rfl
  · cases read
  · split at read
    · cases read
      rfl
    · cases read
      rw [arrived, arrived, ← List.append_assoc, List.take_append_drop]

/-- As long as something is there, a read makes it less. -/
theorem weight_netRead {arrivals rest : List Arrival}
    {room timeoutMs elapsed : Nat} {bytes : List UInt8} (positive : 0 < room)
    (read : netRead arrivals room timeoutMs = (⟨elapsed, .ok bytes⟩, rest)) :
    arrivals = [] ∧ rest = [] ∧ bytes = [] ∨
      weight rest < weight arrivals := by
  unfold netRead at read
  split at read
  · cases read
    exact .inl ⟨rfl, rfl, rfl⟩
  · cases read
  · right
    split at read
    · cases read
      rw [weight]
      omega
    · cases read
      rw [weight, weight, List.length_drop]
      omega

theorem Unbroken.read {arrivals : List Arrival} (unbroken : Unbroken arrivals)
    (room timeoutMs : Nat) :
    ∃ elapsed bytes rest,
      netRead arrivals room timeoutMs = (⟨elapsed, .ok bytes⟩, rest) ∧
        Unbroken rest := by
  match arrivals, unbroken with
  | [], unbroken => exact ⟨_, _, _, rfl, unbroken⟩
  | ⟨_, .error _⟩ :: _, unbroken =>
      obtain ⟨_, impossible⟩ := unbroken _ List.mem_cons_self
      cases impossible
  | ⟨elapsed, .ok bytes⟩ :: arrivals, unbroken =>
      have later : Unbroken arrivals := fun arrival mem =>
        unbroken arrival (List.mem_cons_of_mem _ mem)
      unfold netRead
      dsimp only
      split
      · exact ⟨_, _, _, rfl, later⟩
      · refine ⟨_, _, _, rfl, ?_⟩
        intro arrival mem
        rcases List.mem_cons.mp mem with rfl | mem
        · exact ⟨_, rfl⟩
        · exact later arrival mem

/-- What is left of a stream that fails can fail. -/
theorem Unbroken.of_read {arrivals rest : List Arrival}
    {room timeoutMs elapsed : Nat} {bytes : List UInt8}
    (unbroken : Unbroken rest)
    (read : netRead arrivals room timeoutMs = (⟨elapsed, .ok bytes⟩, rest)) :
    Unbroken arrivals := by
  unfold netRead at read
  split at read
  · exact fun _ mem => absurd mem List.not_mem_nil
  · cases read
  · split at read
    · cases read
      exact List.forall_mem_cons.mpr ⟨⟨_, rfl⟩, unbroken⟩
    · cases read
      exact List.forall_mem_cons.mpr
        ⟨⟨_, rfl⟩, fun arrival mem =>
          unbroken arrival (List.mem_cons_of_mem _ mem)⟩

/-! ## Runs that return -/

/-- With enough turns of its loops the run returns a value. -/
def Returning {σ ρ : Type} (run : Nat → σ × Option ρ) : Prop :=
  ∃ enough, ∀ turns, enough ≤ turns → (run turns).2.isSome

namespace Returning

variable {σ ρ : Type} {run later : Nat → σ × Option ρ}

/-- A run that takes some turns more than another returns as this one does. -/
theorem of_later (returning : Returning later) (more : Nat)
    (same : ∀ turns, run (turns + more) = later turns) : Returning run := by
  obtain ⟨enough, ends⟩ := returning
  refine ⟨enough + more, fun turns reached => ?_⟩
  have shifted := same (turns - more)
  rw [Nat.sub_add_cancel (by omega)] at shifted
  rw [shifted]
  exact ends _ (by omega)

/-- A run that returns at once. -/
theorem of_const {s : σ} {ret : ρ}
    (same : ∀ turns, run turns = (s, some ret)) : Returning run :=
  ⟨0, fun turns _ => by rw [same]; rfl⟩

end Returning

/-! ## The body -/

section Body

variable {timeoutMs : Nat}

/-- A turn of the loop over the body returns if the read behind it does, where
there is something to be retrieved and room for it. -/
theorem bodyLoop_returning {s : Session} {buf : List UInt8} {written : Int}
    {dataLen : Nat} {patience : Patience}
    (next : ∀ after : Session, after.client = s.client →
      after.data.responseBufLen = s.data.responseBufLen →
      0 < after.data.retrieveLen →
      written + dataLen < after.data.responseBufLen - 1 →
      Returning fun turns => behindFill timeoutMs turns after buf
        (written + dataLen) patience) :
    Returning fun turns =>
      bodyLoop timeoutMs turns s buf written dataLen patience := by
  have turn (turns : Nat) :=
    bodyLoop_eq timeoutMs turns s buf written dataLen patience
  dsimp only at turn
  by_cases fits : written + min (dataLen : Int) s.data.retrieveLen <
      s.data.responseBufLen - 1
  · simp only [if_pos fits] at turn
    by_cases due : (dataLen : Int) < s.data.retrieveLen
    · rw [min_eq_left due.le] at turn fits
      have left : 0 < (fillResponse s written buf dataLen).data.retrieveLen :=
        Int.sub_pos_of_lt due
      have returns := next (fillResponse s written buf dataLen) rfl rfl left
        fits
      exact returns.of_later 1 turn
    · rw [min_eq_right (not_lt.mp due)] at turn
      have none : (fillResponse s written buf
          s.data.retrieveLen).data.retrieveLen = 0 := Int.sub_self _
      have returns : Returning fun turns => behindFill timeoutMs turns
          (fillResponse s written buf s.data.retrieveLen) buf
          (written + s.data.retrieveLen) patience :=
        .of_const fun _ => behindFill_done none
      exact returns.of_later 1 turn
  · simp only [if_neg fits] at turn
    exact (Returning.of_const fun _ => rfl).of_later 1 turn

/-- The loop over the body ends, whatever comes: as long as there are bytes they
are read, and behind them it loses its patience. -/
theorem behindFill_returning {s : Session} {buf : List UInt8} {written : Int}
    {patience : Patience} (due : 0 < s.data.retrieveLen)
    (room : written < s.data.responseBufLen - 1) :
    Returning fun turns =>
      behindFill timeoutMs turns s buf written patience := by
  have asked : 0 < (bodyMaxLen s written).toNat := by
    have cap : (0 : Int) < (httpClientChunkSize : Int) - 1 := by decide
    unfold bodyMaxLen
    omega
  rcases read : netRead s.client.arrivals (bodyMaxLen s written).toNat timeoutMs
    with ⟨⟨elapsed, error | bytes⟩, rest⟩
  · exact .of_const fun _ => behindFill_error due.ne' read
  · have clock : (s.afterRead buf.length 0 (bodyMaxLen s written)
        timeoutMs).client.clock = s.client.clock + elapsed := by
      change s.client.clock + (netRead s.client.arrivals
        (bodyMaxLen s written).toNat timeoutMs).1.elapsed = _
      rw [read]
    have arrivals : (s.afterRead buf.length 0 (bodyMaxLen s written)
        timeoutMs).client.arrivals = rest := by
      change (netRead s.client.arrivals
        (bodyMaxLen s written).toNat timeoutMs).2 = _
      rw [read]
    have run (turns : Nat) :
        behindFill timeoutMs turns s buf written patience = _ :=
      behindFill_ok due.ne' read
    simp only [clock] at run
    by_cases failed : (checkRead bytes (s.client.clock + elapsed) patience).2 =
        .errHttpConnError
    · simp only [if_pos failed] at run
      exact .of_const run
    · simp only [if_neg failed] at run
      have returns : Returning fun turns => bodyLoop timeoutMs turns
          (s.afterRead buf.length 0 (bodyMaxLen s written) timeoutMs)
          (overlay buf 0 bytes) written bytes.length
          (checkRead bytes (s.client.clock + elapsed) patience).1 := by
        apply bodyLoop_returning
        intro after client bufLen more fits
        have remaining : after.client.arrivals = rest := client ▸ arrivals
        have now : after.client.clock = s.client.clock + elapsed :=
          client ▸ clock
        exact behindFill_returning more fits
      exact returns.of_later 0 run
termination_by (weight s.client.arrivals,
  2 * maxRetryCount - patience.extendCount,
  patience.timer.endTime - s.client.clock)
decreasing_by
  rw [remaining, now]
  rcases weight_netRead asked read with ⟨none, noRest, nothing⟩ | less
  · -- behind the stream: the patience grows less
    subst nothing
    have waits : 0 < elapsed := by
      rw [none] at read
      have same := congrArg (fun result => result.1.elapsed) read
      change max 1 (timeoutMs * 1000) = elapsed at same
      omega
    rw [none, noRest]
    apply Prod.Lex.right
    rcases checkRead_nil failed with ⟨more, few⟩ | ⟨same, timer, before⟩
    · apply Prod.Lex.left
      rw [more]
      omega
    · rw [same, timer]
      apply Prod.Lex.right
      omega
  · exact Prod.Lex.left _ _ less

/-- The loop over the body returns wherever it begins. -/
theorem httpGetResponseBody_returning (s : Session) (data : List UInt8)
    (dataLen : Nat) :
    Returning fun turns =>
      httpGetResponseBody turns s data dataLen timeoutMs := by
  unfold httpGetResponseBody
  dsimp only
  split
  · exact .of_const fun _ => rfl
  · exact bodyLoop_returning fun _ _ _ due room =>
      behindFill_returning due room

/-- So does what follows the loop over the header. -/
theorem parseHeaderText_returning (s : Session) (header : HeaderText) :
    Returning fun turns => parseHeaderText turns s header timeoutMs := by
  unfold parseHeaderText
  split
  · exact .of_const fun _ => rfl
  · exact httpGetResponseBody_returning _ _ _

end Body

/-! ## The array of the header -/

/-- A text with its terminator over what was there, as far as the array goes. -/
def cutArray (text stale : List UInt8) : List UInt8 :=
  (headerArray text stale).take stale.length

theorem cutArray_of_fits {text stale : List UInt8}
    (fits : text.length < stale.length) :
    cutArray text stale = headerArray text stale :=
  List.take_of_length_le (length_headerArray fits).le

theorem cutArray_of_full {text stale : List UInt8}
    (full : stale.length ≤ text.length) :
    cutArray text stale = text.take stale.length :=
  List.take_append_of_le_length full

theorem length_cutArray (text stale : List UInt8) :
    (cutArray text stale).length = stale.length := by
  by_cases fits : text.length < stale.length
  · rw [cutArray_of_fits fits, length_headerArray fits]
  · rw [cutArray_of_full (not_lt.mp fits), List.length_take]
    exact Nat.min_eq_left (not_lt.mp fits)

/-- The string functions see the part of the text that is in the array. -/
theorem cString_cutArray (text stale : List UInt8) :
    cString (cutArray text stale) = visible (text.take stale.length) := by
  by_cases fits : text.length < stale.length
  · rw [cutArray_of_fits fits, cString_headerArray,
      List.take_of_length_le fits.le]
  · rw [cutArray_of_full (not_lt.mp fits)]
    rfl

/-- Nothing is written behind an array. -/
theorem overlay_behind {buffer : List UInt8} {offset : Nat}
    (behind : buffer.length ≤ offset) (bytes : List UInt8) :
    overlay buffer offset bytes = buffer := by
  unfold overlay
  rw [List.take_of_length_le behind, List.append_assoc, List.take_left]

/-- A further read behind the text, as far as the array goes. -/
theorem overlay_cutArray (text bytes stale : List UInt8) :
    overlay (overlay (cutArray text stale) text.length bytes)
        (text.length + bytes.length) [0] =
      cutArray (text ++ bytes) stale := by
  by_cases fits : text.length + bytes.length < stale.length
  · rw [cutArray_of_fits (by omega), overlay_headerArray fits,
      cutArray_of_fits (by rw [List.length_append]; exact fits)]
  · have full : stale.length ≤ (text ++ bytes).length := by
      rw [List.length_append]
      omega
    rw [overlay_behind (by rw [length_overlay, length_cutArray]; omega),
      cutArray_of_full full]
    by_cases short : text.length < stale.length
    · rw [cutArray_of_fits short, overlay, length_headerArray short]
      have front : (headerArray text stale).take text.length = text :=
        List.take_left
      rw [front, List.take_append_of_le_length full]
    · have reached := not_lt.mp short
      rw [overlay_behind (by rw [length_cutArray]; exact reached),
        cutArray_of_full reached, List.take_append_of_le_length reached]

/-! ## The header -/

/-- What is seen of a text is seen of the texts it begins. -/
theorem HasBlankLine.of_prefix {front text : List UInt8}
    (blank : HasBlankLine front) (begins : front <+: text) :
    HasBlankLine text := by
  obtain ⟨rest, rfl⟩ := begins
  have more : visible front <+: visible (front ++ rest) := by
    unfold visible
    rw [List.takeWhile_append]
    split
    · exact (List.takeWhile_prefix _).trans (List.prefix_append _ _)
    · exact List.prefix_rfl
  exact List.IsInfix.trans blank more.isInfix

section Header

variable {timeoutMs : Nat} {stale : List UInt8}

/-- A further read of the header. -/
theorem headerLoop_cutArray {turns elapsed : Nat} {s : Session}
    {text bytes : List UInt8} {rest : List Arrival}
    (unfinished : ¬HasBlankLine (text.take stale.length))
    (read : netRead s.client.arrivals httpClientReadHeadSize timeoutMs =
      (⟨elapsed, .ok bytes⟩, rest)) :
    headerLoop timeoutMs (turns + 1) s (cutArray text stale) text.length =
      headerLoop timeoutMs turns
        (s.afterHeaderRead stale.length text.length bytes.length timeoutMs)
        (cutArray (text ++ bytes) stale) (text ++ bytes).length := by
  have missing : strstr headerEnd (cString (cutArray text stale)) = none := by
    rw [cString_cutArray]
    exact strstr_eq_none_iff.mpr unfinished
  rw [headerLoop_read missing read, overlay_cutArray, length_cutArray,
    List.length_append]

/-- Without the blank line the loop over the header never ends. -/
theorem headerLoop_starved {s : Session} {text : List UInt8}
    (unbroken : Unbroken s.client.arrivals)
    (missing : ¬HasBlankLine
      ((text ++ arrived s.client.arrivals).take stale.length)) (turns : Nat) :
    (headerLoop timeoutMs turns s (cutArray text stale) text.length).2 =
      none := by
  induction turns generalizing s text with
  | zero => rfl
  | succ turns inductionHypothesis =>
      obtain ⟨elapsed, bytes, rest, read, later⟩ :=
        unbroken.read httpClientReadHeadSize timeoutMs
      have unfinished : ¬HasBlankLine (text.take stale.length) := by
        intro blank
        exact missing (blank.of_prefix
          (List.IsPrefix.take (List.prefix_append _ _) _))
      rw [headerLoop_cutArray unfinished read]
      apply inductionHypothesis
      · rw [arrivals_afterHeaderRead, read]
        exact later
      · rw [arrivals_afterHeaderRead, read, List.append_assoc,
          ← arrived_netRead read]
        exact missing

/-- With the blank line, or a read that fails, it ends, and what follows it is
the same with all numbers of turns. -/
theorem headerLoop_ends {s : Session} {text : List UInt8}
    (comes : Unbroken s.client.arrivals → HasBlankLine
      ((text ++ arrived s.client.arrivals).take stale.length)) :
    ∃ enough after result, ∀ turns, enough ≤ turns →
      headerLoop timeoutMs turns s (cutArray text stale) text.length =
        (after, some result) := by
  by_cases blank : HasBlankLine (text.take stale.length)
  · cases found : strstr headerEnd (cString (cutArray text stale)) with
    | none =>
        rw [cString_cutArray] at found
        exact absurd blank (strstr_eq_none_iff.mp found)
    | some bodyEnd =>
        refine ⟨1, s, .ok ⟨cutArray text stale, text.length, bodyEnd⟩,
          fun turns reached => ?_⟩
        obtain ⟨turns, rfl⟩ := Nat.exists_eq_add_of_le' reached
        exact headerLoop_found found
  · have missing : strstr headerEnd (cString (cutArray text stale)) = none := by
      rw [cString_cutArray]
      exact strstr_eq_none_iff.mpr blank
    rcases read : netRead s.client.arrivals httpClientReadHeadSize timeoutMs
      with ⟨⟨elapsed, error | bytes⟩, rest⟩
    · refine ⟨1, s.afterRead (cutArray text stale).length text.length
        httpClientReadHeadSize timeoutMs, .error (.code .errHttpConnError),
        fun turns reached => ?_⟩
      obtain ⟨turns, rfl⟩ := Nat.exists_eq_add_of_le' reached
      exact headerLoop_error missing read
    · have remaining : (s.afterHeaderRead stale.length text.length bytes.length
          timeoutMs).client.arrivals = rest := by
        rw [arrivals_afterHeaderRead, read]
      have less : weight rest < weight s.client.arrivals := by
        rcases weight_netRead (by decide) read with ⟨none, -, -⟩ | less
        · -- the stream has ended without the blank line
          rw [none] at comes
          have seen := comes fun _ mem => absurd mem List.not_mem_nil
          rw [arrived, List.append_nil] at seen
          exact absurd seen blank
        · exact less
      have still : Unbroken (s.afterHeaderRead stale.length text.length
          bytes.length timeoutMs).client.arrivals → HasBlankLine
            ((text ++ bytes ++ arrived (s.afterHeaderRead stale.length
              text.length bytes.length timeoutMs).client.arrivals).take
                stale.length) := by
        rw [remaining, List.append_assoc, ← arrived_netRead read]
        exact fun unbroken => comes (unbroken.of_read read)
      obtain ⟨enough, after, result, ends⟩ :=
        headerLoop_ends still
      refine ⟨enough + 1, after, result, fun turns reached => ?_⟩
      obtain ⟨turns, rfl⟩ := Nat.exists_eq_add_of_le'
        (Nat.le_trans (Nat.le_add_left 1 enough) reached)
      rw [headerLoop_cutArray blank read]
      exact ends turns (by omega)
termination_by weight s.client.arrivals
decreasing_by
  rw [remaining]
  exact less

end Header

/-! ## Calls -/

/-- What the first read brings. -/
def firstRead : List Arrival → List UInt8
  | ⟨_, .ok bytes⟩ :: _ => bytes.take httpClientReadHeadSize
  | _ => []

theorem firstRead_eq {arrivals rest : List Arrival} {timeoutMs elapsed : Nat}
    {first : List UInt8}
    (read : netRead arrivals httpClientReadHeadSize timeoutMs =
      (⟨elapsed, .ok first⟩, rest)) : firstRead arrivals = first := by
  unfold netRead at read
  split at read
  · cases read
    rfl
  · cases read
  · split at read
    · rename_i short
      cases read
      exact List.take_of_length_le short
    · cases read
      rfl

/-- A call that begins to receive a response whose stream stops in its header:
the status line comes with the first read, but behind it there is no blank line
among the bytes that go into the array. -/
structure Starved (s : Session) : Prop where
  buffered : s.data.responseBuf.isSome ∧ s.data.responseBufLen ≠ 0
  connected : s.client.handle ≠ 0
  begins : s.data.isMore = false
  unbroken : Unbroken s.client.arrivals
  unended : ∃ crlfPos,
    strstr [13, 10] (visible (firstRead s.client.arrivals)) = some crlfPos ∧
      ¬HasBlankLine (((arrived s.client.arrivals).drop (crlfPos + 2)).take
        httpClientReadBufSize)

section Call

variable {timeoutMs : Nat} {s : Session}

/-- Behind the status line of the first read, the text in the array and the
stream are what has come behind it. -/
theorem recvResponse_header {elapsed crlfPos : Nat} {first : List UInt8}
    {later : List Arrival} (connected : s.client.handle ≠ 0)
    (begins : s.data.isMore = false)
    (read : netRead s.client.arrivals httpClientReadHeadSize timeoutMs =
      (⟨elapsed, .ok first⟩, later))
    (found : strstr [13, 10] (visible first) = some crlfPos) :
    ∃ after : Session, after.client.arrivals = later ∧
      first.drop (crlfPos + 2) ++ arrived later =
        (arrived s.client.arrivals).drop (crlfPos + 2) ∧
      ∀ turns, httpClientRecvResponse turns s timeoutMs =
        behindHeader turns timeoutMs (headerLoop timeoutMs turns after
          (cutArray (first.drop (crlfPos + 2)) (staleArray first crlfPos))
          (first.drop (crlfPos + 2)).length) := by
  have fits := firstRead_fits read
  have array : first.length < (staleArray first crlfPos).length := by
    rw [length_staleArray crlfPos fits]
    exact fits
  refine ⟨((s.afterFirstRead timeoutMs).use httpClientReadBufSize first.length
    1).behindStatusLine first crlfPos, ?_, ?_, fun turns => ?_⟩
  · rw [arrivals_behindStatusLine, read]
  · rw [arrived_netRead read,
      List.drop_append_of_le_length (crlf_bound found)]
  · rw [httpClientRecvResponse_header connected begins read found,
      cutArray_of_fits (by rw [List.length_drop]; omega)]

/-- A starved call never returns. -/
theorem Starved.never (starved : Starved s) (turns : Nat) :
    (httpClientRecvData turns s timeoutMs).2 = none := by
  obtain ⟨crlfPos, found, missing⟩ := starved.unended
  obtain ⟨elapsed, first, later, read, unbroken⟩ :=
    starved.unbroken.read httpClientReadHeadSize timeoutMs
  rw [firstRead_eq read] at found
  obtain ⟨after, arrivals, text, run⟩ :=
    recvResponse_header starved.connected starved.begins read found
  have size := length_staleArray crlfPos (firstRead_fits read)
  rw [← text, ← size, ← arrivals] at missing
  rw [← arrivals] at unbroken
  have waits : (headerLoop timeoutMs turns after
      (cutArray (first.drop (crlfPos + 2)) (staleArray first crlfPos))
      (first.drop (crlfPos + 2)).length).2 = none :=
    headerLoop_starved unbroken missing turns
  unfold httpClientRecvData
  rw [if_pos starved.buffered, run]
  generalize headerLoop timeoutMs turns after _ _ = result at waits
  obtain ⟨left, _ | result⟩ := result
  · rfl
  · cases waits

/-- A call that is not starved returns from `_http_client_recv_response`. -/
theorem recvResponse_returning
    (buffered : s.data.responseBuf.isSome ∧ s.data.responseBufLen ≠ 0)
    (fed : ¬Starved s) :
    Returning fun turns => httpClientRecvResponse turns s timeoutMs := by
  by_cases connected : s.client.handle = 0
  · exact .of_const fun turns => by
      unfold httpClientRecvResponse
      rw [if_pos connected]
  cases begins : s.data.isMore with
  | true =>
      unfold httpClientRecvResponse
      simp only [if_neg connected, begins, if_true]
      exact httpGetResponseBody_returning _ _ _
  | false =>
      rcases read : netRead s.client.arrivals httpClientReadHeadSize timeoutMs
        with ⟨⟨elapsed, error | first⟩, later⟩
      · exact .of_const fun _ =>
          httpClientRecvResponse_error connected begins read
      · by_cases empty : first = []
        · subst empty
          exact .of_const fun _ =>
            httpClientRecvResponse_nothing connected begins read
        cases found : strstr [13, 10] (visible first) with
        | none =>
            exact .of_const fun _ =>
              (httpClientRecvResponse_read connected begins read empty).trans
                (httpParseResponseHeader_none _ found)
        | some crlfPos =>
            obtain ⟨after, arrivals, text, run⟩ :=
              recvResponse_header connected begins read found
            have size := length_staleArray crlfPos (firstRead_fits read)
            have comes : Unbroken after.client.arrivals → HasBlankLine
                ((first.drop (crlfPos + 2) ++
                  arrived after.client.arrivals).take
                    (staleArray first crlfPos).length) := by
              intro unbroken
              by_contra missing
              rw [arrivals, text, size] at missing
              rw [arrivals] at unbroken
              exact fed ⟨buffered, connected, begins, unbroken.of_read read,
                crlfPos, by rw [firstRead_eq read]; exact found, missing⟩
            obtain ⟨enough, left, result, ends⟩ : ∃ enough left result,
                ∀ turns, enough ≤ turns → headerLoop timeoutMs turns after
                  (cutArray (first.drop (crlfPos + 2))
                    (staleArray first crlfPos))
                  (first.drop (crlfPos + 2)).length = (left, some result) :=
              headerLoop_ends comes
            have returns : Returning fun turns =>
                behindHeader turns timeoutMs (left, some result) := by
              cases result with
              | error ret => exact .of_const fun _ => rfl
              | ok header => exact parseHeaderText_returning left header
            obtain ⟨more, returned⟩ := returns
            refine ⟨max enough more, fun turns reached => ?_⟩
            have same := (run turns).trans (congrArg _ (ends turns (by omega)))
            dsimp only
            rw [same]
            exact returned turns (by omega)

/-- A call returns, whenever the stream stops, exactly when it is not starved:
in a body it loses its patience, in a header it does not. -/
theorem recvData_returning_iff (s : Session) (timeoutMs : Nat) :
    (Returning fun turns => httpClientRecvData turns s timeoutMs) ↔
      ¬Starved s := by
  constructor
  · intro ⟨enough, returns⟩ starved
    have returned := returns enough le_rfl
    rw [starved.never] at returned
    cases returned
  · intro fed
    by_cases buffered :
        s.data.responseBuf.isSome ∧ s.data.responseBufLen ≠ 0
    · have below : Returning fun turns =>
          httpClientRecvResponse turns s timeoutMs :=
        recvResponse_returning buffered fed
      obtain ⟨enough, returns⟩ := below
      refine ⟨enough, fun turns reached => ?_⟩
      have returned := returns turns reached
      dsimp only at returned ⊢
      unfold httpClientRecvData
      rw [if_pos buffered]
      generalize httpClientRecvResponse turns s timeoutMs = result at returned ⊢
      obtain ⟨after, _ | ⟨ret⟩ | _⟩ := result
      · cases returned
      · dsimp only
        split <;> rfl
      · rfl
    · exact .of_const fun _ => httpClientRecvData_unbuffered buffered

/-- A response that stops behind its status line. -/
def stoppedInHeader : Session where
  client :=
    { handle := 1
      responseCode := 0
      arrivals := [⟨0, .ok (ascii "HTTP/1.1 200 OK\r\n")⟩]
      clock := 0 }
  data := { HttpClientData.zero with
    responseBufLen := 64
    responseBuf := some (List.replicate 64 0) }
  uses := []
  announced := 0
  retrieved := []

theorem stoppedInHeader_starved : Starved stoppedInHeader where
  buffered := by decide
  connected := by decide
  begins := rfl
  unbroken := List.forall_mem_singleton.mpr ⟨_, rfl⟩
  unended := ⟨15, by decide +kernel, by decide +kernel⟩

/-- Not every call returns when its stream stops. -/
theorem recvData_hangs :
    ¬∀ (s : Session) (timeoutMs : Nat), Unbroken s.client.arrivals →
      Returning fun turns => httpClientRecvData turns s timeoutMs := by
  intro returns
  obtain ⟨enough, returned⟩ := returns stoppedInHeader 5000
    stoppedInHeader_starved.unbroken
  have late := returned enough le_rfl
  rw [stoppedInHeader_starved.never] at late
  cases late

end Call

end Http
end UIoT
