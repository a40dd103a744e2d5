import UIoT.Http.Bounds
import UIoT.Library.Machine

/-!
# The bounds of a response

A call of `http_client_recv_data` stays within its buffers exactly when the
response it begins to receive fits, and so does a run of calls: calls that go on
with a body never leave a buffer.
-/

namespace UIoT
namespace Http

/-! ## The response -/

/-- What lies in the array under the header: the first read, with the status
line terminated. -/
def staleArray (first : List UInt8) (crlfPos : Nat) : List UInt8 :=
  overlay (headerArray first (List.replicate httpClientReadBufSize 0)) crlfPos
    [0]

/-- The session behind the status line of the first read. -/
def Session.behindStatusLine (s : Session) (first : List UInt8)
    (crlfPos : Nat) : Session :=
  let data := staleArray first crlfPos
  let length := (first.length : Int) - (crlfPos + 2) + 1
  let s := (s.use data.length crlfPos 1).use data.length
    ((crlfPos + 2 : Nat) : Int) length
  let s := s.use data.length 0 length
  { s with
    client :=
      { s.client with responseCode := atoi (cString (data.drop 9)) }
    data := { s.data with responseContentLen := -1, isChunked := 0 } }

theorem length_staleArray {first : List UInt8} (crlfPos : Nat)
    (fits : first.length < httpClientReadBufSize) :
    (staleArray first crlfPos).length = httpClientReadBufSize := by
  unfold staleArray
  rw [length_overlay, length_headerArray] <;> rw [List.length_replicate]
  exact fits

theorem crlf_bound {text : List UInt8} {crlfPos : Nat}
    (found : strstr [13, 10] (visible text) = some crlfPos) :
    crlfPos + 2 ≤ text.length := by
  have bound := (strstr_bound found).resolve_right (by decide)
  have shorter := (List.takeWhile_prefix (· ≠ 0) (l := text)).length_le
  exact Nat.le_trans bound shorter

/-- Where the first read has the status line, the loop over the header goes on
behind it. -/
theorem httpParseResponseHeader_eq {turns timeoutMs : Nat} (s : Session)
    {first : List UInt8} {crlfPos : Nat}
    (fits : first.length < httpClientReadBufSize)
    (found : strstr [13, 10] (visible first) = some crlfPos) :
    httpParseResponseHeader turns s
        (headerArray first (List.replicate httpClientReadBufSize 0))
        first.length timeoutMs =
      behindHeader turns timeoutMs
        (headerLoop timeoutMs turns (s.behindStatusLine first crlfPos)
          (headerArray (first.drop (crlfPos + 2)) (staleArray first crlfPos))
          (first.drop (crlfPos + 2)).length) := by
  have within := crlf_bound found
  have size : first.length < (List.replicate httpClientReadBufSize
      (0 : UInt8)).length := by
    rw [List.length_replicate]
    exact fits
  have count : ((first.length : Int) - ((crlfPos : Int) + 2) + 1).toNat =
      first.length - (crlfPos + 2) + 1 := by
    omega
  have array : (headerArray first
      (List.replicate httpClientReadBufSize 0)).length =
        (staleArray first crlfPos).length := (length_overlay ..).symm
  have moved := overlay_statusLine within size
  unfold httpParseResponseHeader
  dsimp only
  rw [cString_headerArray, found]
  dsimp only [terminate, moveToFront]
  rw [count, moved, ← List.length_drop, array]
  rfl

/-- The session behind the first read of a response. -/
def Session.afterFirstRead (s : Session) (timeoutMs : Nat) : Session :=
  Session.afterRead { s with data := { s.data with isMore := true } }
    httpClientReadBufSize 0 httpClientReadHeadSize timeoutMs

theorem firstRead_fits {arrivals rest : List Arrival}
    {timeoutMs elapsed : Nat} {first : List UInt8}
    (read : netRead arrivals httpClientReadHeadSize timeoutMs =
      (⟨elapsed, .ok first⟩, rest)) :
    first.length < httpClientReadBufSize :=
  Nat.lt_of_le_of_lt (length_netRead read) (by decide)

theorem httpClientRecvResponse_read {turns timeoutMs elapsed : Nat}
    {s : Session} {first : List UInt8} {later : List Arrival}
    (connected : s.client.handle ≠ 0) (new : s.data.isMore = false)
    (read : netRead s.client.arrivals httpClientReadHeadSize timeoutMs =
      (⟨elapsed, .ok first⟩, later)) (nonempty : first ≠ []) :
    httpClientRecvResponse turns s timeoutMs =
      httpParseResponseHeader turns
        ((s.afterFirstRead timeoutMs).use httpClientReadBufSize first.length 1)
        (headerArray first (List.replicate httpClientReadBufSize 0))
        first.length timeoutMs := by
  have received :
      httpRecv { s with data := { s.data with isMore := true } }
        (List.replicate httpClientReadBufSize 0) 0
        (httpClientReadHeadSize : Int) timeoutMs = _ :=
    httpRecv_ok read _ _
  have length : first.length ≠ 0 := fun zero =>
    nonempty (List.eq_nil_of_length_eq_zero zero)
  unfold httpClientRecvResponse
  simp only [connected, new, if_false, Bool.false_eq_true]
  rw [received]
  simp only [if_neg nonempty, ne_eq, not_true_eq_false, if_false, length,
    not_false_eq_true, if_true, terminate]
  rw [overlay_first, length_overlay, List.length_replicate]
  · rfl
  · rw [List.length_replicate]
    exact firstRead_fits read

theorem httpClientRecvResponse_nothing {turns timeoutMs elapsed : Nat}
    {s : Session} {later : List Arrival}
    (connected : s.client.handle ≠ 0) (new : s.data.isMore = false)
    (read : netRead s.client.arrivals httpClientReadHeadSize timeoutMs =
      (⟨elapsed, .ok []⟩, later)) :
    httpClientRecvResponse turns s timeoutMs =
      (s.afterFirstRead timeoutMs, some (.code .failureRet)) := by
  have received :
      httpRecv { s with data := { s.data with isMore := true } }
        (List.replicate httpClientReadBufSize 0) 0
        (httpClientReadHeadSize : Int) timeoutMs = _ :=
    httpRecv_ok read _ _
  unfold httpClientRecvResponse
  simp only [connected, new, if_false, Bool.false_eq_true]
  rw [received, List.length_replicate]
  rfl

theorem httpClientRecvResponse_error {turns timeoutMs elapsed : Nat}
    {s : Session} {error : NetError} {later : List Arrival}
    (connected : s.client.handle ≠ 0) (new : s.data.isMore = false)
    (read : netRead s.client.arrivals httpClientReadHeadSize timeoutMs =
      (⟨elapsed, .error error⟩, later)) :
    httpClientRecvResponse turns s timeoutMs =
      (s.afterFirstRead timeoutMs, some (.code .errHttpConnError)) := by
  have received :
      httpRecv { s with data := { s.data with isMore := true } }
        (List.replicate httpClientReadBufSize 0) 0
        (httpClientReadHeadSize : Int) timeoutMs = _ :=
    httpRecv_error read _ _
  unfold httpClientRecvResponse
  simp only [connected, new, if_false, Bool.false_eq_true]
  rw [received, List.length_replicate]
  rfl

theorem Session.Receiving.afterFirstRead {s : Session}
    (receiving : s.Receiving) (timeoutMs : Nat) :
    (s.afterFirstRead timeoutMs).Receiving := by
  have started : Session.Receiving
      { s with data := { s.data with isMore := true } } :=
    receiving.of_same rfl rfl rfl rfl rfl rfl
  apply started.afterRead
  decide

theorem Session.Receiving.behindStatusLine {s : Session}
    (receiving : s.Receiving) {first : List UInt8} {crlfPos : Nat}
    (within : crlfPos + 2 ≤ first.length)
    (fits : first.length < httpClientReadBufSize) :
    (s.behindStatusLine first crlfPos).Receiving := by
  have size := length_staleArray crlfPos fits
  have terminated :
      (s.use (staleArray first crlfPos).length crlfPos 1).Receiving :=
    receiving.use (by omega)
  have moved : (Http.moveToFront _ (staleArray first crlfPos) (crlfPos + 2)
      ((first.length : Int) - (crlfPos + 2) + 1)).1.Receiving :=
    terminated.moveToFront (by omega) (by omega)
  exact moved.of_same rfl rfl rfl rfl rfl rfl

/-- The response of a call fits: where its first read has the status line, the
header fits. -/
def Session.ResponseFits (s : Session) (timeoutMs : Nat) : Prop :=
  s.client.handle ≠ 0 → s.data.isMore = false →
    ∀ elapsed first later crlfPos,
      netRead s.client.arrivals httpClientReadHeadSize timeoutMs =
        (⟨elapsed, .ok first⟩, later) →
      strstr [13, 10] (visible first) = some crlfPos →
      HeaderFits timeoutMs (first.drop (crlfPos + 2))
        (staleArray first crlfPos) later

/-- Where the first read has no status line, nothing more is read. -/
theorem httpParseResponseHeader_none {turns timeoutMs : Nat} (s : Session)
    {first : List UInt8} (missing : strstr [13, 10] (visible first) = none) :
    httpParseResponseHeader turns s
        (headerArray first (List.replicate httpClientReadBufSize 0))
        first.length timeoutMs =
      ({ s with data := { s.data with responseContentLen := -1 } },
        some (.code .errHttpUnresolvedDns)) := by
  unfold httpParseResponseHeader
  dsimp only
  rw [cString_headerArray, missing]

theorem Session.Receiving.terminateResponse {s : Session}
    (receiving : s.Receiving) : (terminateResponse s 0).Receiving where
  sound := by
    apply Session.sound_terminateResponse.mpr
    refine ⟨receiving.sound, Int.one_nonneg, le_rfl, ?_⟩
    have size := receiving.size
    have positive := receiving.positive
    change 0 + 1 ≤ (s.buffer.length : Int)
    omega
  nonnegative := receiving.nonnegative
  bounded := receiving.bounded
  size := by
    rw [length_buffer_terminateResponse]
    exact receiving.size
  positive := receiving.positive

/-- More of a body is received within bounds. -/
theorem httpClientRecvResponse_more {turns timeoutMs : Nat} {s : Session}
    (receiving : s.Receiving)
    (going : s.client.handle = 0 ∨ s.data.isMore = true) :
    (httpClientRecvResponse turns s timeoutMs).1.Receiving := by
  unfold httpClientRecvResponse
  by_cases closed : s.client.handle = 0
  · rw [if_pos closed]
    exact receiving
  · rw [if_neg closed, if_pos (going.resolve_left closed)]
    apply httpGetResponseBody_receiving
    · exact receiving.terminateResponse
    · exact List.length_replicate
    · exact Nat.zero_le _

/-- What a read with the status line leads to. -/
theorem httpClientRecvResponse_header {turns timeoutMs elapsed crlfPos : Nat}
    {s : Session} {first : List UInt8} {later : List Arrival}
    (connected : s.client.handle ≠ 0) (new : s.data.isMore = false)
    (read : netRead s.client.arrivals httpClientReadHeadSize timeoutMs =
      (⟨elapsed, .ok first⟩, later))
    (found : strstr [13, 10] (visible first) = some crlfPos) :
    httpClientRecvResponse turns s timeoutMs =
      behindHeader turns timeoutMs
        (headerLoop timeoutMs turns
          (((s.afterFirstRead timeoutMs).use httpClientReadBufSize first.length
            1).behindStatusLine first crlfPos)
          (headerArray (first.drop (crlfPos + 2)) (staleArray first crlfPos))
          (first.drop (crlfPos + 2)).length) := by
  have nonempty : first ≠ [] := by
    rintro rfl
    cases found
  rw [httpClientRecvResponse_read connected new read nonempty,
    httpParseResponseHeader_eq _ (firstRead_fits read) found]

theorem arrivals_behindStatusLine (s : Session) (timeoutMs count : Nat)
    (first : List UInt8) (crlfPos : Nat) :
    (((s.afterFirstRead timeoutMs).use httpClientReadBufSize count
        1).behindStatusLine first crlfPos).client.arrivals =
      (netRead s.client.arrivals httpClientReadHeadSize timeoutMs).2 := rfl

/-- A response that fits is received within bounds. -/
theorem httpClientRecvResponse_receiving {turns timeoutMs : Nat} {s : Session}
    (receiving : s.Receiving) (fits : s.ResponseFits timeoutMs) :
    (httpClientRecvResponse turns s timeoutMs).1.Receiving := by
  by_cases going : s.client.handle = 0 ∨ s.data.isMore = true
  · exact httpClientRecvResponse_more receiving going
  · obtain ⟨connected, new⟩ := not_or.mp going
    rw [Bool.not_eq_true] at new
    have started := receiving.afterFirstRead timeoutMs
    rcases read : netRead s.client.arrivals httpClientReadHeadSize timeoutMs
      with ⟨⟨elapsed, error | first⟩, later⟩
    · rw [httpClientRecvResponse_error connected new read]
      exact started
    · by_cases empty : first = []
      · subst empty
        rw [httpClientRecvResponse_nothing connected new read]
        exact started
      · have short := firstRead_fits read
        have terminated := started.use short
        cases found : strstr [13, 10] (visible first) with
        | none =>
            rw [httpClientRecvResponse_read connected new read empty,
              httpParseResponseHeader_none _ found]
            exact terminated.of_same rfl rfl rfl rfl rfl rfl
        | some crlfPos =>
            rw [httpClientRecvResponse_header connected new read found]
            apply headerLoop_receiving
            · exact terminated.behindStatusLine (crlf_bound found) short
            · exact length_staleArray crlfPos short
            · rw [arrivals_behindStatusLine, read]
              exact fits connected new _ _ _ _ read found

/-- A call stays within bounds exactly when its response fits. -/
theorem httpClientRecvResponse_sound_iff {timeoutMs : Nat} {s : Session}
    (receiving : s.Receiving) :
    (∀ turns, (httpClientRecvResponse turns s timeoutMs).1.Sound) ↔
      s.ResponseFits timeoutMs := by
  constructor
  · intro sound connected new elapsed first later crlfPos read found
    have short := firstRead_fits read
    have begun := ((receiving.afterFirstRead timeoutMs).use
      short).behindStatusLine (crlf_bound found) short
    have stays := fun turns => sound turns
    simp only [httpClientRecvResponse_header connected new read found] at stays
    have fits := (headerLoop_sound_iff begun (length_staleArray crlfPos short)
      (by rw [List.length_drop]; omega)).mp stays
    rw [arrivals_behindStatusLine, read] at fits
    exact fits
  · intro fits turns
    exact (httpClientRecvResponse_receiving receiving fits).sound

/-- A call in which there is no response buffer does nothing. -/
theorem httpClientRecvData_unbuffered {turns timeoutMs : Nat} {s : Session}
    (missing : ¬(s.data.responseBuf.isSome ∧ s.data.responseBufLen ≠ 0)) :
    httpClientRecvData turns s timeoutMs = (s, some .successRet) := by
  unfold httpClientRecvData
  rw [if_neg missing]

/-- Of what `_http_client_recv_response` leaves, `http_client_recv_data` only
closes the connection. -/
theorem httpClientRecvData_session {turns timeoutMs : Nat} {s : Session}
    (buffered : s.data.responseBuf.isSome ∧ s.data.responseBufLen ≠ 0) :
    ∃ handle,
      (httpClientRecvData turns s timeoutMs).1 =
        { (httpClientRecvResponse turns s timeoutMs).1 with
          client :=
            { (httpClientRecvResponse turns s timeoutMs).1.client with
              handle } } := by
  unfold httpClientRecvData
  rw [if_pos buffered]
  generalize httpClientRecvResponse turns s timeoutMs = result
  obtain ⟨after, _ | ⟨ret⟩ | _⟩ := result
  · exact ⟨_, rfl⟩
  · dsimp only
    split <;> exact ⟨_, rfl⟩
  · exact ⟨_, rfl⟩

/-! ## Runs of calls -/

/-- A call of `http_client_recv_data`: the client as it is then, the buffer it
is given, the lengths its caller may have set, and whether the caller has
zeroed the data for a new request.  The length of the buffer is an `int`. -/
structure Call where
  client : HttpClient
  responseBuf : Option (List UInt8)
  responseContentLen : Int
  responseReceivedLen : Int
  renewed : Bool
  timeoutMs : Nat
  turns : Nat
  small : (responseBuf.getD []).length < 2 ^ 31

/-- `http_client_data_t` zeroed. -/
def HttpClientData.zero : HttpClientData where
  isMore := false
  isChunked := 0
  retrieveLen := 0
  responseContentLen := 0
  responseReceivedLen := 0
  responseBufLen := 0
  responseBuf := none

/-- What the caller sets before a call. -/
def Session.prepare (s : Session) (call : Call) : Session :=
  { s with
    client := call.client
    data :=
      { (if call.renewed then .zero else s.data) with
        responseContentLen := call.responseContentLen
        responseReceivedLen := call.responseReceivedLen
        responseBufLen := (call.responseBuf.getD []).length
        responseBuf := call.responseBuf } }

/-- A session between calls, or in a call that has not returned. -/
structure Exchange where
  session : Session
  inCall : Bool

namespace Exchange

/-- Nothing has been received. -/
def initial (client : HttpClient) : Exchange where
  session :=
    { client
      data := .zero
      uses := []
      announced := 0
      retrieved := [] }
  inCall := false

/-- The next call, which begins when the one before has returned. -/
def step (e : Exchange) (call : Call) : Exchange :=
  if e.inCall then e
  else
    let (s, ret) :=
      httpClientRecvData call.turns (e.session.prepare call) call.timeoutMs
    ⟨s, ret.isNone⟩

/-- As long as the call lasts, the records are sound. -/
def CallSound (e : Exchange) (call : Call) : Prop :=
  e.inCall = false →
    ∀ turns,
      (httpClientRecvData turns (e.session.prepare call)
        call.timeoutMs).1.Sound

/-- A response that a call begins to receive into its buffer fits. -/
def CallFits (e : Exchange) (call : Call) : Prop :=
  e.inCall = false → call.responseBuf.getD [] ≠ [] →
    (e.session.prepare call).ResponseFits call.timeoutMs

theorem prepare_buffered (s : Session) (call : Call) :
    ((s.prepare call).data.responseBuf.isSome ∧
        (s.prepare call).data.responseBufLen ≠ 0) ↔
      call.responseBuf.getD [] ≠ [] := by
  change (call.responseBuf.isSome = true ∧
    ((call.responseBuf.getD []).length : Int) ≠ 0) ↔ _
  rw [Int.natCast_ne_zero, List.length_eq_zero_iff.ne]
  cases call.responseBuf with
  | none => simp
  | some buffer => simp

theorem prepare_settled {s : Session} (settled : s.Settled) (call : Call) :
    (s.prepare call).Settled where
  sound := ⟨settled.sound.within, settled.sound.inRange⟩
  nonnegative := by
    have nonnegative := settled.nonnegative
    unfold Session.prepare
    cases call.renewed
    · exact nonnegative
    · exact le_rfl
  bounded := by
    have bounded := settled.bounded
    have nonnegative := settled.nonnegative
    unfold Session.prepare
    cases call.renewed
    · exact bounded
    · exact nonnegative.trans bounded

theorem prepare_receiving {s : Session} (settled : s.Settled) {call : Call}
    (buffered : call.responseBuf.getD [] ≠ []) :
    (s.prepare call).Receiving where
  toSettled := prepare_settled settled call
  size := rfl
  positive := by
    have positive := List.length_pos_iff.mpr buffered
    exact Int.natCast_pos.mpr positive

/-- What a call leaves when its response fits. -/
theorem recvData_settled {s : Session} (settled : s.Settled) {call : Call}
    (fits : call.responseBuf.getD [] ≠ [] →
      (s.prepare call).ResponseFits call.timeoutMs) (turns : Nat) :
    (httpClientRecvData turns (s.prepare call) call.timeoutMs).1.Settled := by
  by_cases buffered : (s.prepare call).data.responseBuf.isSome ∧
      (s.prepare call).data.responseBufLen ≠ 0
  · have nonempty := (prepare_buffered s call).mp buffered
    have received : (httpClientRecvResponse turns (s.prepare call)
        call.timeoutMs).1.Receiving :=
      httpClientRecvResponse_receiving (prepare_receiving settled nonempty)
        (fits nonempty)
    obtain ⟨handle, same⟩ := httpClientRecvData_session buffered
    rw [same]
    apply Session.Receiving.toSettled
    exact received.of_same rfl rfl rfl rfl rfl rfl
  · rw [httpClientRecvData_unbuffered buffered]
    exact prepare_settled settled call

/-- A call between two others stays sound exactly when its response fits. -/
theorem callSound_iff {e : Exchange}
    (settled : e.inCall = false → e.session.Settled) (call : Call) :
    CallSound e call ↔ CallFits e call := by
  unfold CallSound CallFits
  refine forall_congr' fun idle => ?_
  constructor
  · intro sound nonempty
    apply (httpClientRecvResponse_sound_iff
      (prepare_receiving (settled idle) nonempty)).mp
    intro turns
    have after := sound turns
    obtain ⟨handle, same⟩ := httpClientRecvData_session
      ((prepare_buffered e.session call).mpr nonempty)
    rw [same] at after
    exact ⟨after.within, after.inRange⟩
  · intro fits turns
    exact (recvData_settled (settled idle) fits turns).sound

/-- In every run of calls the records of the session stay sound exactly when
every response fits that is begun to be received. -/
theorem run_sound_iff (client : HttpClient) (calls : List Call) :
    Machine.Along step CallSound (initial client) calls ↔
      Machine.Along step CallFits (initial client) calls := by
  apply Machine.Along.iff_of_invariant
    (fun e => e.inCall = false → e.session.Settled)
  · intro e call settled
    exact callSound_iff settled call
  · intro e call settled sound
    have fits := (callSound_iff settled call).mp sound
    unfold step
    split
    · exact settled
    · rename_i idle
      rw [Bool.not_eq_true] at idle
      intro _
      exact recvData_settled (settled idle) (fits idle) call.turns
  · intro _
    refine ⟨⟨?_, ?_⟩, le_rfl, le_rfl⟩
    · exact fun _ mem => nomatch mem
    · exact fun _ mem => nomatch mem

/-- A call that receives a response with a negative length. -/
def negativeLength : Call where
  client :=
    { handle := 1
      responseCode := 0
      arrivals :=
        [⟨0, .ok (ascii "HTTP/1.1 200 OK\r\nContent-Length: -5\r\n\r\n")⟩]
      clock := 0 }
  responseBuf := some [0, 0, 0, 0]
  responseContentLen := 0
  responseReceivedLen := 0
  renewed := true
  timeoutMs := 5000
  turns := 4
  small := by decide

/-- A negative `Content-Length` is given to `memcpy`. -/
theorem run_sound_broken :
    ¬Machine.Along step CallSound (initial negativeLength.client)
      [negativeLength] := by
  rintro ⟨sound, -⟩
  have within := (sound rfl 4).within ⟨4, 0, -5⟩ (by decide +kernel)
  revert within
  decide

end Exchange

end Http
end UIoT
