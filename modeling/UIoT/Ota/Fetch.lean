import UIoT.Http.FirstCall

/-!
# Fetching a part of a firmware

`ofc_fetch` asks for a range of the file and receives the response into the
caller's buffer.  Its answer is the number of bytes received, or an error; the
status of the response is kept in `response_code` and looked at by nobody.
-/

namespace UIoT
namespace Ota

open Http

/-! ## The function -/

/-- The `int32_t` `ofc_fetch` returns: an error code or a number of bytes. -/
inductive FetchReturn
  | code (ret : IoTError)
  | count (received : Int)
  deriving DecidableEq, Repr

/-- `ofc_fetch`, given what `_http_send_request` returns. -/
def ofcFetch (turns : Nat) (sent : IoTError) (s : Session) (buf : List UInt8)
    (timeoutS : UInt32) : Session × Option FetchReturn :=
  if sent ≠ .successRet then (s, some (.code sent))
  else
    let s :=
      { s with
        data :=
          { s.data with
            responseBuf := some buf
            responseBufLen := buf.length
            responseContentLen := 0
            responseReceivedLen := 0 } }
    let diff := s.data.responseContentLen - s.data.retrieveLen
    match httpClientRecvData turns s (timeoutS * 1000).toNat with
    | (s, none) => (s, none)
    | (s, some ret) =>
        if ret ≠ .successRet then
          if ret = .errHttpNotFound then (s, some (.code .errOtaFileNotExist))
          else if ret = .errHttpAuthError then
            (s, some (.code .errOtaFetchAuthFail))
          else if ret = .errHttpTimeout then
            (s, some (.code .errOtaFetchTimeout))
          else (s, some (.code ret))
        else
          (s, some (.count
            (s.data.responseContentLen - s.data.retrieveLen - diff)))

/-! ## Clients -/

/-- A connected client between two fetches: `is_more` is one, or nothing is left
to be retrieved. -/
structure Fetcher where
  handle : Nat
  responseCode : Int
  clock : Nat
  isMore : Bool
  isChunked : Int
  retrieveLen : Nat
  responseContentLen : Int
  responseReceivedLen : Int
  connected : handle ≠ 0
  settled : isMore = false → retrieveLen = 0

namespace Fetcher

/-- The session in which a response arrives. -/
def session (f : Fetcher) (arrivals : List Arrival) : Session where
  client :=
    { handle := f.handle
      responseCode := f.responseCode
      arrivals
      clock := f.clock }
  data :=
    { isMore := f.isMore
      isChunked := f.isChunked
      retrieveLen := f.retrieveLen
      responseContentLen := f.responseContentLen
      responseReceivedLen := f.responseReceivedLen
      responseBufLen := 0
      responseBuf := none }
  uses := []
  announced := f.retrieveLen
  retrieved := []

end Fetcher

/-! ## What is returned -/

/-- The codes that receiving returns. -/
def Received (ret : IoTError) : Prop :=
  ret = .successRet ∨ ret = .failureRet ∨ ret = .errHttpConnError ∨
    ret = .errHttpUnresolvedDns

/-- The result of a receiving function: `is_more` is one or nothing is left to
be retrieved, and the code is one of a few. -/
structure Returned (result : Session × Option HttpReturn) : Prop where
  settled : result.1.data.isMore = false → result.1.data.retrieveLen = 0
  ret : ∀ ret, result.2 = some (.code ret) → Received ret

theorem Returned.going {s : Session} {ret : Option HttpReturn}
    (more : s.data.isMore = true)
    (received : ∀ code, ret = some (.code code) → Received code) :
    Returned (s, ret) :=
  ⟨fun ended => absurd (more.symm.trans ended) (by decide), received⟩

theorem received_conn : Received .errHttpConnError := .inr (.inr (.inl rfl))

/-- An answer with one code. -/
theorem Returned.of_code {s : Session} {code : IoTError}
    (more : s.data.isMore = true) (received : Received code) :
    Returned (s, some (.code code)) :=
  .going more fun _ same => by
    obtain rfl := HttpReturn.code.inj (Option.some.inj same)
    exact received

theorem bodyLoop_returned (timeoutMs turns : Nat) {s : Session}
    (more : s.data.isMore = true) (buf : List UInt8) (written : Int)
    (dataLen : Nat) (patience : Patience) :
    Returned (bodyLoop timeoutMs turns s buf written dataLen patience) := by
  induction turns generalizing s buf written dataLen patience with
  | zero => exact .going more fun _ missing => nomatch missing
  | succ turns inductionHypothesis =>
      rw [bodyLoop_eq]
      dsimp only
      split
      · generalize filled : fillResponse s written buf
          (min (dataLen : Int) s.data.retrieveLen) = after
        have still : after.data.isMore = true := by
          rw [← filled]
          exact more
        by_cases done : after.data.retrieveLen = 0
        · rw [behindFill_done done]
          refine ⟨fun _ => done, fun ret same => ?_⟩
          obtain rfl := HttpReturn.code.inj (Option.some.inj same)
          exact .inl rfl
        · rcases read : netRead after.client.arrivals
            (bodyMaxLen after (written + min (dataLen : Int)
              s.data.retrieveLen)).toNat timeoutMs
            with ⟨⟨elapsed, error | bytes⟩, rest⟩
          · rw [behindFill_error done read]
            exact .of_code still received_conn
          · rw [behindFill_ok done read]
            dsimp only
            split
            · exact .of_code still received_conn
            · apply inductionHypothesis
              exact still
      · exact .going more fun _ other => nomatch other

theorem httpGetResponseBody_returned (turns : Nat) (s : Session)
    (data : List UInt8) (length timeoutMs : Nat) :
    Returned (httpGetResponseBody turns s data length timeoutMs) := by
  unfold httpGetResponseBody
  dsimp only
  split
  · exact .of_code rfl received_conn
  · exact bodyLoop_returned _ _ rfl ..

theorem parseHeaderText_returned (turns : Nat) {s : Session}
    (more : s.data.isMore = true) (header : HeaderText) (timeoutMs : Nat) :
    Returned (parseHeaderText turns s header timeoutMs) := by
  unfold parseHeaderText
  split
  · exact .of_code more received_conn
  · exact httpGetResponseBody_returned ..

theorem behindHeader_returned (timeoutMs bodyTurns turns : Nat) {s : Session}
    (more : s.data.isMore = true) (buf : List UInt8) (len : Nat) :
    Returned (behindHeader bodyTurns timeoutMs
      (headerLoop timeoutMs turns s buf len)) := by
  induction turns generalizing s buf len with
  | zero => exact .going more fun _ missing => nomatch missing
  | succ turns inductionHypothesis =>
      cases found : strstr headerEnd (cString buf) with
      | some bodyEnd =>
          rw [headerLoop_found found]
          exact parseHeaderText_returned _ more ..
      | none =>
          rcases read : netRead s.client.arrivals httpClientReadHeadSize
            timeoutMs with ⟨⟨elapsed, error | bytes⟩, rest⟩
          · rw [headerLoop_error found read]
            exact .of_code more received_conn
          · rw [headerLoop_read found read]
            apply inductionHypothesis
            exact more

theorem httpClientRecvResponse_returned (turns : Nat) {s : Session}
    (settled : s.data.isMore = false → s.data.retrieveLen = 0)
    (timeoutMs : Nat) :
    Returned (httpClientRecvResponse turns s timeoutMs) := by
  by_cases connected : s.client.handle = 0
  · unfold httpClientRecvResponse
    rw [if_pos connected]
    refine ⟨settled, fun ret same => ?_⟩
    obtain rfl := HttpReturn.code.inj (Option.some.inj same)
    exact received_conn
  cases new : s.data.isMore with
  | true =>
      unfold httpClientRecvResponse
      rw [if_neg connected, if_pos new]
      exact httpGetResponseBody_returned ..
  | false =>
      rcases read : netRead s.client.arrivals httpClientReadHeadSize timeoutMs
        with ⟨⟨elapsed, error | first⟩, later⟩
      · rw [httpClientRecvResponse_error connected new read]
        exact .of_code rfl received_conn
      · by_cases empty : first = []
        · subst empty
          rw [httpClientRecvResponse_nothing connected new read]
          exact .of_code rfl (.inr (.inl rfl))
        · cases found : strstr [13, 10] (visible first) with
          | none =>
              rw [httpClientRecvResponse_read connected new read empty,
                httpParseResponseHeader_none _ found]
              exact .of_code rfl (.inr (.inr (.inr rfl)))
          | some crlfPos =>
              rw [httpClientRecvResponse_header connected new read found]
              exact behindHeader_returned _ _ _ rfl ..

/-- Between fetches `is_more` is one or nothing is left to be retrieved. -/
theorem httpClientRecvData_returned (turns : Nat) {s : Session}
    (settled : s.data.isMore = false → s.data.retrieveLen = 0)
    (timeoutMs : Nat) :
    let result := httpClientRecvData turns s timeoutMs
    (result.1.data.isMore = false → result.1.data.retrieveLen = 0) ∧
      ∀ ret, result.2 = some ret → Received ret := by
  intro result
  have received : result = httpClientRecvData turns s timeoutMs := rfl
  unfold httpClientRecvData at received
  split at received
  · have returned := httpClientRecvResponse_returned turns settled timeoutMs
    rcases run : httpClientRecvResponse turns s timeoutMs with
      ⟨after, _ | code | _⟩
    · rw [run] at received returned
      rw [received]
      exact ⟨returned.settled, fun _ missing => nomatch missing⟩
    · rw [run] at received returned
      dsimp only at received
      split at received
      · rw [received]
        refine ⟨returned.settled, fun ret same => ?_⟩
        obtain rfl := Option.some.inj same
        exact returned.ret _ rfl
      · rw [received]
        refine ⟨returned.settled, fun ret same => ?_⟩
        obtain rfl := Option.some.inj same
        exact .inl rfl
    · rw [run] at received returned
      rw [received]
      refine ⟨returned.settled, fun ret same => ?_⟩
      obtain rfl := Option.some.inj same
      exact .inl rfl
  · rw [received]
    refine ⟨settled, fun ret same => ?_⟩
    obtain rfl := Option.some.inj same
    exact .inl rfl

/-- So does every fetch leave a client. -/
theorem ofcFetch_settled (turns : Nat) (sent : IoTError) {s : Session}
    (settled : s.data.isMore = false → s.data.retrieveLen = 0)
    (buf : List UInt8) (timeoutS : UInt32) :
    let after := (ofcFetch turns sent s buf timeoutS).1
    after.data.isMore = false → after.data.retrieveLen = 0 := by
  unfold ofcFetch
  by_cases failed : sent ≠ .successRet
  · rw [if_pos failed]
    exact settled
  rw [if_neg failed]
  dsimp only
  generalize prepared : Session.mk .. = start
  have before : start.data.isMore = false → start.data.retrieveLen = 0 := by
    rw [← prepared]
    exact settled
  have returned := (httpClientRecvData_returned turns before
    (timeoutS * 1000).toNat).1
  rcases run : httpClientRecvData turns start (timeoutS * 1000).toNat with
    ⟨after, _ | ret⟩
  · rw [run] at returned
    exact returned
  · rw [run] at returned
    dsimp only at returned ⊢
    repeat' split
    all_goals exact returned

/-! ## One fetch -/

/-- What `ofc_fetch` makes of what it has received. -/
def fetchReturn (diff : Int) (after : Session) (ret : IoTError) : FetchReturn :=
  if ret ≠ .successRet then
    if ret = .errHttpNotFound then .code .errOtaFileNotExist
    else if ret = .errHttpAuthError then .code .errOtaFetchAuthFail
    else if ret = .errHttpTimeout then .code .errOtaFetchTimeout
    else .code ret
  else
    .count (after.data.responseContentLen - after.data.retrieveLen - diff)

namespace Fetcher

/-- The session in which `ofc_fetch` receives. -/
def prepared (f : Fetcher) (buf : List UInt8) (arrivals : List Arrival) :
    Session :=
  { f.session arrivals with
    data :=
      { (f.session arrivals).data with
        responseBuf := some buf
        responseBufLen := buf.length
        responseContentLen := 0
        responseReceivedLen := 0 } }

/-- Where no response is being retrieved a new one is awaited. -/
def awaiting (f : Fetcher) (buf : List UInt8) (small : buf.length < 2 ^ 31) :
    Awaiting where
  handle := f.handle
  responseCode := f.responseCode
  clock := f.clock
  isChunked := f.isChunked
  retrieveLen := f.retrieveLen
  responseContentLen := 0
  responseReceivedLen := 0
  responseBuf := buf
  connected := f.connected
  small := small

theorem prepared_awaiting {f : Fetcher} (new : f.isMore = false)
    (buf : List UInt8) (small : buf.length < 2 ^ 31)
    (arrivals : List Arrival) :
    f.prepared buf arrivals = (f.awaiting buf small).session arrivals := by
  unfold prepared session
  dsimp only
  rw [new]
  rfl

/-- The fetch of a client, once its request is sent. -/
def fetch (f : Fetcher) (buf : List UInt8) (timeoutS : UInt32)
    (arrivals : List Arrival) (turns : Nat) : Session × Option FetchReturn :=
  ofcFetch turns .successRet (f.session arrivals) buf timeoutS

variable {f : Fetcher} {buf : List UInt8} {timeoutS : UInt32}
  {arrivals : List Arrival}

theorem fetch_eq (turns : Nat) :
    f.fetch buf timeoutS arrivals turns =
      let result := httpClientRecvData turns (f.prepared buf arrivals)
        (timeoutS * 1000).toNat
      (result.1, result.2.map (fetchReturn (0 - f.retrieveLen) result.1)) := by
  unfold fetch ofcFetch
  rw [if_neg (not_not_intro rfl)]
  change (match httpClientRecvData turns (f.prepared buf arrivals)
    (timeoutS * 1000).toNat with
    | (s, none) => (s, none)
    | (s, some ret) => _) = _
  rcases httpClientRecvData turns (f.prepared buf arrivals)
    (timeoutS * 1000).toNat with ⟨after, _ | ret⟩
  · rfl
  · dsimp only [Option.map_some]
    unfold fetchReturn
    split
    · split
      · rfl
      · split
        · rfl
        · split <;> rfl
    · rfl

/-- What a fetch receives with. -/
def receive (f : Fetcher) (buf : List UInt8) (timeoutS : UInt32)
    (arrivals : List Arrival) (turns : Nat) : Session × Option IoTError :=
  httpClientRecvData turns (f.prepared buf arrivals) (timeoutS * 1000).toNat

theorem fetch_settles {after : Session}
    (settles : Settles (f.receive buf timeoutS arrivals) after .successRet) :
    Settles (f.fetch buf timeoutS arrivals) after (.count
      (after.data.responseContentLen - after.data.retrieveLen -
        (0 - f.retrieveLen))) := by
  obtain ⟨enough, ends⟩ := settles
  refine ⟨enough, fun turns reached => ?_⟩
  have run : httpClientRecvData turns (f.prepared buf arrivals)
    (timeoutS * 1000).toNat = _ := ends turns reached
  rw [fetch_eq, run]
  rfl

theorem fetch_fails {ret : IoTError}
    (fails : Fails (f.receive buf timeoutS arrivals) ret)
    (received : Received ret) (failed : ret ≠ .successRet) :
    Fails (f.fetch buf timeoutS arrivals) (.code ret) := by
  obtain ⟨enough, ends⟩ := fails
  refine ⟨enough, fun turns reached => ?_⟩
  obtain ⟨run, inBounds⟩ := ends turns reached
  rw [fetch_eq]
  refine ⟨?_, inBounds⟩
  change Option.map _ (f.receive buf timeoutS arrivals turns).2 = _
  rw [run]
  rcases received with rfl | rfl | rfl | rfl
  · exact absurd rfl failed
  all_goals rfl

theorem bounded_receive (bounded : Bounded (f.fetch buf timeoutS arrivals)) :
    Bounded (f.receive buf timeoutS arrivals) := by
  obtain ⟨enough, inside⟩ := bounded
  refine ⟨enough, fun turns reached => ?_⟩
  have within := inside turns reached
  rw [fetch_eq] at within
  exact within

/-- No status becomes an error of its own. -/
theorem fetch_code {turns : Nat} {ret : IoTError}
    (returned : (f.fetch buf timeoutS arrivals turns).2 = some (.code ret)) :
    Received ret := by
  rw [fetch_eq] at returned
  obtain ⟨code, same, mapped⟩ := Option.map_eq_some_iff.mp returned
  have settled : (f.prepared buf arrivals).data.isMore = false →
      (f.prepared buf arrivals).data.retrieveLen = 0 := fun new =>
    congrArg Int.ofNat (f.settled new)
  have received :=
    (httpClientRecvData_returned turns settled _).2 code same
  rcases received with rfl | rfl | rfl | rfl
  · cases mapped
  · obtain rfl := FetchReturn.code.inj mapped
    exact .inr (.inl rfl)
  · obtain rfl := FetchReturn.code.inj mapped
    exact .inr (.inr (.inl rfl))
  · obtain rfl := FetchReturn.code.inj mapped
    exact .inr (.inr (.inr rfl))

theorem fetch_not_fails {ret : IoTError} (other : ¬Received ret) :
    ¬Fails (f.fetch buf timeoutS arrivals) (.code ret) := by
  rintro ⟨enough, ends⟩
  exact other (fetch_code (ends enough le_rfl).1)

/-- A fetch counts what it has taken. -/
theorem fetch_takes {stream buffer : List UInt8} {due room : Nat}
    {contentLen : Int}
    (counts : Counts (f.receive buf timeoutS arrivals) stream buffer due room
      contentLen)
    (total : contentLen + f.retrieveLen = due)
    (enough : min due room ≤ stream.length) :
    ∃ after, Settles (f.fetch buf timeoutS arrivals) after
        (.count (min due room : Nat)) ∧ after.InBounds ∧
      after.buffer = headerArray (stream.take (min due room)) buffer := by
  obtain ⟨after, settles, inBounds, content, retrieve, held⟩ :=
    counts.takes enough
  have ends := fetch_settles settles
  have count : after.data.responseContentLen - after.data.retrieveLen -
      (0 - f.retrieveLen) = (min due room : Nat) := by
    rw [content, retrieve]
    omega
  rw [count] at ends
  exact ⟨after, ends, inBounds, held⟩

end Fetcher

/-! ## Statuses -/

/-- The status of a response. -/
def status (r : Response) : Nat := digitsValue r.statusCode

/-- The status is one of success. -/
def Successful (r : Response) : Prop := 200 ≤ status r ∧ status r < 300

instance (r : Response) : Decidable (Successful r) :=
  inferInstanceAs (Decidable (_ ∧ _))

/-- The bytes a fetch counts are the first of the body, if the status is one of
success; with any other status it returns the error for this status. -/
def ReportsStatus (r : Response) (run : Nat → Session × Option FetchReturn) :
    Prop :=
  if Successful r then
    ∀ after count, Settles run after (.count count) → after.InBounds →
      0 < count → ∃ bytes, bytes <+: r.body ∧ bytes <+: after.buffer ∧
        (bytes.length : Int) = count
  else if status r = 404 then Fails run (.code .errOtaFileNotExist)
  else if status r = 401 ∨ status r = 403 then
    Fails run (.code .errOtaFetchAuthFail)
  else ∃ ret, ret.negative ∧ Fails run (.code ret)

/-- The stream a fetch takes its bytes from, and how many are due: the body of
the response as the length says that is read from its header, or, where another
response was not retrieved in whole, the new response from its status line
on. -/
def Fetcher.Draws (f : Fetcher) (r : Response) (timeoutMs : Nat)
    (arrivals : List Arrival) (stream : List UInt8) (due : Nat) : Prop :=
  (f.isMore = true ∧ stream = r.bytes ∧ due = f.retrieveLen) ∨
    (f.isMore = false ∧ stream = r.body ∧ RoomArrives timeoutMs arrivals ∧
      ∃ text stale, HeaderArrives timeoutMs arrivals text stale ∧
        lengthRead text stale = (due : Int))

/-- The fetch gives up before the body: the first read lacks the end of the
status line, or there is no length in the header, or −1. -/
def Fetcher.GivesUp (f : Fetcher) (timeoutMs : Nat) (arrivals : List Arrival) :
    Prop :=
  f.isMore = false ∧ (¬StatusLineArrives timeoutMs arrivals ∨
    RoomArrives timeoutMs arrivals ∧
      ∃ text stale, HeaderArrives timeoutMs arrivals text stale ∧
        lengthRead text stale = -1)

/-- With a status of success the bytes drawn are the first of the body.  The
status is not one of those with an error of their own, and with any other one
that is not of success the fetch gives up or draws too little. -/
def StatusReaches (r : Response) (f : Fetcher) (room timeoutMs : Nat)
    (arrivals : List Arrival) : Prop :=
  if Successful r then
    f.isMore = true → min f.retrieveLen room ≤ r.bytes.length →
      r.bytes.take (min f.retrieveLen room) <+: r.body
  else
    (status r ≠ 404 ∧ status r ≠ 401 ∧ status r ≠ 403) ∧
      (f.GivesUp timeoutMs arrivals ∨
        ∃ stream due, f.Draws r timeoutMs arrivals stream due ∧
          stream.length < min due room)

section

variable {r : Response} {f : Fetcher} {buf : List UInt8} {timeoutS : UInt32}
  {arrivals : List Arrival} {room : Nat}

/-- A client that is to go on with another response takes the new one for the
rest of its body. -/
theorem prepared_going (more : f.isMore = true)
    (delivers : Delivers arrivals r.bytes) (nonempty : 0 < buf.length) :
    (f.prepared buf arrivals).Going buf r.bytes f.retrieveLen where
  receiving :=
    { sound := ⟨fun _ mem => (nomatch mem), fun _ mem => (nomatch mem)⟩
      nonnegative := Int.natCast_nonneg _
      bounded := le_rfl
      size := rfl
      positive := Int.natCast_pos.mpr nonempty }
  connected := f.connected
  isMore := more
  declared := by
    change (0 : Int) ≠ -1
    decide
  responseBuf := rfl
  retrieveLen := rfl
  delivers := delivers

/-- What is drawn is counted. -/
theorem Fetcher.Draws.counts (small : buf.length < 2 ^ 31)
    (large : room + 1 = buf.length) (delivers : Delivers arrivals r.bytes)
    {stream : List UInt8} {due : Nat}
    (draws : f.Draws r (timeoutS * 1000).toNat arrivals stream due) :
    ∃ buffer contentLen, contentLen + (f.retrieveLen : Int) = due ∧
      Counts (f.receive buf timeoutS arrivals) stream buffer due room
        contentLen := by
  have nonempty : 0 < buf.length := by omega
  rcases draws with ⟨more, rfl, rfl⟩ |
    ⟨new, rfl, roomy, text, stale, arrives, declared⟩
  · have going := prepared_going more delivers nonempty
    have bounded : Bounded (f.receive buf timeoutS arrivals) :=
      ⟨0, fun turns _ => (going.call_sound turns).within⟩
    exact ⟨overlay buf 0 [0], 0, Int.zero_add _,
      (going.collects large).counts going.buffered rfl bounded⟩
  · have counts := recvData_counts (w := f.awaiting buf small) delivers large
      roomy arrives declared
    rw [← prepared_awaiting new buf small arrivals] at counts
    have nothing : (due : Int) + (f.retrieveLen : Int) = due := by
      rw [f.settled new]
      exact Int.add_zero _
    exact ⟨buf, due, nothing, counts⟩

theorem Fetcher.GivesUp.fails (small : buf.length < 2 ^ 31)
    (nonempty : 0 < buf.length) (delivers : Delivers arrivals r.bytes)
    (givesUp : f.GivesUp (timeoutS * 1000).toNat arrivals) :
    ∃ ret, ret.negative ∧
      Fails (f.fetch buf timeoutS arrivals) (.code ret) := by
  obtain ⟨new, early | ⟨roomy, text, stale, arrives, unannounced⟩⟩ := givesUp
  · have fails := recvData_unresolved (w := f.awaiting buf small) delivers
      nonempty early
    rw [← prepared_awaiting new buf small arrivals] at fails
    exact ⟨_, by decide, Fetcher.fetch_fails fails (.inr (.inr (.inr rfl)))
      (by decide)⟩
  · have fails := recvData_unannounced (w := f.awaiting buf small) delivers
      nonempty roomy arrives unannounced
    rw [← prepared_awaiting new buf small arrivals] at fails
    exact ⟨_, by decide, Fetcher.fetch_fails fails received_conn (by decide)⟩

/-- A fetch that leaves no buffer gives up or draws from a stream. -/
theorem draws_of_bounded (small : buf.length < 2 ^ 31)
    (nonempty : 0 < buf.length) (delivers : Delivers arrivals r.bytes)
    (bounded : Bounded (f.fetch buf timeoutS arrivals)) :
    f.GivesUp (timeoutS * 1000).toNat arrivals ∨
      ∃ stream due, f.Draws r (timeoutS * 1000).toNat arrivals stream due := by
  have inside := Fetcher.bounded_receive bounded
  cases new : f.isMore with
  | true => exact .inr ⟨_, _, .inl ⟨new, rfl, rfl⟩⟩
  | false =>
      unfold Fetcher.receive at inside
      rw [Fetcher.prepared_awaiting new buf small arrivals] at inside
      have roomy := roomArrives_of_bounded (w := f.awaiting buf small) nonempty
        inside
      by_cases comes : StatusLineArrives (timeoutS * 1000).toNat arrivals
      · obtain ⟨length, lengthArrives⟩ := LengthArrives.exists delivers comes
        obtain ⟨text, stale, arrives, rfl⟩ := lengthArrives.header
        have defined : -1 ≤ lengthRead text stale := by
          by_contra below
          exact not_bounded_below (w := f.awaiting buf small) delivers nonempty
            roomy arrives (not_le.mp below) inside
        by_cases unannounced : lengthRead text stale = -1
        · exact .inl ⟨new, .inr ⟨roomy, text, stale, arrives, unannounced⟩⟩
        · obtain ⟨due, declared⟩ := Int.eq_ofNat_of_zero_le
            (show 0 ≤ lengthRead text stale by omega)
          exact .inr ⟨r.body, due, .inr ⟨new, rfl, roomy, text, stale, arrives,
            declared⟩⟩
      · exact .inl ⟨new, .inl comes⟩

/-- A fetch of a response with a status of success. -/
theorem successful_iff (small : buf.length < 2 ^ 31)
    (large : room + 1 = buf.length) (delivers : Delivers arrivals r.bytes) :
    (∀ after count, Settles (f.fetch buf timeoutS arrivals) after
        (.count count) → after.InBounds → 0 < count →
      ∃ bytes, bytes <+: r.body ∧ bytes <+: after.buffer ∧
        (bytes.length : Int) = count) ↔
      (f.isMore = true → min f.retrieveLen room ≤ r.bytes.length →
        r.bytes.take (min f.retrieveLen room) <+: r.body) := by
  constructor
  · intro reports more enough
    have draws : f.Draws r (timeoutS * 1000).toNat arrivals r.bytes
        f.retrieveLen := .inl ⟨more, rfl, rfl⟩
    obtain ⟨buffer, contentLen, total, counts⟩ :=
      draws.counts small large delivers
    obtain ⟨after, settles, inBounds, held⟩ :=
      Fetcher.fetch_takes counts total enough
    by_cases nothing : min f.retrieveLen room = 0
    · rw [nothing, List.take_zero]
      exact List.nil_prefix
    obtain ⟨bytes, body, front, length⟩ :=
      reports after _ settles inBounds (by omega)
    rw [held] at front
    have size : (r.bytes.take (min f.retrieveLen room)).length =
        min f.retrieveLen room := List.length_take_of_le enough
    have whole : r.bytes.take (min f.retrieveLen room) <+:
        headerArray (r.bytes.take (min f.retrieveLen room)) buffer :=
      List.prefix_append ..
    have same : bytes = r.bytes.take (min f.retrieveLen room) :=
      (List.prefix_of_prefix_length_le front whole (by omega)).eq_of_length
        (by omega)
    exact same ▸ body
  · intro fits after count settles inBounds positive
    have bounded : Bounded (f.fetch buf timeoutS arrivals) := by
      obtain ⟨enough, ends⟩ := settles
      refine ⟨enough, fun turns reached => ?_⟩
      rw [ends turns reached]
      exact inBounds
    rcases draws_of_bounded small (by omega) delivers bounded with
      givesUp | ⟨stream, due, draws⟩
    · obtain ⟨ret, -, fails⟩ := givesUp.fails small (by omega) delivers
      cases settles.ret_eq fails.gives
    obtain ⟨buffer, contentLen, total, counts⟩ :=
      draws.counts small large delivers
    by_cases enough : min due room ≤ stream.length
    · obtain ⟨after', settles', -, held⟩ :=
        Fetcher.fetch_takes counts total enough
      obtain ⟨rfl, same⟩ := settles.unique settles'
      obtain rfl := FetchReturn.count.inj same
      refine ⟨stream.take (min due room), ?_, ?_, ?_⟩
      · rcases draws with ⟨more, rfl, rfl⟩ | ⟨-, rfl, -⟩
        · exact fits more enough
        · exact List.take_prefix ..
      · rw [held]
        exact List.prefix_append ..
      · rw [List.length_take_of_le enough]
    · have fails := Fetcher.fetch_fails (counts.fails (not_le.mp enough))
        received_conn (by decide)
      cases settles.ret_eq fails.gives

/-- A fetch returns an error exactly if it gives up or draws too little. -/
theorem fails_iff (small : buf.length < 2 ^ 31)
    (large : room + 1 = buf.length) (delivers : Delivers arrivals r.bytes) :
    (∃ ret, ret.negative ∧ Fails (f.fetch buf timeoutS arrivals) (.code ret)) ↔
      f.GivesUp (timeoutS * 1000).toNat arrivals ∨
        ∃ stream due, f.Draws r (timeoutS * 1000).toNat arrivals stream due ∧
          stream.length < min due room := by
  constructor
  · rintro ⟨ret, -, fails⟩
    rcases draws_of_bounded small (by omega) delivers fails.bounded with
      givesUp | ⟨stream, due, draws⟩
    · exact .inl givesUp
    · refine .inr ⟨stream, due, draws, ?_⟩
      obtain ⟨buffer, contentLen, total, counts⟩ :=
        draws.counts small large delivers
      by_contra enough
      obtain ⟨after, settles, -⟩ :=
        Fetcher.fetch_takes counts total (not_lt.mp enough)
      cases settles.ret_eq fails.gives
  · rintro (givesUp | ⟨stream, due, draws, few⟩)
    · exact givesUp.fails small (by omega) delivers
    · obtain ⟨buffer, contentLen, total, counts⟩ :=
        draws.counts small large delivers
      exact ⟨_, by decide, Fetcher.fetch_fails (counts.fails few) received_conn
        (by decide)⟩

end

/-- The status of a well-formed response reaches the caller of `ofc_fetch`
exactly if it is one of success and no rest of another response is counted, or
none of 401, 403 and 404 and the fetch fails for another reason. -/
theorem fetch_reportsStatus_iff (r : Response) (f : Fetcher) (buf : List UInt8)
    (nonempty : 0 < buf.length) (small : buf.length < 2 ^ 31)
    (timeoutS : UInt32) (arrivals : List Arrival)
    (delivers : Delivers arrivals r.bytes) :
    ReportsStatus r (f.fetch buf timeoutS arrivals) ↔
      StatusReaches r f (buf.length - 1) (timeoutS * 1000).toNat arrivals := by
  have large : buf.length - 1 + 1 = buf.length := by omega
  unfold ReportsStatus StatusReaches
  by_cases successful : Successful r
  · rw [if_pos successful, if_pos successful]
    exact successful_iff small large delivers
  · rw [if_neg successful, if_neg successful]
    have missing : ¬Received .errOtaFileNotExist := by
      unfold Received
      decide
    have refused : ¬Received .errOtaFetchAuthFail := by
      unfold Received
      decide
    by_cases absent : status r = 404
    · rw [if_pos absent]
      exact iff_of_false (Fetcher.fetch_not_fails missing)
        fun reaches => reaches.1.1 absent
    rw [if_neg absent]
    by_cases denied : status r = 401 ∨ status r = 403
    · rw [if_pos denied]
      refine iff_of_false (Fetcher.fetch_not_fails refused) fun reaches => ?_
      exact denied.elim reaches.1.2.1 reaches.1.2.2
    · rw [if_neg denied, fails_iff small large delivers]
      rw [not_or] at denied
      exact (and_iff_right ⟨absent, denied⟩).symm

/-! ## A missing file -/

/-- The answer to the request for a file that is not there. -/
def notFound : Response where
  statusCode := ascii "404"
  reason := ascii "Not Found"
  fields :=
    [{ name := ascii "Content-Length"
       value := ascii " 4"
       named := contentLength_ne_nil
       nameText := contentLength_text
       valueText := by decide +kernel }]
  body := ascii "none"
  threeDigits := by decide +kernel
  reasonText := by decide +kernel
  announced :=
    ⟨_, List.mem_singleton_self _, contentLength_lower, [32], [52], [], rfl,
      blank_before, by decide, by decide +kernel, rfl⟩

/-- A client that is connected and has fetched nothing. -/
def connectedFetcher : Fetcher where
  handle := 1
  responseCode := 0
  clock := 0
  isMore := false
  isChunked := 0
  retrieveLen := 0
  responseContentLen := 0
  responseReceivedLen := 0
  connected := Nat.one_ne_zero
  settled := fun _ => rfl

/-- A buffer of sixteen bytes. -/
def smallBuffer : List UInt8 := List.replicate 16 0

/-- The answer comes at once. -/
def notFoundArrivals : List Arrival := [⟨0, .ok notFound.bytes⟩]

theorem notFoundArrivals_delivers :
    Delivers notFoundArrivals notFound.bytes := by
  have delivers := Delivers.cons 0 (by decide : notFound.bytes ≠ []) .nil
  rwa [List.append_nil] at delivers

theorem fetch_reportsStatus_iff_notFound :
    ReportsStatus notFound
        (connectedFetcher.fetch smallBuffer 5 notFoundArrivals) ↔
      StatusReaches notFound connectedFetcher (smallBuffer.length - 1)
        ((5 : UInt32) * 1000).toNat notFoundArrivals :=
  fetch_reportsStatus_iff notFound connectedFetcher smallBuffer (by decide)
    (by decide) 5 notFoundArrivals notFoundArrivals_delivers

/-- The error page is counted as four bytes of the firmware. -/
theorem notFound_counted :
    Delivers notFoundArrivals notFound.bytes ∧
      (connectedFetcher.fetch smallBuffer 5 notFoundArrivals 3).2 =
        some (.count 4) ∧
      ¬ReportsStatus notFound
        (connectedFetcher.fetch smallBuffer 5 notFoundArrivals) := by
  refine ⟨notFoundArrivals_delivers, by decide +kernel, fun reports => ?_⟩
  have absent : status notFound = 404 := by decide +kernel
  unfold ReportsStatus at reports
  rw [if_neg (by decide +kernel), if_pos absent] at reports
  have missing : ¬Received .errOtaFileNotExist := by
    unfold Received
    decide
  exact Fetcher.fetch_not_fails missing reports

end Ota
end UIoT
