import UIoT.Mqtt.Client

/-!
# Receiving an HTTP response

`http_client_recv_data` and the functions below it: the header is gathered in
an array of 1024 bytes until its blank line is in it, and the body is copied
from this array to the caller's buffer, piece by piece.

Every use the code makes of its two buffers is recorded with the length it
passes, and so is every value it gives to `retrieve_len`.  What happens behind a
use that leaves its buffer is not said: the model goes on with the bytes that
are there.
-/

namespace UIoT
namespace Http

open Mqtt (Timer)

/-! ## Limits -/

/-- `MIN_TIMEOUT`, in milliseconds. -/
def minTimeout : Int := 100

/-- `MAX_RETRY_COUNT` -/
def maxRetryCount : Nat := 600

/-- `HTTP_CLIENT_READ_BUF_SIZE` -/
def httpClientReadBufSize : Nat := 1024

/-- `HTTP_CLIENT_READ_HEAD_SIZE` -/
def httpClientReadHeadSize : Nat := 32

/-- `HTTP_CLIENT_CHUNK_SIZE` -/
def httpClientChunkSize : Nat := 1024

/-! ## Strings -/

/-- The string in a buffer, up to its terminator. -/
def cString (buffer : List UInt8) : List UInt8 :=
  (CString.ofArray buffer).bytes

/-- `strstr`: where the first occurrence of the pattern begins. -/
def strstr (pattern : List UInt8) : List UInt8 → Option Nat
  | [] => if pattern = [] then some 0 else none
  | byte :: text =>
      if pattern <+: byte :: text then some 0
      else (strstr pattern text).map (· + 1)

/-- `isspace` -/
def isSpace (byte : UInt8) : Bool := byte = 32 || (9 ≤ byte && byte ≤ 13)

/-- `isdigit` -/
def isDigit (byte : UInt8) : Bool := 48 ≤ byte && byte ≤ 57

/-- The number decimal digits write. -/
def digitsValue (digits : List UInt8) : Nat :=
  digits.foldl (fun value byte => value * 10 + (byte.toNat - 48)) 0

/-- `strtol` in base ten: the digits behind white space and a sign, cut off at
the bounds of a 64-bit `long`. -/
def strtol (text : List UInt8) : Int :=
  let text := text.dropWhile isSpace
  let (negative, text) :=
    match text with
    | 45 :: text => (true, text)
    | 43 :: text => (false, text)
    | text => (false, text)
  let value := digitsValue (text.takeWhile isDigit)
  if negative then max (-value) (-2 ^ 63) else min value (2 ^ 63 - 1)

/-- `atoi`, which is `(int) strtol`. -/
def atoi (text : List UInt8) : Int := Int.bmod (strtol text) (2 ^ 32)

/-! ## The network -/

/-- What a read finds: how many microseconds it takes, and the bytes there are
or its error.  Where there are none it has timed out. -/
structure Arrival where
  elapsed : Nat
  result : Except NetError (List UInt8)

/-- `net.read` with room for a number of bytes.  Bytes for which there is no
room wait for the next read; behind all arrivals reads time out, which takes
some time even where none is given. -/
def netRead (arrivals : List Arrival) (room timeoutMs : Nat) :
    Arrival × List Arrival :=
  match arrivals with
  | [] => (⟨max 1 (timeoutMs * 1000), .ok []⟩, [])
  | ⟨elapsed, .error error⟩ :: arrivals => (⟨elapsed, .error error⟩, arrivals)
  | ⟨elapsed, .ok bytes⟩ :: arrivals =>
      if bytes.length ≤ room then (⟨elapsed, .ok bytes⟩, arrivals)
      else
        (⟨elapsed, .ok (bytes.take room)⟩,
          ⟨0, .ok (bytes.drop room)⟩ :: arrivals)

/-! ## The client -/

/-- `http_client_t`: the handle of its network, where zero is none, the code of
the last response, and what the network will deliver.  The clock counts
microseconds. -/
structure HttpClient where
  handle : Nat
  responseCode : Int
  arrivals : List Arrival
  clock : Nat

/-- `http_client_data_t`, as far as receiving goes, with the memory its buffer
points to. -/
structure HttpClientData where
  isMore : Bool
  isChunked : Int
  retrieveLen : Int
  responseContentLen : Int
  responseReceivedLen : Int
  responseBufLen : Int
  responseBuf : Option (List UInt8)

/-- A use of a buffer: its size, and the first byte and the number of bytes that
are used. -/
structure BufferUse where
  size : Nat
  offset : Int
  length : Int
  deriving DecidableEq, Repr

/-- The use does not leave the buffer. -/
def BufferUse.Within (use : BufferUse) : Prop :=
  0 ≤ use.length ∧ 0 ≤ use.offset ∧ use.offset + use.length ≤ use.size

instance (use : BufferUse) : Decidable use.Within := by
  unfold BufferUse.Within
  infer_instance

/-- A client with its data, followed by the records: the uses of buffers, the
`Content-Length` of the response being retrieved, and the values given to
`retrieve_len`, each with the `Content-Length` at that time. -/
structure Session where
  client : HttpClient
  data : HttpClientData
  uses : List BufferUse
  announced : Int
  retrieved : List (Int × Int)

/-- The `int` a receiving function returns: an error code or
`HTTP_RETRIEVE_MORE_DATA`. -/
inductive HttpReturn
  | code (ret : IoTError)
  | retrieveMoreData
  deriving DecidableEq, Repr

namespace Session

/-- The memory of the response buffer. -/
def buffer (s : Session) : List UInt8 := s.data.responseBuf.getD []

/-- Record a use of a buffer. -/
def use (s : Session) (size : Nat) (offset length : Int) : Session :=
  { s with uses := s.uses ++ [⟨size, offset, length⟩] }

/-- Give `retrieve_len` a value. -/
def setRetrieveLen (s : Session) (value : Int) : Session :=
  { s with
    data := { s.data with retrieveLen := value }
    retrieved := s.retrieved ++ [(s.announced, value)] }

end Session

/-! ## Memory -/

/-- Bytes written into a buffer, as far as they are in it. -/
def overlay (buffer : List UInt8) (offset : Nat) (bytes : List UInt8) :
    List UInt8 :=
  (buffer.take offset ++ bytes ++ buffer.drop (offset + bytes.length)).take
    buffer.length

/-- `memcpy` into the response buffer, from the beginning of an array. -/
def copyToResponse (s : Session) (count : Int) (source : List UInt8)
    (length : Int) : Session :=
  let s := s.use s.buffer.length count length
  let s := s.use source.length 0 length
  { s with
    data :=
      { s.data with
        responseBuf := s.data.responseBuf.map fun buffer =>
          overlay buffer count.toNat (source.take length.toNat) } }

/-- `response_buf[count] = '\0'` -/
def terminateResponse (s : Session) (count : Int) : Session :=
  let s := s.use s.buffer.length count 1
  { s with
    data :=
      { s.data with
        responseBuf := s.data.responseBuf.map fun buffer =>
          overlay buffer count.toNat [0] } }

/-- `memmove` to the beginning of the array, from one of its bytes. -/
def moveToFront (s : Session) (buf : List UInt8) (source : Nat)
    (length : Int) : Session × List UInt8 :=
  let s := s.use buf.length source length
  let s := s.use buf.length 0 length
  (s, overlay buf 0 ((buf.drop source).take length.toNat))

/-- `data[offset] = '\0'` -/
def terminate (s : Session) (buf : List UInt8) (offset : Nat) :
    Session × List UInt8 :=
  (s.use buf.length offset 1, overlay buf offset [0])

/-! ## Receiving -/

/-- `_http_recv` into the array from one of its bytes on: its answer, and how
many bytes it has read. -/
def httpRecv (s : Session) (buf : List UInt8) (offset : Nat) (maxLen : Int)
    (timeoutMs : Nat) : Session × List UInt8 × Nat × IoTError :=
  let s := s.use buf.length offset maxLen
  let (arrival, arrivals) := netRead s.client.arrivals maxLen.toNat timeoutMs
  let s :=
    { s with
      client :=
        { s.client with
          arrivals
          clock := s.client.clock + arrival.elapsed } }
  match arrival.result with
  | .error _ => (s, buf, 0, .errHttpConnError)
  | .ok [] => (s, buf, 0, .failureRet)
  | .ok bytes => (s, overlay buf offset bytes, bytes.length, .successRet)

/-- `left_ms` as an `int`. -/
def leftMs (timer : Timer) (clock : Nat) : Int :=
  Int.bmod (timer.leftMs clock) (2 ^ 32)

/-- The counters of `_http_get_response_body` and its timer. -/
structure Patience where
  timer : Timer
  deadLoopCount : Nat
  extendCount : Nat

/-- `_utils_check_deadloop` -/
def utilsCheckDeadloop (len : Nat) (clock : Nat) (patience : Patience)
    (ret : IoTError) : Patience × IoTError :=
  let patience :=
    if leftMs patience.timer clock < minTimeout then
      { patience with
        timer := .countdownMs clock minTimeout.toNat
        extendCount := patience.extendCount + 1 }
    else patience
  let idle := len = 0 ∧ leftMs patience.timer clock = 0 ∧ ret = .failureRet
  let patience :=
    { patience with
      deadLoopCount := if idle then patience.deadLoopCount + 1 else 0 }
  if idle ∧ patience.deadLoopCount > maxRetryCount then
    (patience, .errHttpConnError)
  else if len = 0 ∧ patience.extendCount > 2 * maxRetryCount ∧
      ret = .failureRet then
    (patience, .errHttpConnError)
  else
    (patience, .successRet)

/-- `_utils_fill_rx_buf`: the bytes now in the response buffer, and whether it
is full. -/
def utilsFillRxBuf (s : Session) (recvCount lenToWriteToResponseBuf : Int)
    (data : List UInt8) : Session × Int × Bool :=
  let room := s.data.responseBufLen - 1
  if recvCount + lenToWriteToResponseBuf < room then
    let s := copyToResponse s recvCount data lenToWriteToResponseBuf
    let count := recvCount + lenToWriteToResponseBuf
    let s := terminateResponse s count
    (s.setRetrieveLen (s.data.retrieveLen - lenToWriteToResponseBuf), count,
      false)
  else
    let s := copyToResponse s recvCount data (room - recvCount)
    let s := terminateResponse s room
    (s.setRetrieveLen (s.data.retrieveLen - (room - recvCount)), recvCount,
      true)

/-- The loop of `_http_get_response_body`, for a number of turns. -/
def bodyLoop (timeoutMs : Nat) :
    Nat → Session → List UInt8 → Int → Nat → Patience →
      Session × Option HttpReturn
  | 0, s, _, _, _, _ => (s, none)
  | turns + 1, s, buf, written, dataLen, patience =>
      let len := min (dataLen : Int) s.data.retrieveLen
      match utilsFillRxBuf s written len buf with
      | (s, _, true) => (s, some .retrieveMoreData)
      | (s, written, false) =>
          if s.data.retrieveLen = 0 then
            ({ s with data := { s.data with isMore := false } },
              some (.code .successRet))
          else
            let maxLen := min ((httpClientChunkSize : Int) - 1)
              (s.data.responseBufLen - 1 - written)
            let maxLen := min maxLen s.data.retrieveLen
            let (s, buf, dataLen, ret) := httpRecv s buf 0 maxLen timeoutMs
            if ret = .errHttpConnError then
              (s, some (.code ret))
            else
              let (patience, ret) :=
                utilsCheckDeadloop dataLen s.client.clock patience ret
              if ret = .errHttpConnError then
                (s, some (.code ret))
              else
                bodyLoop timeoutMs turns s buf written dataLen patience

/-- `_http_get_response_body` -/
def httpGetResponseBody (turns : Nat) (s : Session) (data : List UInt8)
    (dataLenActuallyReceived timeoutMs : Nat) : Session × Option HttpReturn :=
  let timer := Timer.countdownMs s.client.clock timeoutMs
  let s := { s with data := { s.data with isMore := true } }
  if s.data.responseContentLen = -1 ∧ s.data.isChunked = 0 then
    (s, some (.code .errHttpConnError))
  else
    bodyLoop timeoutMs turns s data 0 dataLenActuallyReceived ⟨timer, 0, 0⟩

/-- What the loop over the header ends with: the array, the number of bytes in
it, and where the blank line begins. -/
structure HeaderText where
  buf : List UInt8
  len : Nat
  bodyEnd : Nat

/-- `\r\n\r\n` -/
def headerEnd : List UInt8 := [13, 10, 13, 10]

/-- The loop of `_http_parse_response_header`, for a number of turns. -/
def headerLoop (timeoutMs : Nat) :
    Nat → Session → List UInt8 → Nat →
      Session × Option (Except HttpReturn HeaderText)
  | 0, s, _, _ => (s, none)
  | turns + 1, s, buf, len =>
      match strstr headerEnd (cString buf) with
      | some bodyEnd => (s, some (.ok ⟨buf, len, bodyEnd⟩))
      | none =>
          let (s, buf, newTrfLen, ret) :=
            httpRecv s buf len httpClientReadHeadSize timeoutMs
          if ret = .errHttpConnError then
            (s, some (.error (.code ret)))
          else
            let len := len + newTrfLen
            let (s, buf) := terminate s buf len
            headerLoop timeoutMs turns s buf len

/-- `"Content-Length"` -/
def contentLength : List UInt8 := ascii "Content-Length"

/-- The number behind the first `Content-Length` in the array. -/
def declaredLength (buf : List UInt8) : Option Int :=
  (strstr contentLength (cString buf)).map fun tmp =>
    atoi (buf.drop (tmp + (ascii "Content-Length: ").length))

/-- The part of `_http_parse_response_header` behind its loop. -/
def parseHeaderText (turns : Nat) (s : Session) (header : HeaderText)
    (timeoutMs : Nat) : Session × Option HttpReturn :=
  match declaredLength header.buf with
  | none => (s, some (.code .errHttpConnError))
  | some length =>
      let s :=
        { s with
          data := { s.data with responseContentLen := length }
          announced := length }
      let s := s.setRetrieveLen length
      let len := header.len - (header.bodyEnd + 4)
      let (s, buf) := moveToFront s header.buf (header.bodyEnd + 4) (len + 1)
      let s :=
        { s with
          data :=
            { s.data with
              responseReceivedLen := s.data.responseReceivedLen + len } }
      httpGetResponseBody turns s buf len timeoutMs

/-- `_http_parse_response_header` -/
def httpParseResponseHeader (turns : Nat) (s : Session) (data : List UInt8)
    (len timeoutMs : Nat) : Session × Option HttpReturn :=
  let s := { s with data := { s.data with responseContentLen := -1 } }
  match strstr [13, 10] (cString data) with
  | none => (s, some (.code .errHttpUnresolvedDns))
  | some crlfPos =>
      let (s, data) := terminate s data crlfPos
      let s :=
        { s with
          client :=
            { s.client with responseCode := atoi (cString (data.drop 9)) } }
      let (s, data) :=
        moveToFront s data (crlfPos + 2) ((len : Int) - (crlfPos + 2) + 1)
      let len := len - (crlfPos + 2)
      let s := { s with data := { s.data with isChunked := 0 } }
      match headerLoop timeoutMs turns s data len with
      | (s, none) => (s, none)
      | (s, some (.error ret)) => (s, some ret)
      | (s, some (.ok header)) => parseHeaderText turns s header timeoutMs

/-- `_http_client_recv_response` -/
def httpClientRecvResponse (turns : Nat) (s : Session) (timeoutMs : Nat) :
    Session × Option HttpReturn :=
  let buf := List.replicate httpClientReadBufSize 0
  if s.client.handle = 0 then
    (s, some (.code .errHttpConnError))
  else if s.data.isMore then
    let s := terminateResponse s 0
    httpGetResponseBody turns s buf 0 timeoutMs
  else
    let s := { s with data := { s.data with isMore := true } }
    let (s, buf, readLen, ret) :=
      httpRecv s buf 0 httpClientReadHeadSize timeoutMs
    if ret ≠ .successRet then
      (s, some (.code ret))
    else
      let (s, buf) := terminate s buf readLen
      if readLen ≠ 0 then httpParseResponseHeader turns s buf readLen timeoutMs
      else (s, some (.code ret))

/-- `http_client_close` -/
def httpClientClose (s : Session) : Session :=
  { s with client := { s.client with handle := 0 } }

/-- `http_client_recv_data` -/
def httpClientRecvData (turns : Nat) (s : Session) (timeoutMs : Nat) :
    Session × Option IoTError :=
  if s.data.responseBuf.isSome ∧ s.data.responseBufLen ≠ 0 then
    match httpClientRecvResponse turns s timeoutMs with
    | (s, none) => (s, none)
    | (s, some .retrieveMoreData) => (s, some .successRet)
    | (s, some (.code ret)) =>
        if ret.negative then (httpClientClose s, some ret)
        else (s, some .successRet)
  else
    (s, some .successRet)

end Http
end UIoT
