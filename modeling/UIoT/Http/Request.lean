import UIoT.Http.Header
import UIoT.Shadow.Values
import UIoT.Shadow.DocumentNodes

/-!
# Sending the header of a request

`_http_send_header` prints the lines of a request one after another into an
array of 300 bytes and gathers them in a buffer of 1024 bytes, which goes to
the network whenever it is full and once more at the end.

What has no defined behaviour in C, which is that `writen_len` leaves an `int`,
has no result here.
-/

namespace UIoT
namespace Http

open Shadow (halSnprintf)
open DecimalDigits

/-! ## The request -/

/-- `HTTP_CLIENT_SEND_BUF_SIZE` -/
def httpClientSendBufSize : Nat := 1024

/-- `HTTP_CLIENT_REQUEST_BUF_SIZE` -/
def httpClientRequestBufSize : Nat := 300

/-- `HTTP_Request_Method` -/
inductive HttpRequestMethod
  | httpGet
  | httpPost
  | httpPut
  | httpDelete
  | httpHead
  deriving DecidableEq, Repr

/-- What a request is sent with: the arguments of `_http_send_header`, the
header of the client and, of its data, the post data with their length and their
type. -/
structure Request where
  method : HttpRequestMethod
  host : CString
  path : CString
  sizeFetched : UInt32
  rangeLen : UInt64
  header : Option CString
  postBuf : Option (List UInt8)
  postBufLen : Int32
  postContentType : Option CString

/-- The name of a method. -/
def HttpRequestMethod.name : HttpRequestMethod → List UInt8
  | httpGet => ascii "GET"
  | httpPost => ascii "POST"
  | httpPut => ascii "PUT"
  | httpDelete => ascii "DELETE"
  | httpHead => ascii "HEAD"

/-- What `%d` prints of the low 32 bits of an unsigned number. -/
def printedInt (number : Nat) : List UInt8 := decimal (Int.bmod number (2 ^ 32))

/-- `%s %s HTTP/1.1` and the line of the host. -/
def Request.firstLines (request : Request) : List UInt8 :=
  request.method.name ++ ascii " " ++ request.path.bytes ++
    ascii " HTTP/1.1\r\nHost: " ++ request.host.bytes ++ ascii "\r\n"

/-- The line of the range, with its two numbers as they are printed. -/
def rangeLine (first last : List UInt8) : List UInt8 :=
  ascii "Range: bytes=" ++ first ++ ascii "-" ++ last ++ ascii "\r\n"

/-- The line of the type of the post data. -/
def contentTypeLine (type : CString) : List UInt8 :=
  ascii "Content-Type: " ++ type.bytes ++ ascii "\r\n"

/-- The line of the length of the post data. -/
def contentLengthLine (length : Int32) : List UInt8 :=
  ascii "Content-Length: " ++ decimal length.toInt ++ ascii "\r\n"

/-- What is printed for the first lines of a request. -/
def Request.printedLines (request : Request) : List UInt8 :=
  if request.rangeLen ≠ 0 then
    request.firstLines ++ rangeLine
      (printedInt request.sizeFetched.toNat)
      (printedInt (request.sizeFetched.toUInt64 + request.rangeLen).toNat)
  else request.firstLines

/-! ## The buffer -/

/-- What the network answers to each of its calls: how many bytes it takes, or
its error. -/
abbrev NetWrite := Nat → List UInt8 → Except NetError Nat

/-- `send_buf` with `len`, the number of bytes that are gathered in it, and what
was given to the network. -/
structure Transmission where
  sendBuf : List UInt8
  len : Nat
  offered : List (List UInt8)

/-- The loop of `_utils_fill_tx_buffer` with its variables `idx`, `writen_len`
and `len`.  Each turn but the first copies something. -/
def fillLoop (write : NetWrite) (buf : List UInt8) :
    (turns : Nat) → Transmission → (idx writenLen len : Nat) →
      Option (Transmission × Except NetError IoTError)
  | 0, _, _, _, _ => none
  | turns + 1, t, idx, writenLen, len =>
      let cpLen := min len (httpClientSendBufSize - idx)
      let copied := (buf.drop writenLen).take cpLen
      let t := { t with sendBuf := overlay t.sendBuf idx copied }
      let idx := idx + cpLen
      let writenLen := writenLen + cpLen
      let len := len - cpLen
      if 2 ^ 31 ≤ writenLen then none
      else if idx = httpClientSendBufSize then
        let answer := write t.offered.length t.sendBuf
        let t := { t with offered := t.offered ++ [t.sendBuf] }
        match answer with
        | .error error => some (t, .error error)
        | .ok ret =>
            if ret ≠ httpClientSendBufSize then
              some (t, .ok (if ret = 0 then .errHttpClosed
                else .errHttpConnError))
            else if len ≠ 0 then fillLoop write buf turns t 0 writenLen len
            else some ({ t with len := 0 }, .ok .successRet)
      else if len ≠ 0 then fillLoop write buf turns t idx writenLen len
      else some ({ t with len := idx }, .ok .successRet)

/-- `_utils_fill_tx_buffer` -/
def utilsFillTxBuffer (write : NetWrite) (t : Transmission) (buf : List UInt8)
    (len : Nat) : Option (Transmission × Except NetError IoTError) :=
  let len := if len = 0 then buf.length % 2 ^ 32 else len
  fillLoop write buf (len + 2) t t.len 0 len

/-- `_utils_fill_tx_buffer` with a string and its length, where its answer is
ignored. -/
def fillString (write : NetWrite) (t : Transmission) (buf : List UInt8) :
    Option Transmission :=
  (utilsFillTxBuffer write t buf (buf.length % 2 ^ 32)).map Prod.fst

/-- What `HAL_Snprintf` leaves in the array of 300 bytes. -/
def printedLine (formatted : List UInt8) : List UInt8 :=
  (halSnprintf [] 0 httpClientRequestBufSize formatted).1

/-- The part of `_http_send_header` about the header of the client. -/
def fillHeader (write : NetWrite) (request : Request) (t : Transmission) :
    Option Transmission :=
  match request.header with
  | none => some t
  | some header => fillString write t header.bytes

/-- The part of `_http_send_header` about the post data. -/
def fillPost (write : NetWrite) (request : Request) (t : Transmission) :
    Option Transmission :=
  match request.postBuf with
  | none => some t
  | some _ => do
      let t ← fillString write t
        (printedLine (contentLengthLine request.postBufLen))
      match request.postContentType with
      | none => some t
      | some type => fillString write t (printedLine (contentTypeLine type))

/-- `_http_send_header` -/
def httpSendHeader (write : NetWrite) (request : Request) :
    Option (Transmission × IoTError) := do
  let sendBuf := List.replicate httpClientSendBufSize 0
  let buf := printedLine request.printedLines
  let (t, ret) ← utilsFillTxBuffer write ⟨sendBuf, 0, []⟩ buf
    (buf.length % 2 ^ 32)
  if ret matches .ok .successRet then
    let t ← fillHeader write request t
    let t ← fillPost write request t
    let (t, _) ← utilsFillTxBuffer write t (ascii "\r\n") 0
    let last := t.sendBuf.take t.len
    let answer := write t.offered.length last
    let t := { t with offered := t.offered ++ [last] }
    match answer with
    | .error _ => some (t, .errHttpConnError)
    | .ok ret => some (t, if ret = 0 then .errHttpClosed else .successRet)
  else some (t, .errHttpConnError)

/-! ## What is to be sent -/

/-- The network takes all bytes of every call. -/
def AcceptsAll (write : NetWrite) : Prop :=
  ∀ call bytes, write call bytes = .ok bytes.length

/-- The request line, the host and the range. -/
def Request.requestLines (request : Request) : List UInt8 :=
  if request.rangeLen ≠ 0 then
    request.firstLines ++ rangeLine (digits request.sizeFetched.toNat)
      (digits (request.sizeFetched.toNat + request.rangeLen.toNat))
  else request.firstLines

/-- The lines about the post data. -/
def Request.postLines (request : Request) : List UInt8 :=
  match request.postBuf, request.postContentType with
  | none, _ => []
  | some _, none => contentLengthLine request.postBufLen
  | some _, some type =>
      contentLengthLine request.postBufLen ++ contentTypeLine type

/-- The header of the user. -/
def Request.userHeader (request : Request) : List UInt8 :=
  (request.header.map CString.bytes).getD []

/-- The whole header of a request. -/
def Request.text (request : Request) : List UInt8 :=
  request.requestLines ++ request.userHeader ++ request.postLines ++
    ascii "\r\n"

/-- The header is sent as it is to be, wherever the network takes all bytes. -/
def Request.Sent (request : Request) : Prop :=
  ∀ write, AcceptsAll write → ∃ t,
    httpSendHeader write request = some (t, .successRet) ∧
      t.offered.flatten = request.text

/-- The numbers of a range are an `int`. -/
def Request.RangeFits (request : Request) : Prop :=
  request.rangeLen ≠ 0 →
    request.sizeFetched.toNat + request.rangeLen.toNat < 2 ^ 31

/-- The line of the type, where there is one, is shorter than its array. -/
def Request.TypeFits (request : Request) : Prop :=
  ∀ data type, request.postBuf = some data →
    request.postContentType = some type →
      (contentTypeLine type).length < httpClientRequestBufSize

/-- The numbers of the range are printed as they are, the printed lines are
shorter than their array, the length of the user's header is an `int`, and some
bytes are left for the last write. -/
structure Request.Fits (request : Request) : Prop where
  range : request.RangeFits
  lines : request.requestLines.length < httpClientRequestBufSize
  header : request.userHeader.length < 2 ^ 31
  type : request.TypeFits
  rest : request.text.length % httpClientSendBufSize ≠ 0

/-! ## Filling the buffer -/

theorem printedLine_eq (formatted : List UInt8) :
    printedLine formatted =
      formatted.take (httpClientRequestBufSize - 1) := by
  unfold printedLine
  rw [Shadow.halSnprintf_eq _ _ _ (by decide) (by decide), List.take_nil,
    List.nil_append]

/-- What was gathered so far: a number of full buffers that were given to the
network, and the bytes in the buffer. -/
structure Transmission.Holds (t : Transmission) (gathered : List UInt8) :
    Prop where
  size : t.sendBuf.length = httpClientSendBufSize
  room : t.len < httpClientSendBufSize
  whole : t.offered.flatten.length % httpClientSendBufSize = 0
  text : t.offered.flatten ++ t.sendBuf.take t.len = gathered

/-- The bytes that are written stand behind those in front of them. -/
theorem overlay_take_behind {buffer bytes : List UInt8} {offset : Nat}
    (within : offset + bytes.length ≤ buffer.length) :
    (overlay buffer offset bytes).take (offset + bytes.length) =
      buffer.take offset ++ bytes := by
  have size : (buffer.take offset ++ bytes).length = offset + bytes.length := by
    rw [List.length_append, List.length_take]
    omega
  rw [overlay_eq within, ← size]
  exact List.take_left

section
variable {write : NetWrite} (accepts : AcceptsAll write) {buf : List UInt8}
include accepts

/-- The loop gathers the bytes from a place on behind those that are there. -/
theorem fillLoop_holds (turns : Nat) {t : Transmission}
    {idx writenLen len : Nat} (enough : len < turns)
    (size : t.sendBuf.length = httpClientSendBufSize)
    (room : idx < httpClientSendBufSize)
    (whole : t.offered.flatten.length % httpClientSendBufSize = 0)
    (there : writenLen + len ≤ buf.length) (short : writenLen + len < 2 ^ 31) :
    ∃ t', fillLoop write buf turns t idx writenLen len =
        some (t', .ok .successRet) ∧
      t'.Holds (t.offered.flatten ++ t.sendBuf.take idx ++
        (buf.drop writenLen).take len) := by
  induction turns generalizing t idx writenLen len with
  | zero => exact absurd enough (Nat.not_lt_zero _)
  | succ turns inductionHypothesis =>
      have count := Nat.min_le_left len (httpClientSendBufSize - idx)
      have fits := Nat.min_le_right len (httpClientSendBufSize - idx)
      generalize same : min len (httpClientSendBufSize - idx) = cpLen
        at count fits
      let bytes := (buf.drop writenLen).take cpLen
      have copiedSize : bytes.length = cpLen := by
        rw [List.length_take, List.length_drop]
        omega
      let sendBuf := overlay t.sendBuf idx bytes
      have sendSize : sendBuf.length = httpClientSendBufSize :=
        (length_overlay ..).trans size
      have written : sendBuf.take (idx + cpLen) =
          t.sendBuf.take idx ++ bytes := by
        have within : idx + bytes.length ≤ t.sendBuf.length := by
          rw [copiedSize, size]
          omega
        have written := overlay_take_behind within
        rwa [copiedSize] at written
      have split : (buf.drop writenLen).take len =
          bytes ++ (buf.drop (writenLen + cpLen)).take (len - cpLen) := by
        rw [← List.drop_drop, ← List.take_add, Nat.add_sub_of_le count]
      rw [fillLoop]
      dsimp only
      rw [same, if_neg (by omega)]
      by_cases full : idx + cpLen = httpClientSendBufSize
      · have all : sendBuf = t.sendBuf.take idx ++ bytes := by
          rw [← written, full, ← sendSize, List.take_length]
        have flat : (t.offered ++ [sendBuf]).flatten =
            t.offered.flatten ++ t.sendBuf.take idx ++ bytes := by
          rw [List.flatten_append, List.flatten_singleton, all,
            List.append_assoc]
        have whole' : (t.offered ++ [sendBuf]).flatten.length %
            httpClientSendBufSize = 0 := by
          rw [List.flatten_append, List.flatten_singleton, List.length_append,
            sendSize, Nat.add_mod_right]
          exact whole
        rw [if_pos full, accepts, sendSize]
        dsimp only
        rw [if_neg (not_not_intro rfl)]
        by_cases done : len - cpLen = 0
        · rw [if_neg (not_not_intro done)]
          have empty : 0 < httpClientSendBufSize := by decide
          refine ⟨_, rfl, sendSize, empty, whole', ?_⟩
          dsimp only
          rw [flat, split, done, List.take_zero, List.take_zero,
            List.append_nil, List.append_nil, List.append_assoc]
        · rw [if_pos done]
          have empty : 0 < httpClientSendBufSize := by decide
          have there' : writenLen + cpLen + (len - cpLen) ≤ buf.length := by
            omega
          obtain ⟨t', result, holds⟩ := inductionHypothesis
            (t := ⟨sendBuf, t.len, t.offered ++ [sendBuf]⟩)
            (by omega) sendSize empty whole' there' (by omega)
          refine ⟨t', result, ?_⟩
          dsimp only at holds
          rwa [flat, List.take_zero, List.append_nil, List.append_assoc _ bytes,
            ← split] at holds
      · have last : len = cpLen := by omega
        rw [if_neg full, if_neg (not_not_intro (by omega))]
        have below : idx + cpLen < httpClientSendBufSize := by omega
        refine ⟨_, rfl, sendSize, below, whole, ?_⟩
        dsimp only
        rw [written, split, last, Nat.sub_self, List.take_zero,
          List.append_nil, List.append_assoc]

/-- A text for whose length an `int` is too small has no defined outcome. -/
theorem fillLoop_overflows (turns : Nat) {t : Transmission}
    {idx writenLen len : Nat}
    (size : t.sendBuf.length = httpClientSendBufSize)
    (long : 2 ^ 31 ≤ writenLen + len) (short : writenLen < 2 ^ 31) :
    fillLoop write buf turns t idx writenLen len = none := by
  induction turns generalizing t idx writenLen len with
  | zero => rfl
  | succ turns inductionHypothesis =>
      have count := Nat.min_le_left len (httpClientSendBufSize - idx)
      generalize same : min len (httpClientSendBufSize - idx) = cpLen at count
      have sendSize : (overlay t.sendBuf idx
          ((buf.drop writenLen).take cpLen)).length = httpClientSendBufSize :=
        (length_overlay ..).trans size
      rw [fillLoop]
      dsimp only
      rw [same]
      by_cases beyond : 2 ^ 31 ≤ writenLen + cpLen
      · rw [if_pos beyond]
      · have more : len - cpLen ≠ 0 := by omega
        rw [if_neg beyond]
        by_cases full : idx + cpLen = httpClientSendBufSize
        · rw [if_pos full, accepts, sendSize]
          dsimp only
          rw [if_neg (not_not_intro rfl), if_pos more]
          exact inductionHypothesis sendSize (by omega) (by omega)
        · rw [if_neg full, if_pos more]
          exact inductionHypothesis sendSize (by omega) (by omega)

/-- The bytes of a string that its length as a `uint32_t` counts are gathered
behind those that are there, if an `int` can count them. -/
theorem utilsFillTxBuffer_outcome {t : Transmission} {gathered : List UInt8}
    (holds : t.Holds gathered) {len : Nat}
    (given : len = 0 ∨ len = buf.length % 2 ^ 32) :
    (utilsFillTxBuffer write t buf len = none ∧ 2 ^ 31 ≤ buf.length) ∨
      ∃ t' front, utilsFillTxBuffer write t buf len =
          some (t', .ok .successRet) ∧
        t'.Holds (gathered ++ front) ∧ front <+: buf ∧
          (front = buf ↔ buf.length < 2 ^ 31) := by
  have counted : (if len = 0 then buf.length % 2 ^ 32 else len) =
      buf.length % 2 ^ 32 := by
    split
    · rfl
    · rename_i nonzero
      exact given.resolve_left nonzero
  unfold utilsFillTxBuffer
  dsimp only
  rw [counted]
  by_cases long : 2 ^ 31 ≤ buf.length % 2 ^ 32
  · left
    refine ⟨fillLoop_overflows accepts _ holds.size ?_ (by decide), ?_⟩
    · rwa [Nat.zero_add]
    · exact long.trans (Nat.mod_le ..)
  · right
    have bound := Nat.mod_le buf.length (2 ^ 32)
    have there : 0 + buf.length % 2 ^ 32 ≤ buf.length := by omega
    obtain ⟨t', result, holds'⟩ := fillLoop_holds accepts
      (buf.length % 2 ^ 32 + 2) (by omega) holds.size holds.room holds.whole
      there (by omega)
    refine ⟨t', buf.take (buf.length % 2 ^ 32), result, ?_,
      List.take_prefix .., ?_⟩
    · rwa [holds.text, List.drop_zero] at holds'
    · rw [List.take_eq_self_iff]
      omega

/-- A string whose length is an `int` is gathered. -/
theorem utilsFillTxBuffer_short {t : Transmission} {gathered : List UInt8}
    (holds : t.Holds gathered) {len : Nat}
    (given : len = 0 ∨ len = buf.length % 2 ^ 32)
    (short : buf.length < 2 ^ 31) :
    ∃ t', utilsFillTxBuffer write t buf len = some (t', .ok .successRet) ∧
      t'.Holds (gathered ++ buf) := by
  rcases utilsFillTxBuffer_outcome accepts holds given with
    ⟨-, long⟩ | ⟨t', front, result, holds', -, whole⟩
  · omega
  · obtain rfl := whole.mpr short
    exact ⟨t', result, holds'⟩

theorem fillString_outcome {t : Transmission} {gathered : List UInt8}
    (holds : t.Holds gathered) :
    (fillString write t buf = none ∧ 2 ^ 31 ≤ buf.length) ∨
      ∃ t' front, fillString write t buf = some t' ∧
        t'.Holds (gathered ++ front) ∧ front <+: buf ∧
          (front = buf ↔ buf.length < 2 ^ 31) := by
  unfold fillString
  rcases utilsFillTxBuffer_outcome accepts holds (.inr rfl) with
    ⟨missing, long⟩ | ⟨t', front, result, rest⟩
  · exact .inl ⟨by rw [missing]; rfl, long⟩
  · exact .inr ⟨t', front, by rw [result]; rfl, rest⟩

theorem fillString_short {t : Transmission} {gathered : List UInt8}
    (holds : t.Holds gathered) (short : buf.length < 2 ^ 31) :
    ∃ t', fillString write t buf = some t' ∧ t'.Holds (gathered ++ buf) := by
  obtain ⟨t', result, holds'⟩ :=
    utilsFillTxBuffer_short accepts holds (.inr rfl) short
  exact ⟨t', by unfold fillString; rw [result]; rfl, holds'⟩

end

/-! ## Sending -/

/-- The lines about the post data, with a line cut where its array ends. -/
def Request.printedPost (request : Request) : List UInt8 :=
  match request.postBuf, request.postContentType with
  | none, _ => []
  | some _, none => contentLengthLine request.postBufLen
  | some _, some type =>
      contentLengthLine request.postBufLen ++
        (contentTypeLine type).take (httpClientRequestBufSize - 1)

/-- The line of the length is shorter than its array. -/
theorem length_contentLengthLine (length : Int32) :
    (contentLengthLine length).length < httpClientRequestBufSize := by
  have lower := length.le_toInt
  have upper := length.toInt_lt
  have number : (decimal length.toInt).length ≤ 10 + 1 :=
    Shadow.length_decimal_le (by decide) (by omega)
  have front : (ascii "Content-Length: ").length = 16 := by decide
  have ending : (ascii "\r\n").length = 2 := by decide
  unfold contentLengthLine httpClientRequestBufSize
  rw [List.length_append, List.length_append]
  omega

theorem length_printedLine (formatted : List UInt8) :
    (printedLine formatted).length < httpClientRequestBufSize := by
  have bound := List.length_take_le (httpClientRequestBufSize - 1) formatted
  rw [printedLine_eq]
  unfold httpClientRequestBufSize at *
  omega

theorem fillPost_holds {write : NetWrite} (accepts : AcceptsAll write)
    (request : Request) {t : Transmission} {gathered : List UInt8}
    (holds : t.Holds gathered) :
    ∃ t', fillPost write request t = some t' ∧
      t'.Holds (gathered ++ request.printedPost) := by
  unfold fillPost Request.printedPost
  cases request.postBuf with
  | none => exact ⟨t, rfl, by rwa [List.append_nil]⟩
  | some data =>
      have whole : printedLine (contentLengthLine request.postBufLen) =
          contentLengthLine request.postBufLen := by
        rw [printedLine_eq]
        exact List.take_of_length_le
          (Nat.le_sub_one_of_lt (length_contentLengthLine _))
      have bound (formatted : List UInt8) :
          (printedLine formatted).length < 2 ^ 31 :=
        (length_printedLine formatted).trans (by decide)
      obtain ⟨first, filled, holds⟩ := fillString_short accepts holds
        (bound (contentLengthLine request.postBufLen))
      dsimp only
      rw [filled, Option.bind_eq_bind, Option.bind_some]
      rw [whole] at holds
      cases request.postContentType with
      | none => exact ⟨first, rfl, holds⟩
      | some type =>
          obtain ⟨second, filled, holds⟩ := fillString_short accepts holds
            (bound (contentTypeLine type))
          rw [printedLine_eq, List.append_assoc] at holds
          exact ⟨second, filled, holds⟩

theorem fillHeader_outcome {write : NetWrite} (accepts : AcceptsAll write)
    (request : Request) {t : Transmission} {gathered : List UInt8}
    (holds : t.Holds gathered) :
    (fillHeader write request t = none ∧
        2 ^ 31 ≤ request.userHeader.length) ∨
      ∃ t' front, fillHeader write request t = some t' ∧
        t'.Holds (gathered ++ front) ∧ front <+: request.userHeader ∧
        (front = request.userHeader ↔
          request.userHeader.length < 2 ^ 31) := by
  unfold fillHeader Request.userHeader
  cases request.header with
  | none =>
      exact .inr ⟨t, [], rfl, by rwa [List.append_nil], List.nil_prefix,
        by decide⟩
  | some header => exact fillString_outcome accepts holds

/-- What comes of sending the header over a network that takes all bytes. -/
theorem httpSendHeader_outcome {write : NetWrite} (accepts : AcceptsAll write)
    (request : Request) :
    (httpSendHeader write request = none ∧
        2 ^ 31 ≤ request.userHeader.length) ∨
      ∃ t front sent, httpSendHeader write request =
          some (t, if sent.length % httpClientSendBufSize = 0
            then .errHttpClosed else .successRet) ∧
        t.offered.flatten = sent ∧
        sent = request.printedLines.take (httpClientRequestBufSize - 1) ++
          front ++ request.printedPost ++ ascii "\r\n" ∧
        front <+: request.userHeader ∧
        (front = request.userHeader ↔
          request.userHeader.length < 2 ^ 31) := by
  have begin : (⟨List.replicate httpClientSendBufSize 0, 0, []⟩ :
      Transmission).Holds [] :=
    ⟨List.length_replicate, by decide, rfl, rfl⟩
  obtain ⟨first, filled, holds⟩ := utilsFillTxBuffer_short accepts begin
    (.inr rfl) ((length_printedLine request.printedLines).trans (by decide))
  rw [printedLine_eq, List.nil_append] at holds
  unfold httpSendHeader
  dsimp only
  rw [filled, Option.bind_eq_bind, Option.bind_some]
  dsimp only
  rw [if_pos rfl]
  rcases fillHeader_outcome accepts request holds with
    ⟨missing, long⟩ | ⟨second, front, header, holds, begins, whole⟩
  · exact .inl ⟨by rw [missing]; rfl, long⟩
  right
  obtain ⟨third, post, holds⟩ := fillPost_holds accepts request holds
  obtain ⟨fourth, ending, holds⟩ := utilsFillTxBuffer_short accepts holds
    (.inl rfl) (by decide : (ascii "\r\n").length < 2 ^ 31)
  rw [header, Option.bind_eq_bind, Option.bind_some, post, Option.bind_some,
    ending, Option.bind_some]
  dsimp only
  rw [accepts]
  dsimp only
  have last : (fourth.sendBuf.take fourth.len).length = fourth.len := by
    rw [List.length_take, holds.size]
    exact Nat.min_eq_left (Nat.le_of_lt holds.room)
  have rest : fourth.len =
      (request.printedLines.take (httpClientRequestBufSize - 1) ++ front ++
        request.printedPost ++ ascii "\r\n").length %
          httpClientSendBufSize := by
    rw [← holds.text, List.length_append, last, Nat.add_mod, holds.whole,
      Nat.zero_add, Nat.mod_mod, Nat.mod_eq_of_lt holds.room]
  rw [last, rest]
  refine ⟨_, front, _, rfl, ?_, rfl, begins, whole⟩
  rw [List.flatten_append, List.flatten_singleton, ← rest, holds.text]

/-! ## The printed range -/

/-- Digits that begin a printed number behind which there is no digit are its
digits. -/
theorem digits_prefix {number : Nat} {printed : Int} {mark : UInt8}
    {first second : List UInt8} (other : ¬(48 ≤ mark ∧ mark ≤ 57))
    (begins : digits number ++ mark :: first <+:
      decimal printed ++ mark :: second) :
    printed = number ∧ first <+: second := by
  obtain ⟨rest, same⟩ := begins
  have front (count : Nat) (behind : List UInt8) :
      (digits count ++ mark :: behind).takeWhile isDigit = digits count := by
    rw [List.takeWhile_append_of_pos, List.takeWhile_cons_of_neg,
      List.append_nil]
    · simpa [isDigit] using other
    · simpa [isDigit] using digits_range count
  by_cases negative : printed < 0
  · obtain ⟨head, tail, begins⟩ :=
      List.exists_cons_of_ne_nil (digits_ne_nil number)
    have range := digits_range number head (begins ▸ List.mem_cons_self ..)
    rw [Shadow.decimal_of_neg negative, begins] at same
    have sign : head = 45 := List.head_eq_of_cons_eq same
    rw [sign] at range
    exact absurd range (by decide)
  · rw [Shadow.decimal_of_nonneg (by omega), List.append_assoc,
      List.cons_append] at same
    have number_eq := congrArg (List.takeWhile isDigit) same
    rw [front, front] at number_eq
    have value_eq := congrArg (value 0) number_eq
    rw [value_digits, value_digits] at value_eq
    rw [← number_eq] at same
    have behind := (List.cons.inj (List.append_cancel_left same)).2
    exact ⟨by omega, rest, behind⟩

/-- A number is printed as it is exactly if it is an `int`. -/
theorem bmod_eq_self_iff (number : Nat) :
    Int.bmod number (2 ^ 32) = number ↔ number < 2 ^ 31 := by
  rw [Int.bmod_def]
  omega

theorem sum_bmod (sizeFetched : UInt32) (rangeLen : UInt64) :
    Int.bmod (sizeFetched.toUInt64 + rangeLen).toNat (2 ^ 32) =
      Int.bmod (sizeFetched.toNat + rangeLen.toNat : Nat) (2 ^ 32) := by
  rw [UInt64.toNat_add, UInt32.toNat_toUInt64, Int.bmod_def, Int.bmod_def]
  omega

theorem rangeLine_eq (first last : List UInt8) :
    rangeLine first last =
      ascii "Range: bytes=" ++ (first ++ 45 :: (last ++ 13 :: [10])) := by
  unfold rangeLine
  simp only [List.append_assoc]
  rfl

/-- Where the lines that are to be sent begin the printed ones the numbers of
the range are an `int`. -/
theorem rangeFits_of_prefix {request : Request}
    (begins : request.requestLines <+: request.printedLines) :
    request.RangeFits := by
  intro ranged
  unfold Request.requestLines Request.printedLines at begins
  rw [if_pos ranged, if_pos ranged, List.prefix_append_right_inj,
    rangeLine_eq, rangeLine_eq, List.prefix_append_right_inj] at begins
  obtain ⟨-, behind⟩ := digits_prefix (by decide) begins
  obtain ⟨last, -⟩ := digits_prefix (by decide) behind
  rw [sum_bmod] at last
  exact (bmod_eq_self_iff _).mp last

/-- The numbers of a range that are an `int` are printed as they are. -/
theorem printedLines_eq {request : Request} (fits : request.RangeFits) :
    request.printedLines = request.requestLines := by
  unfold Request.requestLines Request.printedLines
  split
  · rename_i ranged
    have bound := fits ranged
    have first : printedInt request.sizeFetched.toNat =
        digits request.sizeFetched.toNat := by
      rw [printedInt, (bmod_eq_self_iff _).mpr (by omega),
        Shadow.decimal_natCast]
    have last :
        printedInt (request.sizeFetched.toUInt64 + request.rangeLen).toNat =
          digits (request.sizeFetched.toNat + request.rangeLen.toNat) := by
      rw [printedInt, sum_bmod, (bmod_eq_self_iff _).mpr bound,
        Shadow.decimal_natCast]
    rw [first, last]
  · rfl

/-! ## The whole header -/

theorem printedPost_eq {request : Request} (fits : request.TypeFits) :
    request.printedPost = request.postLines := by
  unfold Request.printedPost Request.postLines
  unfold Request.TypeFits at fits
  cases data : request.postBuf with
  | none => rfl
  | some data' =>
      cases type : request.postContentType with
      | none => rfl
      | some type' =>
          have bound := fits data' type' data type
          dsimp only
          rw [List.take_of_length_le (Nat.le_sub_one_of_lt bound)]

/-- The lines about the post data do not grow, and they become shorter where the
line of the type does not fit. -/
theorem length_printedPost_le (request : Request) :
    request.printedPost.length ≤ request.postLines.length ∧
      (request.printedPost.length = request.postLines.length →
        request.TypeFits) := by
  unfold Request.printedPost Request.postLines Request.TypeFits
  cases request.postBuf with
  | none => exact ⟨le_rfl, fun _ _ _ missing => nomatch missing⟩
  | some data =>
      cases request.postContentType with
      | none => exact ⟨le_rfl, fun _ _ _ _ missing => nomatch missing⟩
      | some type =>
          dsimp only
          rw [List.length_append, List.length_append, List.length_take]
          refine ⟨by omega, ?_⟩
          rintro same _ type' - typed
          obtain rfl := Option.some.inj typed
          have room : 0 < httpClientRequestBufSize := by decide
          omega

/-- Where no more is behind the printed lines than is to be, and all together is
what is to be sent, every part is. -/
theorem parts_of_text {request : Request} {rest : List UInt8}
    (shorter : rest.length ≤
      (request.userHeader ++ request.postLines).length)
    (same : request.printedLines.take (httpClientRequestBufSize - 1) ++ rest =
      request.requestLines ++ (request.userHeader ++ request.postLines)) :
    request.RangeFits ∧
      request.requestLines.length < httpClientRequestBufSize ∧
      rest = request.userHeader ++ request.postLines := by
  have size := congrArg List.length same
  rw [List.length_append, List.length_append] at size
  have front : request.requestLines <+:
      request.printedLines.take (httpClientRequestBufSize - 1) ++ rest :=
    ⟨_, same.symm⟩
  have begins : request.requestLines <+:
      request.printedLines.take (httpClientRequestBufSize - 1) :=
    List.prefix_of_prefix_length_le front (List.prefix_append ..) (by omega)
  have ranged := rangeFits_of_prefix (begins.trans (List.take_prefix ..))
  have bound := begins.length_le
  rw [printedLines_eq ranged] at same bound
  rw [List.length_take] at bound
  have room : 0 < httpClientRequestBufSize := by decide
  have fits : request.requestLines.length < httpClientRequestBufSize := by omega
  rw [List.take_of_length_le (Nat.le_sub_one_of_lt fits)] at same
  exact ⟨ranged, fits, List.append_cancel_left same⟩

/-- The header of a request is sent as it is to be exactly if the numbers of its
range are printed as they are, each line is shorter than its array, an `int`
counts the bytes of the user's header, and the last buffer is not empty. -/
theorem Request.sent_iff (request : Request) :
    request.Sent ↔ request.Fits := by
  constructor
  · intro sent
    let takeAll : NetWrite := fun _ bytes => .ok bytes.length
    have accepts : AcceptsAll takeAll := fun _ _ => rfl
    obtain ⟨t, result, flat⟩ := sent takeAll accepts
    rcases httpSendHeader_outcome accepts request with
      ⟨missing, -⟩ | ⟨t', front, sent, result', flat', parts, begins, whole⟩
    · rw [missing] at result
      cases result
    rw [result'] at result
    obtain ⟨rfl, success⟩ := Prod.mk.inj (Option.some.inj result)
    have remains : sent.length % httpClientSendBufSize ≠ 0 := by
      intro none
      rw [if_pos none] at success
      cases success
    have text : sent = request.text := flat'.symm.trans flat
    obtain ⟨postShorter, postWhole⟩ := length_printedPost_le request
    have headerShorter := begins.length_le
    have same := parts.symm.trans text
    unfold Request.text at same
    have lines := List.append_cancel_right same
    rw [List.append_assoc, List.append_assoc] at lines
    have shorter : (front ++ request.printedPost).length ≤
        (request.userHeader ++ request.postLines).length := by
      rw [List.length_append, List.length_append]
      omega
    obtain ⟨ranged, fits, rest⟩ := parts_of_text shorter lines
    have sizes := congrArg List.length rest
    rw [List.length_append, List.length_append] at sizes
    have kept : front = request.userHeader :=
      begins.eq_of_length (by omega)
    exact ⟨ranged, fits, whole.mp kept, postWhole (by omega), text ▸ remains⟩
  · intro fits write accepts
    rcases httpSendHeader_outcome accepts request with
      ⟨-, long⟩ | ⟨t, front, sent, result, flat, parts, -, whole⟩
    · exact absurd fits.header (Nat.not_lt.mpr long)
    obtain rfl := whole.mpr fits.header
    have text : sent = request.text := by
      rw [parts, printedLines_eq fits.range, printedPost_eq fits.type,
        List.take_of_length_le (Nat.le_sub_one_of_lt fits.lines)]
      rfl
    have remains := fits.rest
    rw [← text] at remains
    rw [if_neg remains] at result
    exact ⟨t, result, flat.trans text⟩

/-! ## A request that is not sent -/

/-- A request for a file with a path of 250 bytes on a host of 40. -/
def longRequest : Request where
  method := .httpGet
  host := ⟨List.replicate 40 104, by decide⟩
  path := ⟨47 :: List.replicate 249 112, by decide +kernel⟩
  sizeFetched := 0
  rangeLen := 0
  header := none
  postBuf := none
  postBufLen := 0
  postContentType := none

/-- A request whose header has 1024 bytes in all. -/
def evenRequest : Request where
  method := .httpGet
  host := ⟨ascii "h", by decide⟩
  path := ⟨ascii "/f", by decide⟩
  sizeFetched := 0
  rangeLen := 0
  header := some ⟨List.replicate 996 97, by decide +kernel⟩
  postBuf := none
  postBufLen := 0
  postContentType := none

/-- The long request is cut, and the even one is answered with an error. -/
theorem longRequest_cut : ¬longRequest.Sent ∧ ¬evenRequest.Sent := by
  rw [Request.sent_iff, Request.sent_iff]
  constructor
  · intro fits
    exact absurd fits.lines (by decide +kernel)
  · intro fits
    exact absurd fits.rest (by decide +kernel)

end Http
end UIoT
