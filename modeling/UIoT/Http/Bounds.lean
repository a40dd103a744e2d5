import UIoT.Http.Header

/-!
# The bounds of receiving

The body of a response is copied within bounds as long as `retrieve_len` is not
negative.  The header is not: nothing bounds the reads that gather it, and the
`Content-Length` it declares may be negative.  The records of a session stay
sound exactly when the header fits.
-/

namespace UIoT
namespace Http

/-! ## Sound records -/

namespace Session

/-- No recorded use of a buffer leaves it, and every recorded value of
`retrieve_len` is between zero and the `Content-Length`. -/
structure Sound (s : Session) : Prop where
  within : ∀ use ∈ s.uses, use.Within
  inRange : ∀ value ∈ s.retrieved, 0 ≤ value.2 ∧ value.2 ≤ value.1

theorem sound_use {s : Session} {size : Nat} {offset length : Int} :
    (s.use size offset length).Sound ↔
      s.Sound ∧ BufferUse.Within ⟨size, offset, length⟩ := by
  constructor
  · intro sound
    refine ⟨⟨fun use mem => ?_, sound.inRange⟩, ?_⟩
    · exact sound.within use (List.mem_append_left _ mem)
    · exact sound.within _ (List.mem_append_right _ (List.mem_singleton_self _))
  · rintro ⟨sound, within⟩
    refine ⟨fun use mem => ?_, sound.inRange⟩
    rcases List.mem_append.mp mem with earlier | last
    · exact sound.within use earlier
    · rw [List.mem_singleton.mp last]
      exact within

theorem sound_setRetrieveLen {s : Session} {value : Int} :
    (s.setRetrieveLen value).Sound ↔
      s.Sound ∧ 0 ≤ value ∧ value ≤ s.announced := by
  constructor
  · intro sound
    refine ⟨⟨sound.within, fun value mem => ?_⟩, ?_⟩
    · exact sound.inRange value (List.mem_append_left _ mem)
    · exact sound.inRange _
        (List.mem_append_right _ (List.mem_singleton_self _))
  · rintro ⟨sound, bounds⟩
    refine ⟨sound.within, fun value mem => ?_⟩
    rcases List.mem_append.mp mem with earlier | last
    · exact sound.inRange value earlier
    · rw [List.mem_singleton.mp last]
      exact bounds

theorem sound_copyToResponse {s : Session} {count length : Int}
    {source : List UInt8} :
    (copyToResponse s count source length).Sound ↔
      s.Sound ∧ BufferUse.Within ⟨s.buffer.length, count, length⟩ ∧
        BufferUse.Within ⟨source.length, 0, length⟩ := by
  have records : (copyToResponse s count source length).Sound ↔
      ((s.use s.buffer.length count length).use source.length 0
        length).Sound :=
    ⟨fun sound => ⟨sound.within, sound.inRange⟩,
      fun sound => ⟨sound.within, sound.inRange⟩⟩
  rw [records, sound_use, sound_use, and_assoc]

theorem sound_terminateResponse {s : Session} {count : Int} :
    (terminateResponse s count).Sound ↔
      s.Sound ∧ BufferUse.Within ⟨s.buffer.length, count, 1⟩ := by
  have records : (terminateResponse s count).Sound ↔
      (s.use s.buffer.length count 1).Sound :=
    ⟨fun sound => ⟨sound.within, sound.inRange⟩,
      fun sound => ⟨sound.within, sound.inRange⟩⟩
  rw [records, sound_use]

theorem sound_moveToFront {s : Session} {buf : List UInt8} {source : Nat}
    {length : Int} :
    (moveToFront s buf source length).1.Sound ↔
      s.Sound ∧ BufferUse.Within ⟨buf.length, source, length⟩ ∧
        BufferUse.Within ⟨buf.length, 0, length⟩ := by
  change ((s.use buf.length source length).use buf.length 0 length).Sound ↔ _
  rw [sound_use, sound_use, and_assoc]

end Session

/-- The records of a session begin those of a later one. -/
structure Session.Grows (s after : Session) : Prop where
  uses : s.uses <+: after.uses
  retrieved : s.retrieved <+: after.retrieved

namespace Session.Grows

theorem refl (s : Session) : s.Grows s := ⟨List.prefix_rfl, List.prefix_rfl⟩

theorem trans {first second third : Session} (grows : first.Grows second)
    (later : second.Grows third) : first.Grows third :=
  ⟨grows.uses.trans later.uses, grows.retrieved.trans later.retrieved⟩

/-- What was wrong before is not mended. -/
theorem sound {s after : Session} (grows : s.Grows after)
    (sound : after.Sound) : s.Sound where
  within := fun use mem => sound.within use (grows.uses.subset mem)
  inRange := fun value mem => sound.inRange value (grows.retrieved.subset mem)

end Session.Grows

/-- The session a read leaves: the use of the array is recorded, and time goes
on. -/
def Session.afterRead (s : Session) (size offset : Nat) (maxLen : Int)
    (timeoutMs : Nat) : Session :=
  let read := netRead s.client.arrivals maxLen.toNat timeoutMs
  let s := s.use size offset maxLen
  { s with
    client :=
      { s.client with
        arrivals := read.2
        clock := s.client.clock + read.1.elapsed } }

theorem httpRecv_ok {s : Session} {maxLen : Int} {timeoutMs elapsed : Nat}
    {bytes : List UInt8} {rest : List Arrival}
    (read : netRead s.client.arrivals maxLen.toNat timeoutMs =
      (⟨elapsed, .ok bytes⟩, rest)) (buf : List UInt8) (offset : Nat) :
    httpRecv s buf offset maxLen timeoutMs =
      (s.afterRead buf.length offset maxLen timeoutMs, overlay buf offset bytes,
        bytes.length, if bytes = [] then .failureRet else .successRet) := by
  unfold httpRecv Session.afterRead
  simp only [Session.use, read]
  cases bytes with
  | nil =>
      rw [overlay_nil]
      rfl
  | cons byte bytes => rfl

theorem httpRecv_error {s : Session} {maxLen : Int} {timeoutMs elapsed : Nat}
    {error : NetError} {rest : List Arrival}
    (read : netRead s.client.arrivals maxLen.toNat timeoutMs =
      (⟨elapsed, .error error⟩, rest)) (buf : List UInt8) (offset : Nat) :
    httpRecv s buf offset maxLen timeoutMs =
      (s.afterRead buf.length offset maxLen timeoutMs, buf, 0,
        .errHttpConnError) := by
  unfold httpRecv Session.afterRead
  simp only [Session.use, read]

theorem Session.sound_afterRead {s : Session} {size offset : Nat}
    {maxLen : Int} {timeoutMs : Nat} :
    (s.afterRead size offset maxLen timeoutMs).Sound ↔
      s.Sound ∧ BufferUse.Within ⟨size, offset, maxLen⟩ := by
  have records : (s.afterRead size offset maxLen timeoutMs).Sound ↔
      (s.use size offset maxLen).Sound :=
    ⟨fun sound => ⟨sound.within, sound.inRange⟩,
      fun sound => ⟨sound.within, sound.inRange⟩⟩
  rw [records, sound_use]

/-! ## The body -/

/-- A session whose records are sound and whose `retrieve_len` is between zero
and the `Content-Length`. -/
structure Session.Settled (s : Session) : Prop where
  sound : s.Sound
  nonnegative : 0 ≤ s.data.retrieveLen
  bounded : s.data.retrieveLen ≤ s.announced

/-- Such a session in which the response buffer is there. -/
structure Session.Receiving (s : Session) : Prop extends s.Settled where
  size : (s.buffer.length : Int) = s.data.responseBufLen
  positive : 0 < s.data.responseBufLen

theorem length_buffer_copyToResponse (s : Session) (count length : Int)
    (source : List UInt8) :
    (copyToResponse s count source length).buffer.length = s.buffer.length := by
  cases held : s.data.responseBuf with
  | none => simp [copyToResponse, Session.use, Session.buffer, held]
  | some buffer =>
      simp [copyToResponse, Session.use, Session.buffer, held, length_overlay]

theorem length_buffer_terminateResponse (s : Session) (count : Int) :
    (terminateResponse s count).buffer.length = s.buffer.length := by
  cases held : s.data.responseBuf with
  | none => simp [terminateResponse, Session.use, Session.buffer, held]
  | some buffer =>
      simp [terminateResponse, Session.use, Session.buffer, held,
        length_overlay]

/-- Bytes copied into the response buffer behind those that are there, and the
terminator behind them. -/
def fillResponse (s : Session) (count : Int) (data : List UInt8)
    (length : Int) : Session :=
  (terminateResponse (copyToResponse s count data length)
    (count + length)).setRetrieveLen (s.data.retrieveLen - length)

theorem utilsFillRxBuf_eq (s : Session) (count length : Int)
    (data : List UInt8) :
    utilsFillRxBuf s count length data =
      if count + length < s.data.responseBufLen - 1 then
        (fillResponse s count data length, count + length, false)
      else
        (fillResponse s count data (s.data.responseBufLen - 1 - count), count,
          true) := by
  unfold utilsFillRxBuf fillResponse
  dsimp only
  rw [add_sub_cancel]
  rfl

theorem fillResponse_receiving {s : Session} (receiving : s.Receiving)
    {count length : Int} {data : List UInt8} (offset : 0 ≤ count)
    (nonnegative : 0 ≤ length) (available : length ≤ data.length)
    (due : length ≤ s.data.retrieveLen)
    (room : count + length < s.data.responseBufLen) :
    (fillResponse s count data length).Receiving where
  sound := by
    have size := receiving.size
    have copied : (copyToResponse s count data length).Sound := by
      apply Session.sound_copyToResponse.mpr
      refine ⟨receiving.sound, ⟨nonnegative, offset, ?_⟩,
        nonnegative, le_rfl, ?_⟩
      · change count + length ≤ (s.buffer.length : Int)
        omega
      · change 0 + length ≤ (data.length : Int)
        omega
    have terminated : (terminateResponse (copyToResponse s count data length)
        (count + length)).Sound := by
      apply Session.sound_terminateResponse.mpr
      refine ⟨copied, Int.one_nonneg, Int.add_nonneg offset nonnegative, ?_⟩
      rw [length_buffer_copyToResponse]
      change count + length + 1 ≤ (s.buffer.length : Int)
      omega
    apply Session.sound_setRetrieveLen.mpr
    refine ⟨terminated, Int.sub_nonneg_of_le due, ?_⟩
    change s.data.retrieveLen - length ≤ s.announced
    have bounded := receiving.bounded
    omega
  size := by
    have lengths :
        (fillResponse s count data length).buffer.length = s.buffer.length :=
      (length_buffer_terminateResponse _ _).trans
        (length_buffer_copyToResponse _ _ _ _)
    rw [lengths]
    exact receiving.size
  positive := receiving.positive
  nonnegative := Int.sub_nonneg_of_le due
  bounded := by
    change s.data.retrieveLen - length ≤ s.announced
    have bounded := receiving.bounded
    omega

theorem Session.Receiving.afterRead {s : Session} (receiving : s.Receiving)
    {size offset : Nat} {maxLen : Int} (timeoutMs : Nat)
    (within : BufferUse.Within ⟨size, offset, maxLen⟩) :
    (s.afterRead size offset maxLen timeoutMs).Receiving where
  sound := Session.sound_afterRead.mpr ⟨receiving.sound, within⟩
  size := receiving.size
  positive := receiving.positive
  nonnegative := receiving.nonnegative
  bounded := receiving.bounded

/-- Receiving looks at the records, the response buffer and `retrieve_len`. -/
theorem Session.Receiving.of_same {s after : Session}
    (receiving : s.Receiving) (uses : after.uses = s.uses)
    (retrieved : after.retrieved = s.retrieved)
    (buffer : after.buffer = s.buffer)
    (bufLen : after.data.responseBufLen = s.data.responseBufLen)
    (retrieveLen : after.data.retrieveLen = s.data.retrieveLen)
    (announced : after.announced = s.announced) : after.Receiving where
  sound := ⟨uses ▸ receiving.sound.within, retrieved ▸ receiving.sound.inRange⟩
  size := by
    rw [buffer, bufLen]
    exact receiving.size
  positive := bufLen ▸ receiving.positive
  nonnegative := retrieveLen ▸ receiving.nonnegative
  bounded := by
    rw [retrieveLen, announced]
    exact receiving.bounded

/-- How many bytes the loop over the body asks for. -/
def bodyMaxLen (s : Session) (written : Int) : Int :=
  min (min ((httpClientChunkSize : Int) - 1)
    (s.data.responseBufLen - 1 - written)) s.data.retrieveLen

/-- What a turn of the loop over the body does behind `_utils_fill_rx_buf`, with
the turns that follow. -/
def behindFill (timeoutMs turns : Nat) (s : Session) (buf : List UInt8)
    (written : Int) (patience : Patience) : Session × Option HttpReturn :=
  if s.data.retrieveLen = 0 then
    ({ s with data := { s.data with isMore := false } },
      some (.code .successRet))
  else
    let (s, buf, dataLen, ret) :=
      httpRecv s buf 0 (bodyMaxLen s written) timeoutMs
    if ret = .errHttpConnError then
      (s, some (.code ret))
    else
      let (patience, ret) :=
        utilsCheckDeadloop dataLen s.client.clock patience ret
      if ret = .errHttpConnError then
        (s, some (.code ret))
      else
        bodyLoop timeoutMs turns s buf written dataLen patience

theorem bodyLoop_eq (timeoutMs turns : Nat) (s : Session) (buf : List UInt8)
    (written : Int) (dataLen : Nat) (patience : Patience) :
    bodyLoop timeoutMs (turns + 1) s buf written dataLen patience =
      let len := min (dataLen : Int) s.data.retrieveLen
      if written + len < s.data.responseBufLen - 1 then
        behindFill timeoutMs turns (fillResponse s written buf len) buf
          (written + len) patience
      else
        (fillResponse s written buf (s.data.responseBufLen - 1 - written),
          some .retrieveMoreData) := by
  rw [bodyLoop, utilsFillRxBuf_eq]
  dsimp only
  by_cases fits : written + min (dataLen : Int) s.data.retrieveLen <
      s.data.responseBufLen - 1
  · rw [if_pos fits, if_pos fits]
    rfl
  · rw [if_neg fits, if_neg fits]

/-- `_utils_check_deadloop` behind a read that did not fail. -/
def checkRead (bytes : List UInt8) (clock : Nat) (patience : Patience) :
    Patience × IoTError :=
  utilsCheckDeadloop bytes.length clock patience
    (if bytes = [] then .failureRet else .successRet)

theorem behindFill_done {timeoutMs turns : Nat} {s : Session}
    {buf : List UInt8} {written : Int} {patience : Patience}
    (done : s.data.retrieveLen = 0) :
    behindFill timeoutMs turns s buf written patience =
      ({ s with data := { s.data with isMore := false } },
        some (.code .successRet)) := by
  unfold behindFill
  rw [if_pos done]

theorem behindFill_error {timeoutMs turns elapsed : Nat} {s : Session}
    {buf : List UInt8} {written : Int} {patience : Patience}
    {error : NetError} {rest : List Arrival}
    (undone : s.data.retrieveLen ≠ 0)
    (read : netRead s.client.arrivals (bodyMaxLen s written).toNat timeoutMs =
      (⟨elapsed, .error error⟩, rest)) :
    behindFill timeoutMs turns s buf written patience =
      (s.afterRead buf.length 0 (bodyMaxLen s written) timeoutMs,
        some (.code .errHttpConnError)) := by
  unfold behindFill
  rw [if_neg undone, httpRecv_error read]
  rfl

theorem behindFill_ok {timeoutMs turns elapsed : Nat} {s : Session}
    {buf bytes : List UInt8} {written : Int} {patience : Patience}
    {rest : List Arrival} (undone : s.data.retrieveLen ≠ 0)
    (read : netRead s.client.arrivals (bodyMaxLen s written).toNat timeoutMs =
      (⟨elapsed, .ok bytes⟩, rest)) :
    behindFill timeoutMs turns s buf written patience =
      let after := s.afterRead buf.length 0 (bodyMaxLen s written) timeoutMs
      let checked := checkRead bytes after.client.clock patience
      if checked.2 = .errHttpConnError then
        (after, some (.code .errHttpConnError))
      else
        bodyLoop timeoutMs turns after (overlay buf 0 bytes) written
          bytes.length checked.1 := by
  have goesOn : (if bytes = [] then IoTError.failureRet else .successRet) ≠
      .errHttpConnError := by
    split <;> decide
  unfold behindFill
  rw [if_neg undone, httpRecv_ok read]
  dsimp only
  rw [if_neg goesOn]
  have folded (clock : Nat) : utilsCheckDeadloop bytes.length clock patience
      (if bytes = [] then .failureRet else .successRet) =
        checkRead bytes clock patience := rfl
  rw [folded]
  generalize checkRead bytes
    (s.afterRead buf.length 0 (bodyMaxLen s written) timeoutMs).client.clock
    patience = checked
  by_cases failed : checked.2 = .errHttpConnError
  · rw [if_pos failed, if_pos failed, failed]
  · rw [if_neg failed, if_neg failed]

/-- The body is copied within bounds. -/
theorem bodyLoop_receiving (timeoutMs turns : Nat) {s : Session}
    (receiving : s.Receiving) {buf : List UInt8}
    (size : buf.length = httpClientReadBufSize) {written : Int}
    (nonnegative : 0 ≤ written) (room : written < s.data.responseBufLen)
    {dataLen : Nat} (available : dataLen ≤ buf.length) (patience : Patience) :
    (bodyLoop timeoutMs turns s buf written dataLen patience).1.Receiving := by
  induction turns generalizing s buf written dataLen patience with
  | zero => exact receiving
  | succ turns inductionHypothesis =>
      have due := receiving.nonnegative
      rw [bodyLoop_eq]
      dsimp only
      by_cases fits : written + min (dataLen : Int) s.data.retrieveLen <
          s.data.responseBufLen - 1
      · rw [if_pos fits]
        have filled : (fillResponse s written buf
            (min (dataLen : Int) s.data.retrieveLen)).Receiving :=
          fillResponse_receiving receiving nonnegative (by omega) (by omega)
            (by omega) (by omega)
        have same : (fillResponse s written buf
            (min (dataLen : Int) s.data.retrieveLen)).data.responseBufLen =
              s.data.responseBufLen := rfl
        have later : 0 ≤ written + min (dataLen : Int) s.data.retrieveLen := by
          omega
        generalize fillResponse s written buf
          (min (dataLen : Int) s.data.retrieveLen) = after at filled same ⊢
        generalize written + min (dataLen : Int) s.data.retrieveLen = written
          at fits later ⊢
        by_cases done : after.data.retrieveLen = 0
        · rw [behindFill_done done]
          exact filled.of_same rfl rfl rfl rfl rfl rfl
        · have left := filled.nonnegative
          have roomLeft : written < after.data.responseBufLen := by
            omega
          have chunk : (httpClientChunkSize : Int) = 1024 := rfl
          have array : buf.length = 1024 := size
          have asked : 0 ≤ bodyMaxLen after written ∧
              bodyMaxLen after written ≤ buf.length := by
            unfold bodyMaxLen
            omega
          have received := filled.afterRead timeoutMs
            (⟨asked.1, le_rfl, by dsimp only; omega⟩ : BufferUse.Within
              ⟨buf.length, ((0 : Nat) : Int), bodyMaxLen after written⟩)
          rcases read : netRead after.client.arrivals
            (bodyMaxLen after written).toNat timeoutMs with
            ⟨⟨elapsed, error | bytes⟩, rest⟩
          · rw [behindFill_error done read]
            exact received
          · have short := length_netRead read
            rw [behindFill_ok done read]
            dsimp only
            split
            · exact received
            · apply inductionHypothesis received
              · exact (length_overlay ..).trans size
              · exact later
              · exact roomLeft
              · rw [length_overlay]
                omega
      · rw [if_neg fits]
        exact fillResponse_receiving receiving nonnegative (by omega) (by omega)
          (by omega) (by omega)

theorem fillResponse_grows (s : Session) (count length : Int)
    (data : List UInt8) : s.Grows (fillResponse s count data length) where
  uses := by
    refine ⟨[⟨s.buffer.length, count, length⟩, ⟨data.length, 0, length⟩,
      ⟨(copyToResponse s count data length).buffer.length, count + length, 1⟩],
      ?_⟩
    simp [fillResponse, terminateResponse, copyToResponse, Session.use,
      Session.setRetrieveLen]
  retrieved := List.prefix_append ..

theorem afterRead_grows (s : Session) (size offset : Nat) (maxLen : Int)
    (timeoutMs : Nat) : s.Grows (s.afterRead size offset maxLen timeoutMs) where
  uses := List.prefix_append ..
  retrieved := List.prefix_rfl

theorem behindFill_grows_of {timeoutMs turns : Nat}
    (grows : ∀ (s : Session) (buf : List UInt8) (written : Int) (dataLen : Nat)
      (patience : Patience),
      s.Grows (bodyLoop timeoutMs turns s buf written dataLen patience).1)
    (s : Session) (buf : List UInt8) (written : Int) (patience : Patience) :
    s.Grows (behindFill timeoutMs turns s buf written patience).1 := by
  by_cases done : s.data.retrieveLen = 0
  · rw [behindFill_done done]
    exact ⟨List.prefix_rfl, List.prefix_rfl⟩
  · have asked := afterRead_grows s buf.length 0 (bodyMaxLen s written)
      timeoutMs
    rcases read : netRead s.client.arrivals (bodyMaxLen s written).toNat
      timeoutMs with ⟨⟨elapsed, error | bytes⟩, rest⟩
    · rw [behindFill_error done read]
      exact asked
    · rw [behindFill_ok done read]
      dsimp only
      split
      · exact asked
      · exact asked.trans (grows ..)

/-- The loop over the body only adds to the records. -/
theorem bodyLoop_grows (timeoutMs turns : Nat) (s : Session)
    (buf : List UInt8) (written : Int) (dataLen : Nat) (patience : Patience) :
    s.Grows (bodyLoop timeoutMs turns s buf written dataLen patience).1 := by
  induction turns generalizing s buf written dataLen patience with
  | zero => exact .refl s
  | succ turns inductionHypothesis =>
      rw [bodyLoop_eq]
      dsimp only
      split
      · apply (fillResponse_grows s written _ buf).trans
        exact behindFill_grows_of inductionHypothesis _ _ _ _
      · exact fillResponse_grows ..

theorem httpGetResponseBody_receiving {s : Session} (receiving : s.Receiving)
    {data : List UInt8} (size : data.length = httpClientReadBufSize)
    {dataLen : Nat} (available : dataLen ≤ data.length)
    (turns timeoutMs : Nat) :
    (httpGetResponseBody turns s data dataLen timeoutMs).1.Receiving := by
  unfold httpGetResponseBody
  dsimp only
  split
  · exact receiving.of_same rfl rfl rfl rfl rfl rfl
  · apply bodyLoop_receiving
    · exact receiving.of_same rfl rfl rfl rfl rfl rfl
    · exact size
    · exact le_rfl
    · exact receiving.positive
    · exact available

theorem httpGetResponseBody_grows (turns : Nat) (s : Session)
    (data : List UInt8) (dataLen timeoutMs : Nat) :
    s.Grows (httpGetResponseBody turns s data dataLen timeoutMs).1 := by
  unfold httpGetResponseBody
  dsimp only
  split
  · exact ⟨List.prefix_rfl, List.prefix_rfl⟩
  · have grows := bodyLoop_grows timeoutMs turns
      { s with data := { s.data with isMore := true } } data 0 dataLen
      ⟨.countdownMs s.client.clock timeoutMs, 0, 0⟩
    exact ⟨grows.uses, grows.retrieved⟩

/-! ## The header -/

theorem Session.Receiving.moveToFront {s : Session} (receiving : s.Receiving)
    {buf : List UInt8} {source : Nat} {length : Int}
    (nonnegative : 0 ≤ length) (fits : source + length ≤ buf.length) :
    (moveToFront s buf source length).1.Receiving where
  sound := by
    apply Session.sound_moveToFront.mpr
    refine ⟨receiving.sound, ⟨nonnegative, Int.natCast_nonneg _, fits⟩,
      nonnegative, le_rfl, ?_⟩
    change 0 + length ≤ (buf.length : Int)
    omega
  size := receiving.size
  positive := receiving.positive
  nonnegative := receiving.nonnegative
  bounded := receiving.bounded

theorem Session.Receiving.use {s : Session} (receiving : s.Receiving)
    {size offset : Nat} (fits : offset < size) :
    (s.use size offset 1).Receiving where
  sound := by
    apply Session.sound_use.mpr
    refine ⟨receiving.sound, Int.one_nonneg, Int.natCast_nonneg _, ?_⟩
    change (offset : Int) + 1 ≤ (size : Int)
    omega
  size := receiving.size
  positive := receiving.positive
  nonnegative := receiving.nonnegative
  bounded := receiving.bounded

/-- A blank line ends within the text. -/
theorem bodyEnd_bound {text : List UInt8} {bodyEnd : Nat}
    (found : strstr headerEnd (visible text) = some bodyEnd) :
    bodyEnd + 4 ≤ text.length := by
  have bound := (strstr_bound found).resolve_right (by decide)
  have shorter := (List.takeWhile_prefix (· ≠ 0) (l := text)).length_le
  exact Nat.le_trans bound shorter

/-- What is behind the header is received within bounds when the declared length
is not negative. -/
theorem parseHeaderText_receiving {s : Session} (receiving : s.Receiving)
    {header : HeaderText} (size : header.buf.length = httpClientReadBufSize)
    (ended : header.bodyEnd + 4 ≤ header.len)
    (fits : header.len < header.buf.length)
    (declared : ∀ length, declaredLength header.buf = some length → 0 ≤ length)
    (turns timeoutMs : Nat) :
    (parseHeaderText turns s header timeoutMs).1.Receiving := by
  unfold parseHeaderText
  split
  · exact receiving
  · rename_i length found
    have nonnegative := declared length found
    have stored : Session.Receiving
        (Session.setRetrieveLen
          { s with
            data := { s.data with responseContentLen := length }
            announced := length } length) :=
      { sound := Session.sound_setRetrieveLen.mpr
          ⟨⟨receiving.sound.within, receiving.sound.inRange⟩, nonnegative,
            le_rfl⟩
        size := receiving.size
        positive := receiving.positive
        nonnegative
        bounded := le_rfl }
    have moved : (moveToFront _ header.buf (header.bodyEnd + 4)
        (((header.len - (header.bodyEnd + 4) : Nat) : Int) + 1)).1.Receiving :=
      stored.moveToFront (by omega) (by omega)
    apply httpGetResponseBody_receiving
    · exact moved.of_same rfl rfl rfl rfl rfl rfl
    · exact (length_overlay ..).trans size
    · rw [length_overlay]
      omega

theorem sound_of_parseHeaderText {s : Session} {header : HeaderText}
    {turns timeoutMs : Nat}
    (sound : (parseHeaderText turns s header timeoutMs).1.Sound) :
    s.Sound ∧
      ∀ length, declaredLength header.buf = some length → 0 ≤ length := by
  unfold parseHeaderText at sound
  cases found : declaredLength header.buf with
  | none =>
      rw [found] at sound
      exact ⟨sound, fun _ absurd => nomatch absurd⟩
  | some length =>
      rw [found] at sound
      have before := (httpGetResponseBody_grows ..).sound sound
      have moved : (moveToFront _ header.buf (header.bodyEnd + 4)
          (((header.len - (header.bodyEnd + 4) : Nat) : Int) + 1)).1.Sound :=
        ⟨before.within, before.inRange⟩
      have stored := (Session.sound_moveToFront.mp moved).1
      obtain ⟨announced, nonnegative, -⟩ :=
        Session.sound_setRetrieveLen.mp stored
      refine ⟨⟨announced.within, announced.inRange⟩, ?_⟩
      rintro _ ⟨⟩
      exact nonnegative

/-- What follows the loop over the header. -/
def behindHeader (turns timeoutMs : Nat) :
    Session × Option (Except HttpReturn HeaderText) →
      Session × Option HttpReturn
  | (s, none) => (s, none)
  | (s, some (.error ret)) => (s, some ret)
  | (s, some (.ok header)) => parseHeaderText turns s header timeoutMs

/-- The session after a further read of the header. -/
def Session.afterHeaderRead (s : Session) (size len count : Nat)
    (timeoutMs : Nat) : Session :=
  (s.afterRead size len httpClientReadHeadSize timeoutMs).use size
    ((len + count : Nat) : Int) 1

theorem arrivals_afterHeaderRead (s : Session)
    (size len count timeoutMs : Nat) :
    (s.afterHeaderRead size len count timeoutMs).client.arrivals =
      (netRead s.client.arrivals httpClientReadHeadSize timeoutMs).2 := rfl

theorem headerLoop_found {timeoutMs turns len bodyEnd : Nat} {s : Session}
    {buf : List UInt8}
    (found : strstr headerEnd (cString buf) = some bodyEnd) :
    headerLoop timeoutMs (turns + 1) s buf len =
      (s, some (.ok ⟨buf, len, bodyEnd⟩)) := by
  rw [headerLoop, found]

theorem headerLoop_error {timeoutMs turns len elapsed : Nat} {s : Session}
    {buf : List UInt8} {error : NetError} {rest : List Arrival}
    (missing : strstr headerEnd (cString buf) = none)
    (read : netRead s.client.arrivals httpClientReadHeadSize timeoutMs =
      (⟨elapsed, .error error⟩, rest)) :
    headerLoop timeoutMs (turns + 1) s buf len =
      (s.afterRead buf.length len httpClientReadHeadSize timeoutMs,
        some (.error (.code .errHttpConnError))) := by
  have received :
      httpRecv s buf len (httpClientReadHeadSize : Int) timeoutMs = _ :=
    httpRecv_error read buf len
  rw [headerLoop, missing]
  dsimp only
  rw [received]
  rfl

theorem headerLoop_read {timeoutMs turns len elapsed : Nat} {s : Session}
    {buf bytes : List UInt8} {rest : List Arrival}
    (missing : strstr headerEnd (cString buf) = none)
    (read : netRead s.client.arrivals httpClientReadHeadSize timeoutMs =
      (⟨elapsed, .ok bytes⟩, rest)) :
    headerLoop timeoutMs (turns + 1) s buf len =
      headerLoop timeoutMs turns
        (s.afterHeaderRead buf.length len bytes.length timeoutMs)
        (overlay (overlay buf len bytes) (len + bytes.length) [0])
        (len + bytes.length) := by
  have received :
      httpRecv s buf len (httpClientReadHeadSize : Int) timeoutMs = _ :=
    httpRecv_ok read buf len
  have goesOn : (if bytes = [] then IoTError.failureRet else .successRet) ≠
      .errHttpConnError := by
    split <;> decide
  rw [headerLoop, missing]
  dsimp only
  rw [received]
  dsimp only
  rw [if_neg goesOn]
  unfold terminate Session.afterHeaderRead
  rw [length_overlay]

theorem strstr_headerArray {text : List UInt8} (stale : List UInt8)
    (unfinished : ¬HasBlankLine text) :
    strstr headerEnd (cString (headerArray text stale)) = none := by
  rw [cString_headerArray]
  exact strstr_eq_none_iff.mpr unfinished

/-- The header fits and declares a length that is not negative.  Until its blank
line is there, the array must have room for a whole read behind the text; and
a text with its terminator must have room in any case. -/
def HeaderFits (timeoutMs : Nat) (first stale : List UInt8)
    (arrivals : List Arrival) : Prop :=
  ∀ text later, Gathered timeoutMs first arrivals text later →
    text.length < httpClientReadBufSize ∧
      (¬HasBlankLine text →
        text.length + httpClientReadHeadSize ≤ httpClientReadBufSize) ∧
      (HasBlankLine text → ∀ length,
        declaredLength (headerArray text stale) = some length → 0 ≤ length)

theorem HeaderFits.behind {timeoutMs elapsed : Nat}
    {first stale bytes : List UInt8} {arrivals rest : List Arrival}
    (fits : HeaderFits timeoutMs first stale arrivals)
    (unfinished : ¬HasBlankLine first)
    (read : netRead arrivals httpClientReadHeadSize timeoutMs =
      (⟨elapsed, .ok bytes⟩, rest)) :
    HeaderFits timeoutMs (first ++ bytes) stale rest :=
  fun text later gathered => fits text later (gathered.behind unfinished read)

/-- A header that fits is gathered within bounds, and so is its body. -/
theorem headerLoop_receiving {timeoutMs bodyTurns turns : Nat} {s : Session}
    (receiving : s.Receiving) {text stale : List UInt8}
    (size : stale.length = httpClientReadBufSize)
    (fits : HeaderFits timeoutMs text stale s.client.arrivals) :
    (behindHeader bodyTurns timeoutMs
      (headerLoop timeoutMs turns s (headerArray text stale)
        text.length)).1.Receiving := by
  induction turns generalizing s text with
  | zero => exact receiving
  | succ turns inductionHypothesis =>
      obtain ⟨short, room, declared⟩ := fits text _ .start
      have array : (headerArray text stale).length = httpClientReadBufSize :=
        (length_headerArray (size ▸ short)).trans size
      have within : text.length < (headerArray text stale).length :=
        short.trans_eq array.symm
      by_cases blank : HasBlankLine text
      · cases found : strstr headerEnd (visible text) with
        | none => exact absurd blank (strstr_eq_none_iff.mp found)
        | some bodyEnd =>
            rw [headerLoop_found ((cString_headerArray ..).symm ▸ found)]
            change (parseHeaderText bodyTurns s
              ⟨headerArray text stale, text.length, bodyEnd⟩
              timeoutMs).1.Receiving
            apply parseHeaderText_receiving receiving
            · exact array
            · exact bodyEnd_bound found
            · exact within
            · exact declared blank
      · have missing := strstr_headerArray stale blank
        have asked : (s.afterRead (headerArray text stale).length text.length
            httpClientReadHeadSize timeoutMs).Receiving := by
          have bound := room blank
          rw [array]
          apply receiving.afterRead
          exact ⟨Int.natCast_nonneg _, Int.natCast_nonneg _,
            by dsimp only; omega⟩
        rcases read : netRead s.client.arrivals httpClientReadHeadSize
          timeoutMs with ⟨⟨elapsed, error | bytes⟩, rest⟩
        · rw [headerLoop_error missing read]
          exact asked
        · have next := fits.behind blank read
          have still := (next _ _ .start).1
          rw [List.length_append] at still
          rw [headerLoop_read missing read,
            overlay_headerArray (size ▸ still), ← List.length_append]
          apply inductionHypothesis
          · rw [array]
            rw [array] at asked
            exact asked.use still
          · rw [arrivals_afterHeaderRead, read]
            exact next

/-- The loop over the header does not mend what was wrong before. -/
theorem sound_of_headerLoop {timeoutMs bodyTurns turns : Nat} {s : Session}
    {buf : List UInt8} {len : Nat}
    (sound : (behindHeader bodyTurns timeoutMs
      (headerLoop timeoutMs turns s buf len)).1.Sound) : s.Sound := by
  induction turns generalizing s buf len with
  | zero => exact sound
  | succ turns inductionHypothesis =>
      cases found : strstr headerEnd (cString buf) with
      | some bodyEnd =>
          rw [headerLoop_found found] at sound
          exact (sound_of_parseHeaderText sound).1
      | none =>
          rcases read : netRead s.client.arrivals httpClientReadHeadSize
            timeoutMs with ⟨⟨elapsed, error | bytes⟩, rest⟩
          · rw [headerLoop_error found read] at sound
            exact (Session.sound_afterRead.mp sound).1
          · rw [headerLoop_read found read] at sound
            have asked := (Session.sound_use.mp (inductionHypothesis sound)).1
            exact (Session.sound_afterRead.mp asked).1

/-- However long the loop over the header goes on from a text, and the loop over
the body behind it, the records stay sound. -/
def StaysSound (timeoutMs : Nat) (stale text : List UInt8)
    (arrivals : List Arrival) : Prop :=
  text.length < httpClientReadBufSize ∧
    ∃ (s : Session) (extra : Nat), s.client.arrivals = arrivals ∧
      ∀ turns, (behindHeader (turns + extra) timeoutMs
        (headerLoop timeoutMs turns s (headerArray text stale)
          text.length)).1.Sound

theorem StaysSound.more {timeoutMs elapsed : Nat}
    {stale text bytes : List UInt8} {later rest : List Arrival}
    (size : stale.length = httpClientReadBufSize)
    (stays : StaysSound timeoutMs stale text later)
    (unfinished : ¬HasBlankLine text)
    (read : netRead later httpClientReadHeadSize timeoutMs =
      (⟨elapsed, .ok bytes⟩, rest)) :
    StaysSound timeoutMs stale (text ++ bytes) rest := by
  obtain ⟨short, s, extra, rfl, sound⟩ := stays
  have missing := strstr_headerArray stale unfinished
  have array : (headerArray text stale).length = httpClientReadBufSize :=
    (length_headerArray (size ▸ short)).trans size
  have next : ∀ turns, (behindHeader (turns + (extra + 1)) timeoutMs
      (headerLoop timeoutMs turns
        (s.afterHeaderRead (headerArray text stale).length text.length
          bytes.length timeoutMs)
        (overlay (overlay (headerArray text stale) text.length bytes)
          (text.length + bytes.length) [0])
        (text.length + bytes.length))).1.Sound := by
    intro turns
    have later := sound (turns + 1)
    rw [headerLoop_read missing read, Nat.add_assoc, Nat.add_comm 1] at later
    exact later
  have terminated :=
    (Session.sound_use.mp (sound_of_headerLoop (next 0))).2.2.2
  have still : text.length + bytes.length < httpClientReadBufSize := by
    rw [array] at terminated
    dsimp only at terminated
    omega
  rw [overlay_headerArray (size ▸ still), ← List.length_append] at next
  refine ⟨by rw [List.length_append]; exact still, _, extra + 1, ?_, next⟩
  rw [arrivals_afterHeaderRead, read]

theorem StaysSound.room {timeoutMs : Nat} {stale text : List UInt8}
    {arrivals : List Arrival} (size : stale.length = httpClientReadBufSize)
    (stays : StaysSound timeoutMs stale text arrivals)
    (unfinished : ¬HasBlankLine text) :
    text.length + httpClientReadHeadSize ≤ httpClientReadBufSize := by
  obtain ⟨short, s, extra, rfl, sound⟩ := stays
  have missing := strstr_headerArray stale unfinished
  have array : (headerArray text stale).length = httpClientReadBufSize :=
    (length_headerArray (size ▸ short)).trans size
  have once := sound 1
  have asked : (s.afterRead (headerArray text stale).length text.length
      httpClientReadHeadSize timeoutMs).Sound := by
    rcases read : netRead s.client.arrivals httpClientReadHeadSize
      timeoutMs with ⟨⟨elapsed, error | bytes⟩, rest⟩
    · rw [headerLoop_error missing read] at once
      exact once
    · rw [headerLoop_read missing read] at once
      exact (Session.sound_use.mp (sound_of_headerLoop once)).1
  have within := (Session.sound_afterRead.mp asked).2.2.2
  rw [array] at within
  dsimp only at within
  omega

theorem StaysSound.declared {timeoutMs : Nat} {stale text : List UInt8}
    {arrivals : List Arrival} (stays : StaysSound timeoutMs stale text arrivals)
    (blank : HasBlankLine text) :
    ∀ length, declaredLength (headerArray text stale) = some length →
      0 ≤ length := by
  obtain ⟨short, s, extra, rfl, sound⟩ := stays
  cases found : strstr headerEnd (visible text) with
  | none => exact absurd blank (strstr_eq_none_iff.mp found)
  | some bodyEnd =>
      have once := sound 1
      rw [headerLoop_found ((cString_headerArray ..).symm ▸ found)] at once
      exact (sound_of_parseHeaderText once).2

/-- The records stay sound exactly when the header fits. -/
theorem headerLoop_sound_iff {timeoutMs : Nat} {s : Session}
    (receiving : s.Receiving) {text stale : List UInt8}
    (size : stale.length = httpClientReadBufSize)
    (short : text.length < httpClientReadBufSize) :
    (∀ turns, (behindHeader turns timeoutMs
        (headerLoop timeoutMs turns s (headerArray text stale)
          text.length)).1.Sound) ↔
      HeaderFits timeoutMs text stale s.client.arrivals := by
  constructor
  · intro sound gatheredText later gathered
    have stays : StaysSound timeoutMs stale gatheredText later := by
      induction gathered with
      | start => exact ⟨short, s, 0, rfl, sound⟩
      | more _ unfinished read inductionHypothesis =>
          exact inductionHypothesis.more size unfinished read
    exact ⟨stays.1, stays.room size, stays.declared⟩
  · intro fits turns
    exact (headerLoop_receiving receiving size fits).sound

end Http
end UIoT
