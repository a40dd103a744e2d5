import UIoT.Http.Reassembly

/-!
# The first call for a response

Whatever way a well-formed response comes, the first call of
`http_client_recv_data` for it leaves a buffer, or gives up because it lacks the
end of the status line or a length, or takes what it has room for.
-/

namespace UIoT
namespace Http

/-! ## Runs within bounds -/

/-- With enough turns a run has not left a buffer. -/
def Bounded {ρ : Type} (run : Nat → Session × Option ρ) : Prop :=
  ∃ enough, ∀ turns, enough ≤ turns → (run turns).1.InBounds

/-- With enough turns a run ends with the value and has not left a buffer. -/
def Fails {ρ : Type} (run : Nat → Session × Option ρ) (ret : ρ) : Prop :=
  ∃ enough, ∀ turns, enough ≤ turns →
    (run turns).2 = some ret ∧ (run turns).1.InBounds

theorem Fails.bounded {ρ : Type} {run : Nat → Session × Option ρ} {ret : ρ}
    (fails : Fails run ret) : Bounded run := by
  obtain ⟨enough, ends⟩ := fails
  exact ⟨enough, fun turns reached => (ends turns reached).2⟩

theorem Fails.gives {ρ : Type} {run : Nat → Session × Option ρ} {ret : ρ}
    (fails : Fails run ret) : Gives run ret := by
  obtain ⟨enough, ends⟩ := fails
  exact ⟨enough, fun turns reached => (ends turns reached).1⟩

theorem Gives.fails {ρ : Type} {run : Nat → Session × Option ρ} {ret : ρ}
    (gives : Gives run ret) (bounded : Bounded run) : Fails run ret := by
  obtain ⟨enough, ends⟩ := gives
  obtain ⟨enough', stays⟩ := bounded
  exact ⟨max enough enough', fun turns reached =>
    ⟨ends turns (by omega), stays turns (by omega)⟩⟩

/-! ## Room for the header -/

theorem inBounds_of_uses {s after : Session} (grows : s.uses <+: after.uses)
    (inBounds : after.InBounds) : s.InBounds :=
  fun use mem => inBounds use (grows.subset mem)

/-- What follows the loop over the header only adds to the uses. -/
theorem behindHeader_uses (turns timeoutMs : Nat)
    (result : Session × Option (Except HttpReturn HeaderText)) :
    result.1.uses <+: (behindHeader turns timeoutMs result).1.uses := by
  obtain ⟨s, _ | ret | header⟩ := result
  · exact List.prefix_rfl
  · exact List.prefix_rfl
  · change s.uses <+: (parseHeaderText turns s header timeoutMs).1.uses
    unfold parseHeaderText
    split
    · exact List.prefix_rfl
    · refine List.IsPrefix.trans ?_ (httpGetResponseBody_grows ..).uses
      exact (List.prefix_append ..).trans (List.prefix_append ..)

/-- So does the loop. -/
theorem headerLoop_uses (timeoutMs turns : Nat) (s : Session)
    (buf : List UInt8) (len : Nat) :
    s.uses <+: (headerLoop timeoutMs turns s buf len).1.uses := by
  induction turns generalizing s buf len with
  | zero => exact List.prefix_rfl
  | succ turns inductionHypothesis =>
      cases found : strstr headerEnd (cString buf) with
      | some bodyEnd =>
          have ends : (headerLoop timeoutMs (turns + 1) s buf len).1 = s :=
            congrArg Prod.fst (headerLoop_found found)
          exact ends.symm ▸ List.prefix_rfl
      | none =>
          rcases read : netRead s.client.arrivals httpClientReadHeadSize
            timeoutMs with ⟨⟨elapsed, error | bytes⟩, rest⟩
          · rw [headerLoop_error found read]
            exact (afterRead_grows ..).uses
          · rw [headerLoop_read found read]
            refine List.IsPrefix.trans ?_ (inductionHypothesis ..)
            exact (afterRead_grows ..).uses.trans (List.prefix_append ..)

/-- From a text on, with enough turns the loop over the header has not left the
array. -/
def StaysInside (timeoutMs : Nat) (stale text : List UInt8)
    (arrivals : List Arrival) : Prop :=
  text.length < httpClientReadBufSize ∧
    ∃ s : Session, s.client.arrivals = arrivals ∧
      Bounded fun turns => headerLoop timeoutMs turns s
        (headerArray text stale) text.length

section

variable {timeoutMs : Nat} {stale text : List UInt8} {arrivals : List Arrival}

/-- There is room for a further read of the header, whatever it brings. -/
theorem StaysInside.room (size : stale.length = httpClientReadBufSize)
    (stays : StaysInside timeoutMs stale text arrivals)
    (unfinished : ¬HasBlankLine text) :
    text.length + httpClientReadHeadSize ≤ httpClientReadBufSize := by
  obtain ⟨short, s, rfl, enough, inside⟩ := stays
  have missing := strstr_headerArray stale unfinished
  have array : (headerArray text stale).length = httpClientReadBufSize :=
    (length_headerArray (size ▸ short)).trans size
  have once := inside (enough + 1) (Nat.le_succ enough)
  have asked : (s.afterRead (headerArray text stale).length text.length
      httpClientReadHeadSize timeoutMs).InBounds := by
    dsimp only at once
    rcases read : netRead s.client.arrivals httpClientReadHeadSize
      timeoutMs with ⟨⟨elapsed, error | bytes⟩, rest⟩
    · rw [headerLoop_error missing read] at once
      exact once
    · rw [headerLoop_read missing read] at once
      have grown := inBounds_of_uses (headerLoop_uses ..) once
      exact inBounds_of_uses (List.prefix_append ..) grown
  have within := (asked _ (List.mem_append_right _
    (List.mem_singleton_self _))).2.2
  rw [array] at within
  dsimp only at within
  omega

/-- The loop stays within bounds from the text a further read gives. -/
theorem StaysInside.more {elapsed : Nat} {bytes : List UInt8}
    {rest : List Arrival} (size : stale.length = httpClientReadBufSize)
    (stays : StaysInside timeoutMs stale text arrivals)
    (unfinished : ¬HasBlankLine text)
    (read : netRead arrivals httpClientReadHeadSize timeoutMs =
      (⟨elapsed, .ok bytes⟩, rest)) :
    StaysInside timeoutMs stale (text ++ bytes) rest := by
  obtain ⟨short, s, rfl, enough, inside⟩ := stays
  have missing := strstr_headerArray stale unfinished
  have array : (headerArray text stale).length = httpClientReadBufSize :=
    (length_headerArray (size ▸ short)).trans size
  have next (turns : Nat) (reached : enough ≤ turns) :
      (headerLoop timeoutMs turns
        (s.afterHeaderRead (headerArray text stale).length text.length
          bytes.length timeoutMs)
        (overlay (overlay (headerArray text stale) text.length bytes)
          (text.length + bytes.length) [0])
        (text.length + bytes.length)).1.InBounds := by
    have later := inside (turns + 1) (by omega)
    dsimp only at later
    rw [headerLoop_read missing read] at later
    exact later
  have grown := inBounds_of_uses (headerLoop_uses ..) (next enough le_rfl)
  have terminated := (grown _ (List.mem_append_right _
    (List.mem_singleton_self _))).2.2
  rw [array] at terminated
  dsimp only at terminated
  have fits : text.length + bytes.length < httpClientReadBufSize := by omega
  rw [overlay_headerArray (size ▸ fits), ← List.length_append] at next
  refine ⟨by rw [List.length_append]; exact fits, _, ?_, enough, next⟩
  rw [arrivals_afterHeaderRead, read]

end

section

variable {r : Response} {timeoutMs : Nat} {arrivals : List Arrival}
  {w : Awaiting}

theorem bounded_recvResponse (nonempty : 0 < w.responseBuf.length)
    (bounded : Bounded fun turns =>
      httpClientRecvData turns (w.session arrivals) timeoutMs) :
    Bounded fun turns =>
      httpClientRecvResponse turns (w.session arrivals) timeoutMs := by
  obtain ⟨enough, inside⟩ := bounded
  refine ⟨enough, fun turns reached => ?_⟩
  by_contra broken
  exact recvData_outOfBounds (awaiting_buffered w arrivals nonempty) broken
    (inside turns reached)

/-- A call that leaves no buffer has room for the header. -/
theorem roomArrives_of_bounded (nonempty : 0 < w.responseBuf.length)
    (bounded : Bounded fun turns =>
      httpClientRecvData turns (w.session arrivals) timeoutMs) :
    RoomArrives timeoutMs arrivals := by
  obtain ⟨enough, inside⟩ := bounded_recvResponse nonempty bounded
  intro elapsed first later crlfPos read found text rest gathered
  have short := firstRead_fits read
  have size := length_staleArray crlfPos short
  have readSession : netRead (w.session arrivals).client.arrivals
      httpClientReadHeadSize timeoutMs = (⟨elapsed, .ok first⟩, later) := read
  have begun : (first.drop (crlfPos + 2)).length < httpClientReadBufSize := by
    rw [List.length_drop]
    omega
  have stays : StaysInside timeoutMs (staleArray first crlfPos) text rest := by
    induction gathered with
    | start =>
        refine ⟨begun, ((w.session arrivals).afterFirstRead timeoutMs |>.use
          httpClientReadBufSize first.length 1).behindStatusLine first crlfPos,
          ?_, enough, fun turns reached => ?_⟩
        · rw [arrivals_behindStatusLine, readSession]
        · have whole := inside turns reached
          dsimp only at whole
          rw [httpClientRecvResponse_header w.connected rfl readSession found]
            at whole
          exact inBounds_of_uses (behindHeader_uses ..) whole
    | more _ unfinished read inductionHypothesis =>
        exact inductionHypothesis.more size unfinished read
  exact ⟨stays.1, stays.room size⟩

/-! ## What becomes of the call -/

/-- A call takes the first bytes of a stream, as many as are due or as there is
room for, and fails if less than that comes. -/
structure Counts (run : Nat → Session × Option IoTError)
    (stream buffer : List UInt8) (due room : Nat) (contentLen : Int) :
    Prop where
  takes : min due room ≤ stream.length → ∃ after,
    Settles run after .successRet ∧ after.InBounds ∧
      after.data.responseContentLen = contentLen ∧
      after.data.retrieveLen = ((due - room : Nat) : Int) ∧
      after.buffer = headerArray (stream.take (min due room)) buffer
  fails : stream.length < min due room → Fails run .errHttpConnError

theorem Collects.counts {s before : Session}
    {buffer begun rest : List UInt8} {due room : Nat} {contentLen : Int}
    (collects : Collects
      (fun turns => httpClientRecvResponse turns before timeoutMs) s buffer
      begun rest due room)
    (buffered : before.data.responseBuf.isSome ∧
      before.data.responseBufLen ≠ 0)
    (content : s.data.responseContentLen = contentLen)
    (bounded : Bounded
      fun turns => httpClientRecvData turns before timeoutMs) :
    Counts (fun turns => httpClientRecvData turns before timeoutMs)
      (begun ++ rest) buffer due room contentLen where
  takes := by
    intro enough
    obtain ⟨after, settles, took⟩ := collects.takes enough
    have ends := recvData_settles buffered settles
    refine ⟨after, ends, ?_, took.responseContentLen.trans content,
      took.retrieveLen, ?_⟩
    · obtain ⟨turns, same⟩ := ends
      obtain ⟨turns', inside⟩ := bounded
      have last := inside _ (Nat.le_max_right turns turns')
      rw [same _ (Nat.le_max_left turns turns')] at last
      exact last
    · rw [Session.buffer, took.responseBuf]
      rfl
  fails := by
    intro few
    exact (recvData_fails buffered (collects.fails few)).fails bounded

/-- A call whose first read lacks the end of the status line gives up. -/
theorem recvData_unresolved (delivers : Delivers arrivals r.bytes)
    (nonempty : 0 < w.responseBuf.length)
    (missing : ¬StatusLineArrives timeoutMs arrivals) :
    Fails (fun turns => httpClientRecvData turns (w.session arrivals) timeoutMs)
      .errHttpUnresolvedDns := by
  obtain ⟨enough, ends⟩ := ends_unresolved (w := w) delivers nonempty missing
  refine ⟨enough, fun turns reached => ?_⟩
  obtain ⟨ret, -, -, -, inBounds⟩ := ends turns reached
  exact ⟨ret, inBounds⟩

/-- A header without a length, or with −1, is answered with an error. -/
theorem parseHeaderText_unannounced {turns : Nat} {s : Session}
    {header : HeaderText} (plain : s.data.isChunked = 0)
    (undeclared : (declaredLength header.buf).getD (-1) = -1) :
    (parseHeaderText turns s header timeoutMs).2 =
      some (.code .errHttpConnError) := by
  cases found : declaredLength header.buf with
  | none => rw [parseHeaderText_none found]
  | some length =>
      rw [found] at undeclared
      obtain rfl : length = -1 := undeclared
      have run : parseHeaderText turns s header timeoutMs = _ :=
        parseHeaderText_some found
      rw [run]
      unfold httpGetResponseBody
      dsimp only
      rw [if_pos ⟨rfl, plain⟩]

/-- A call that has read no length, or −1, gives up. -/
theorem recvData_unannounced (delivers : Delivers arrivals r.bytes)
    (nonempty : 0 < w.responseBuf.length)
    (roomy : RoomArrives timeoutMs arrivals) {text stale : List UInt8}
    (arrives : HeaderArrives timeoutMs arrivals text stale)
    (unannounced : lengthRead text stale = -1) :
    Fails (fun turns => httpClientRecvData turns (w.session arrivals) timeoutMs)
      .errHttpConnError := by
  have buffered := awaiting_buffered w arrivals nonempty
  obtain ⟨begun, rest, bodyEnd, more, after, rfl, receiving, -, -, ended, -, -,
    plain, -, size, -, array, fits, run⟩ :=
    recvResponse_reaches delivers nonempty roomy arrives
  have undeclared : (declaredLength
      (headerArray (r.fieldSection ++ begun) stale)).getD (-1) = -1 :=
    unannounced
  have inBounds := parseHeaderText_inBounds
    ⟨headerArray (r.fieldSection ++ begun) stale,
      (r.fieldSection ++ begun).length, bodyEnd⟩ receiving plain
    ((length_headerArray fits).trans array)
    (by rw [ended, List.length_append]; exact Nat.le_add_right ..)
    (fits.trans_eq (length_headerArray fits).symm) (by rw [undeclared])
  have gives : Gives (fun turns =>
      httpClientRecvResponse turns (w.session arrivals) timeoutMs)
      (.code .errHttpConnError) := by
    refine ⟨more + 1, fun turns reached => ?_⟩
    dsimp only
    rw [run turns reached]
    exact parseHeaderText_unannounced plain undeclared
  refine (recvData_fails buffered gives).fails
    ⟨more + 1, fun turns reached => ?_⟩
  have within := inBounds turns timeoutMs
  rw [← run turns reached] at within
  obtain ⟨handle, whole⟩ : ∃ handle,
      (httpClientRecvData turns (w.session arrivals) timeoutMs).1 = _ :=
    httpClientRecvData_session buffered
  rw [whole]
  exact within

/-- A call that has read a length takes what it has room for. -/
theorem recvData_counts (delivers : Delivers arrivals r.bytes) {room : Nat}
    (large : room + 1 = w.responseBuf.length)
    (roomy : RoomArrives timeoutMs arrivals) {text stale : List UInt8}
    (arrives : HeaderArrives timeoutMs arrivals text stale) {due : Nat}
    (declared : lengthRead text stale = due) :
    Counts (fun turns => httpClientRecvData turns (w.session arrivals)
      timeoutMs) r.body w.responseBuf due room due := by
  have nonempty : 0 < w.responseBuf.length := by omega
  have buffered := awaiting_buffered w arrivals nonempty
  have fits := responseFits_of_arrives (w := w) roomy arrives declared
  have bounded : Bounded fun turns =>
      httpClientRecvData turns (w.session arrivals) timeoutMs :=
    ⟨0, fun turns _ => ((recvData_sound buffered).mpr
      (httpClientRecvResponse_receiving
        (w.session_receiving arrivals nonempty) fits).sound).within⟩
  obtain ⟨begun, rest, s, rfl, split, -, -, content, -, collects⟩ :=
    recvResponse_collects delivers large roomy arrives declared
  rw [split]
  exact collects.counts buffered content bounded

/-- A length below −1 makes a call leave its buffer. -/
theorem not_bounded_below (delivers : Delivers arrivals r.bytes)
    (nonempty : 0 < w.responseBuf.length)
    (roomy : RoomArrives timeoutMs arrivals) {text stale : List UInt8}
    (arrives : HeaderArrives timeoutMs arrivals text stale)
    (below : lengthRead text stale < -1) :
    ¬Bounded fun turns =>
      httpClientRecvData turns (w.session arrivals) timeoutMs := by
  intro bounded
  obtain ⟨enough, inside⟩ := bounded_recvResponse nonempty bounded
  obtain ⟨begun, rest, bodyEnd, more, after, rfl, receiving, -, -, -, -, -, -,
    -, size, -, -, -, run⟩ := recvResponse_reaches delivers nonempty roomy
      arrives
  have reached : enough ≤ max enough more + 1 :=
    Nat.le_succ_of_le (Nat.le_max_left ..)
  have behind : more < max enough more + 1 :=
    Nat.lt_succ_of_le (Nat.le_max_right ..)
  have large : 0 < after.data.responseBufLen := by
    rw [← size]
    omega
  have undefined : (declaredLength
      (headerArray (r.fieldSection ++ begun) stale)).getD (-1) < -1 := below
  have broken :=
    parseHeaderText_outOfBounds ⟨headerArray (r.fieldSection ++ begun) stale,
        (r.fieldSection ++ begun).length, bodyEnd⟩ large undefined
      (max enough more) timeoutMs
  rw [← run _ behind] at broken
  exact broken (inside _ reached)

end

end Http
end UIoT
