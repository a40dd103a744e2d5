import UIoT.Http.Retrieval

/-!
# Putting a body together

The contents of the response buffer over successive calls of
`http_client_recv_data`.  They are the body unless it fills the buffer exactly,
in which case `is_more` stays set with nothing more to retrieve, or more of it
comes with the header than there is room for, in which case the rest of these
bytes is gone.
-/

namespace UIoT
namespace Http

/-! ## Calls -/

/-- A call that returns success, in which no buffer is left and `retrieve_len`
stays between zero and the `Content-Length`. -/
structure Succeeds (s : Session) (timeoutMs : Nat) (after : Session) :
    Prop where
  ends : Settles (fun turns => httpClientRecvData turns s timeoutMs) after
    .successRet
  sound : ∀ turns, (httpClientRecvData turns s timeoutMs).1.Sound

/-- The contents of the response buffer, of the length by which `retrieve_len`
has decreased. -/
def handed (before : Int) (after : Session) : List UInt8 :=
  after.buffer.take (before - after.data.retrieveLen).toNat

/-- Calls that are repeated while `is_more` is one hand over the bytes, and
before each of them and behind the last one `is_more` is one exactly if
`retrieve_len` is greater than zero. -/
inductive Continues (timeoutMs : Nat) : Session → List UInt8 → Prop
  | done {s : Session} :
      s.data.isMore = false → s.data.retrieveLen ≤ 0 → Continues timeoutMs s []
  | call {s after : Session} {bytes : List UInt8} :
      s.data.isMore = true → 0 < s.data.retrieveLen →
      Succeeds s timeoutMs after → Continues timeoutMs after bytes →
      Continues timeoutMs s (handed s.data.retrieveLen after ++ bytes)

/-- The first call and those that follow it hand over the body: the first one
hands over what it has taken off the `Content-Length` it has read. -/
def Reassembles (w : Awaiting) (timeoutMs : Nat) (arrivals : List Arrival)
    (body : List UInt8) : Prop :=
  ∃ after bytes, Succeeds (w.session arrivals) timeoutMs after ∧
    Continues timeoutMs after bytes ∧
    handed after.data.responseContentLen after ++ bytes = body

theorem Session.Took.handed {s after : Session}
    {buffer contents left : List UInt8} {remaining before : Nat} {full : Bool}
    (took : s.Took after buffer contents left remaining full)
    (count : before = contents.length + remaining) :
    Http.handed before after = contents := by
  have taken : ((before : Int) - after.data.retrieveLen).toNat =
      contents.length := by
    rw [took.retrieveLen]
    omega
  have held : after.buffer = headerArray contents buffer := by
    rw [Session.buffer, took.responseBuf]
    rfl
  rw [Http.handed, taken, held, headerArray, List.take_left]

/-- The records of a call are those of the run below it. -/
theorem recvData_sound {turns timeoutMs : Nat} {s : Session}
    (buffered : s.data.responseBuf.isSome ∧ s.data.responseBufLen ≠ 0) :
    (httpClientRecvData turns s timeoutMs).1.Sound ↔
      (httpClientRecvResponse turns s timeoutMs).1.Sound := by
  obtain ⟨handle, whole⟩ : ∃ handle,
      (httpClientRecvData turns s timeoutMs).1 = _ :=
    httpClientRecvData_session buffered
  rw [whole]
  exact ⟨fun sound => ⟨sound.within, sound.inRange⟩,
    fun sound => ⟨sound.within, sound.inRange⟩⟩

/-! ## Further calls -/

/-- A session in which more of a body is to be retrieved. -/
structure Session.Going (s : Session) (buffer rest : List UInt8) (due : Nat) :
    Prop where
  receiving : s.Receiving
  connected : s.client.handle ≠ 0
  isMore : s.data.isMore = true
  declared : s.data.responseContentLen ≠ -1
  responseBuf : s.data.responseBuf = some buffer
  retrieveLen : s.data.retrieveLen = due
  delivers : Delivers s.client.arrivals rest

namespace Session.Going

variable {s : Session} {buffer rest : List UInt8} {due room timeoutMs : Nat}

theorem size (going : s.Going buffer rest due) :
    (buffer.length : Int) = s.data.responseBufLen := by
  have size := going.receiving.size
  rw [Session.buffer, going.responseBuf] at size
  exact size

theorem buffered (going : s.Going buffer rest due) :
    s.data.responseBuf.isSome ∧ s.data.responseBufLen ≠ 0 := by
  refine ⟨?_, going.receiving.positive.ne'⟩
  rw [going.responseBuf]
  rfl

/-- A further call takes what comes into a buffer that is empty again. -/
theorem collects (going : s.Going buffer rest due)
    (large : room + 1 = buffer.length) :
    Collects (fun turns => httpClientRecvResponse turns s timeoutMs) s
      (overlay buffer 0 [0]) [] rest due room := by
  have run (turns : Nat) : httpClientRecvResponse turns s timeoutMs =
      httpGetResponseBody turns (terminateResponse s 0)
        (List.replicate httpClientReadBufSize 0)
        ([] : List UInt8).length timeoutMs := by
    unfold httpClientRecvResponse
    simp only [going.connected, going.isMore, if_false, if_true]
    rfl
  have held : (terminateResponse s 0).data.responseBuf =
      some (overlay buffer 0 [0]) := by
    simp [terminateResponse, Session.use, going.responseBuf]
  have collected : Collects (fun turns => httpGetResponseBody turns
      (terminateResponse s 0) (List.replicate httpClientReadBufSize 0)
      ([] : List UInt8).length timeoutMs) (terminateResponse s 0)
      (overlay buffer 0 [0]) [] rest due room :=
    httpGetResponseBody_collects going.delivers held going.retrieveLen
      going.declared List.length_replicate rfl
      (by rw [length_overlay]; exact large)
      (by rw [length_overlay]; exact going.size)
  simp only [run]
  exact collected.of_alike ⟨rfl, rfl, rfl, rfl, rfl⟩

/-- A further call stays within bounds. -/
theorem call_receiving (going : s.Going buffer rest due) (turns : Nat) :
    (httpClientRecvResponse turns s timeoutMs).1.Receiving :=
  httpClientRecvResponse_more going.receiving (.inr going.isMore)

theorem call_sound (going : s.Going buffer rest due) (turns : Nat) :
    (httpClientRecvData turns s timeoutMs).1.Sound :=
  (recvData_sound going.buffered).mpr (going.call_receiving turns).sound

end Session.Going

/-- What a call leaves that had no room for all that is due. -/
theorem Session.Took.going {s after : Session}
    {buffer contents left : List UInt8} {remaining timeoutMs : Nat}
    {full : Bool} {ret : HttpReturn}
    (took : s.Took after buffer contents left remaining full)
    (connected : s.client.handle ≠ 0)
    (declared : s.data.responseContentLen ≠ -1) (more : full = true)
    {before : Session}
    (settles : Settles
      (fun turns => httpClientRecvResponse turns before timeoutMs) after ret)
    (receiving : ∀ turns,
      (httpClientRecvResponse turns before timeoutMs).1.Receiving) :
    after.Going (headerArray contents buffer) left remaining where
  receiving := by
    obtain ⟨enough, ends⟩ := settles
    have stays := receiving enough
    rw [show httpClientRecvResponse enough before timeoutMs = _ from
      ends enough le_rfl] at stays
    exact stays
  connected := by
    rw [took.handle]
    exact connected
  isMore := took.isMore.trans more
  declared := by
    rw [took.responseContentLen]
    exact declared
  responseBuf := took.responseBuf
  retrieveLen := took.retrieveLen
  delivers := took.delivers

/-- Behind a call nothing is left of a body that is smaller than the room,
`is_more` stays set behind one that fills it, and further calls hand over what
is left of a longer one if they do so for what is due then. -/
theorem Session.Took.continues_iff {s left : Session}
    {buffer contents behind : List UInt8} {due room timeoutMs : Nat}
    (wide : 0 < room)
    (took : s.Took left buffer contents behind (due - room)
      (decide (room ≤ due)))
    (next : room < due → ∀ bytes, Continues timeoutMs left bytes ↔
      due - room ≤ behind.length ∧ ¬room ∣ due - room ∧
        bytes = behind.take (due - room)) (bytes : List UInt8) :
    Continues timeoutMs left bytes ↔
      due - room ≤ behind.length ∧ (due = 0 ∨ ¬room ∣ due) ∧
        bytes = behind.take (due - room) := by
  rcases Nat.lt_trichotomy due room with small | same | longer
  · have none : due - room = 0 := Nat.sub_eq_zero_of_le small.le
    have uneven : due = 0 ∨ ¬room ∣ due :=
      due.eq_zero_or_pos.imp_right fun some =>
        Nat.not_dvd_of_pos_of_lt some small
    rw [none, List.take_zero, and_iff_right (Nat.zero_le _),
      and_iff_right uneven]
    constructor
    · intro continues
      cases continues with
      | done _ _ => rfl
      | call more _ _ _ =>
          rw [took.isMore] at more
          exact absurd (of_decide_eq_true more) (Nat.not_le.mpr small)
    · rintro rfl
      refine .done ?_ ?_
      · exact took.isMore.trans (decide_eq_false (Nat.not_le.mpr small))
      · rw [took.retrieveLen, none]
        rfl
  · -- the buffer is full and nothing is left
    subst same
    apply iff_of_false
    · intro continues
      cases continues with
      | done ended _ =>
          rw [took.isMore] at ended
          exact of_decide_eq_false ended le_rfl
      | call _ left _ _ =>
          rw [took.retrieveLen] at left
          omega
    · rintro ⟨-, empty | uneven, -⟩
      · exact wide.ne' empty
      · exact uneven (Nat.dvd_refl due)
  · have some : ¬due = 0 := (wide.trans longer).ne'
    rw [next longer, Nat.dvd_sub_iff_left longer.le (Nat.dvd_refl room),
      or_iff_right some]

/-- Further calls hand over the bytes that are due exactly if enough come, and
if they do not end with a full buffer. -/
theorem Session.Going.continues_iff {timeoutMs room : Nat} (wide : 0 < room)
    {due : Nat} (positive : 0 < due) {s : Session} {buffer rest : List UInt8}
    (going : s.Going buffer rest due) (large : room + 1 = buffer.length)
    (bytes : List UInt8) :
    Continues timeoutMs s bytes ↔
      due ≤ rest.length ∧ ¬room ∣ due ∧ bytes = rest.take due := by
  induction due using Nat.strong_induction_on generalizing s buffer rest bytes
    with
  | _ due inductionHypothesis =>
  have collects : Collects
      (fun turns => httpClientRecvResponse turns s timeoutMs) _ _ [] rest due
      room := going.collects large
  have owed : 0 < s.data.retrieveLen := by
    rw [going.retrieveLen]
    exact Int.natCast_pos.mpr positive
  have parts : min due room + (due - room) = due := by omega
  have step {left : Session}
      (took : s.Took left (overlay buffer 0 [0]) (rest.take (min due room))
        (rest.drop (min due room)) (due - room) (decide (room ≤ due)))
      (enough : min due room ≤ rest.length) :
      handed s.data.retrieveLen left = rest.take (min due room) := by
    rw [going.retrieveLen]
    apply took.handed
    rw [List.length_take]
    omega
  have next {left : Session} {ret : HttpReturn}
      (settles : Settles
        (fun turns => httpClientRecvResponse turns s timeoutMs) left ret)
      (took : s.Took left (overlay buffer 0 [0]) (rest.take (min due room))
        (rest.drop (min due room)) (due - room) (decide (room ≤ due)))
      (bytes : List UInt8) :
      Continues timeoutMs left bytes ↔
        due - room ≤ (rest.drop (min due room)).length ∧
          (due = 0 ∨ ¬room ∣ due) ∧
          bytes = (rest.drop (min due room)).take (due - room) := by
    refine took.continues_iff wide (fun longer => ?_) bytes
    apply inductionHypothesis (due - room) (by omega) (by omega)
      (took.going going.connected going.declared (decide_eq_true longer.le)
        settles going.call_receiving)
    have fits : (rest.take (min due room)).length ≤ room := by
      rw [List.length_take]
      omega
    rw [length_headerArray] <;> rw [length_overlay]
    · exact large
    · omega
  constructor
  · intro continues
    cases continues with
    | done ended _ => exact absurd going.isMore (by rw [ended]; decide)
    | @call _ after bytes _ _ succeeds continues =>
        by_cases enough : min due room ≤ rest.length
        · obtain ⟨left, settles, took⟩ := collects.takes enough
          obtain ⟨rfl, -⟩ := succeeds.ends.unique
            (recvData_settles going.buffered settles)
          obtain ⟨more, uneven, rfl⟩ := (next settles took bytes).mp continues
          rw [List.length_drop] at more
          rw [step took enough, ← List.take_add, parts]
          exact ⟨by omega, uneven.resolve_left positive.ne', rfl⟩
        · have fails := recvData_fails going.buffered
            (collects.fails (not_le.mp enough))
          have ret := succeeds.ends.ret_eq fails
          cases ret
  · rintro ⟨enough, uneven, rfl⟩
    have first : min due room ≤ rest.length :=
      Nat.le_trans (Nat.min_le_left ..) enough
    obtain ⟨left, settles, took⟩ := collects.takes first
    have succeeds : Succeeds s timeoutMs left :=
      ⟨recvData_settles going.buffered settles, going.call_sound⟩
    have more := (next settles took _).mpr
      ⟨by rw [List.length_drop]; omega, .inr uneven, rfl⟩
    have whole := Continues.call going.isMore owed succeeds more
    rw [step took first, ← List.take_add, parts] at whole
    exact whole

/-! ## The first call -/

/-- What is gathered has its front gathered first. -/
theorem Gathered.front {timeoutMs : Nat} {first text : List UInt8}
    {arrivals later : List Arrival}
    (gathered : Gathered timeoutMs first arrivals text later) :
    text = first ∨ ¬HasBlankLine first := by
  induction gathered with
  | start => exact .inl rfl
  | more _ unfinished _ inductionHypothesis =>
      rcases inductionHypothesis with rfl | begun
      · exact .inr unfinished
      · exact .inr begun

/-- What is gathered is the front, or is gathered behind the first read. -/
theorem Gathered.behind_read {timeoutMs elapsed : Nat}
    {first bytes text : List UInt8} {arrivals rest later : List Arrival}
    (gathered : Gathered timeoutMs first arrivals text later)
    (read : netRead arrivals httpClientReadHeadSize timeoutMs =
      (⟨elapsed, .ok bytes⟩, rest)) :
    text = first ∧ later = arrivals ∨
      Gathered timeoutMs (first ++ bytes) rest text later := by
  induction gathered with
  | start => exact .inl ⟨rfl, rfl⟩
  | more _ unfinished again inductionHypothesis =>
      rcases inductionHypothesis with ⟨rfl, rfl⟩ | behind
      · rw [read] at again
        cases again
        exact .inr .start
      · exact .inr (.more behind unfinished again)

/-- Of two gathered texts one is gathered behind the other. -/
theorem Gathered.compare {timeoutMs : Nat} {first text text' : List UInt8}
    {arrivals later later' : List Arrival}
    (gathered : Gathered timeoutMs first arrivals text later)
    (gathered' : Gathered timeoutMs first arrivals text' later') :
    Gathered timeoutMs text later text' later' ∨
      Gathered timeoutMs text' later' text later := by
  induction gathered with
  | start => exact .inl gathered'
  | more gathered unfinished read inductionHypothesis =>
      rcases inductionHypothesis with behind | before
      · rcases behind.behind_read read with ⟨rfl, rfl⟩ | behind
        · exact .inr (.more .start unfinished read)
        · exact .inl behind
      · exact .inr (.more before unfinished read)

/-- The header that is gathered is one. -/
theorem HeaderArrives.unique {timeoutMs : Nat} {arrivals : List Arrival}
    {text stale text' stale' : List UInt8}
    (arrives : HeaderArrives timeoutMs arrivals text stale)
    (arrives' : HeaderArrives timeoutMs arrivals text' stale') :
    text = text' ∧ stale = stale' := by
  obtain ⟨_, first, _, crlfPos, _, read, found, gathered, blank, rfl⟩ := arrives
  obtain ⟨_, _, _, _, _, read', found', gathered', blank', rfl⟩ := arrives'
  rw [read] at read'
  cases read'
  rw [found] at found'
  cases found'
  refine ⟨?_, rfl⟩
  rcases gathered.compare gathered' with behind | before
  · exact (behind.front.resolve_right (not_not_intro blank)).symm
  · exact before.front.resolve_right (not_not_intro blank')

section FirstCall

variable {r : Response} {timeoutMs room : Nat} {arrivals : List Arrival}
  {w : Awaiting}

/-- Where the header fits and the length read is not negative, the response
fits. -/
theorem responseFits_of_arrives (roomy : RoomArrives timeoutMs arrivals)
    {text stale : List UInt8}
    (arrives : HeaderArrives timeoutMs arrivals text stale) {due : Nat}
    (declared : lengthRead text stale = due) :
    (w.session arrivals).ResponseFits timeoutMs := by
  intro _ _ elapsed first later crlfPos read found gatheredText rest gathered
  obtain ⟨fits, room⟩ := roomy elapsed first later crlfPos read found
    gatheredText rest gathered
  refine ⟨fits, room, fun blank length known => ?_⟩
  obtain ⟨rfl, rfl⟩ := arrives.unique ⟨elapsed, first, later, crlfPos, rest,
    read, found, gathered, blank, rfl⟩
  rw [lengthRead, known, Option.getD_some] at declared
  omega

/-- A call that stays within bounds has room for the header. -/
theorem roomArrives_of_fits
    (fits : (w.session arrivals).ResponseFits timeoutMs) :
    RoomArrives timeoutMs arrivals := by
  intro elapsed first later crlfPos read found text rest gathered
  obtain ⟨short, room, -⟩ := fits w.connected rfl elapsed first later crlfPos
    read found text rest gathered
  exact ⟨short, room⟩

/-- A call that succeeds has room for the header, which has come with a length
that is not negative. -/
theorem arrives_of_succeeds (delivers : Delivers arrivals r.bytes)
    (nonempty : 0 < w.responseBuf.length) {after : Session}
    (succeeds : Succeeds (w.session arrivals) timeoutMs after) :
    RoomArrives timeoutMs arrivals ∧
      ∃ text stale due, HeaderArrives timeoutMs arrivals text stale ∧
        lengthRead text stale = ((due : Nat) : Int) := by
  have buffered := awaiting_buffered w arrivals nonempty
  have fits : (w.session arrivals).ResponseFits timeoutMs :=
    (httpClientRecvResponse_sound_iff
      (w.session_receiving arrivals nonempty)).mp fun turns =>
        (recvData_sound buffered).mp (succeeds.sound turns)
  have roomy := roomArrives_of_fits fits
  refine ⟨roomy, ?_⟩
  have comes : StatusLineArrives timeoutMs arrivals := by
    by_contra missing
    obtain ⟨enough, ends⟩ := ends_unresolved (w := w) delivers nonempty missing
    have gives : Gives
        (fun turns => httpClientRecvData turns (w.session arrivals) timeoutMs)
        .errHttpUnresolvedDns :=
      ⟨enough, fun turns reached => (ends turns reached).1⟩
    cases succeeds.ends.ret_eq gives
  obtain ⟨length, lengthArrives⟩ := LengthArrives.exists delivers comes
  obtain ⟨text, stale, arrives, rfl⟩ := lengthArrives.header
  cases found : declaredLength (headerArray text stale) with
  | none =>
      -- without a length the call fails
      exfalso
      obtain ⟨begun, rest, bodyEnd, more, left, rfl, -, -, -, -, -, -, -, -, -,
        -, -, -, run⟩ := recvResponse_reaches delivers nonempty roomy arrives
      have fails : Gives (fun turns =>
          httpClientRecvResponse turns (w.session arrivals) timeoutMs)
          (.code .errHttpConnError) := by
        refine ⟨more + 1, fun turns reached => ?_⟩
        dsimp only
        have parsed : parseHeaderText turns left
            ⟨headerArray (r.fieldSection ++ begun) stale,
              (r.fieldSection ++ begun).length, bodyEnd⟩ timeoutMs = _ :=
          parseHeaderText_none found
        rw [run turns reached, parsed]
      cases succeeds.ends.ret_eq (recvData_fails buffered fails)
  | some length =>
      obtain ⟨elapsed, first, later, crlfPos, rest, read, line, gathered, blank,
        rfl⟩ := arrives
      have nonnegative := (fits w.connected rfl elapsed first later crlfPos read
        line text rest gathered).2.2 blank length found
      obtain ⟨due, rfl⟩ := Int.eq_ofNat_of_zero_le nonnegative
      refine ⟨text, _, due, ⟨elapsed, first, later, crlfPos, rest, read, line,
        gathered, blank, rfl⟩, ?_⟩
      rw [lengthRead, found]
      rfl

/-- What the calls hand over when the header has come and its length is
known. -/
theorem reassembles_iff (delivers : Delivers arrivals r.bytes)
    (large : room + 1 = w.responseBuf.length) (wide : 0 < room)
    (roomy : RoomArrives timeoutMs arrivals) {text stale : List UInt8}
    (arrives : HeaderArrives timeoutMs arrivals text stale) {due : Nat}
    (declared : lengthRead text stale = due) :
    Reassembles w timeoutMs arrivals r.body ↔
      due = r.body.length ∧
        text.length ≤ r.fieldSection.length + room ∧
        (r.body = [] ∨ ¬room ∣ r.body.length) := by
  have nonempty : 0 < w.responseBuf.length := by omega
  have buffered := awaiting_buffered w arrivals nonempty
  have fits := responseFits_of_arrives (w := w) roomy arrives declared
  have receiving (turns : Nat) : (httpClientRecvResponse turns
      (w.session arrivals) timeoutMs).1.Receiving :=
    httpClientRecvResponse_receiving
      (w.session_receiving arrivals nonempty) fits
  obtain ⟨begun, rest, s, rfl, split, handle, -, contentLen, -, collects⟩ :=
    recvResponse_collects delivers large roomy arrives declared
  rw [split]
  have total : (begun ++ rest).length = begun.length + rest.length :=
    List.length_append
  have header : (r.fieldSection ++ begun).length =
      r.fieldSection.length + begun.length := List.length_append
  have given {left : Session}
      (took : s.Took left w.responseBuf ((begun ++ rest).take (min due room))
        (rest.drop (min due room - begun.length)) (due - room)
        (decide (room ≤ due)))
      (enough : min due room ≤ (begun ++ rest).length) :
      handed left.data.responseContentLen left =
        (begun ++ rest).take (min due room) := by
    rw [took.responseContentLen, contentLen]
    apply took.handed
    rw [List.length_take]
    omega
  have next {left : Session} {ret : HttpReturn}
      (settles : Settles (fun turns => httpClientRecvResponse turns
        (w.session arrivals) timeoutMs) left ret)
      (took : s.Took left w.responseBuf ((begun ++ rest).take (min due room))
        (rest.drop (min due room - begun.length)) (due - room)
        (decide (room ≤ due))) (bytes : List UInt8) :
      Continues timeoutMs left bytes ↔
        due - room ≤ (rest.drop (min due room - begun.length)).length ∧
          (due = 0 ∨ ¬room ∣ due) ∧
          bytes = (rest.drop (min due room - begun.length)).take
            (due - room) := by
    refine took.continues_iff wide (fun longer => ?_) bytes
    apply Session.Going.continues_iff wide (by omega)
      (took.going (handle ▸ w.connected) (by rw [contentLen]; omega)
        (decide_eq_true longer.le) settles receiving)
    rw [length_headerArray, large]
    rw [List.length_take]
    omega
  constructor
  · rintro ⟨after, bytes, succeeds, continues, whole⟩
    by_cases enough : min due room ≤ (begun ++ rest).length
    · obtain ⟨left, settles, took⟩ := collects.takes enough
      obtain ⟨rfl, -⟩ := succeeds.ends.unique
        (recvData_settles buffered settles)
      obtain ⟨more, uneven, rfl⟩ := (next settles took bytes).mp continues
      rw [given took enough] at whole
      have lengths := congrArg List.length whole
      rw [List.length_append, List.length_take, List.length_take] at lengths
      rw [List.length_drop] at more lengths
      have due_eq : due = (begun ++ rest).length := by omega
      refine ⟨due_eq, by omega, ?_⟩
      rw [← due_eq, ← List.length_eq_zero_iff, ← due_eq]
      exact uneven
    · have fails := recvData_fails buffered
        (collects.fails (not_le.mp enough))
      cases succeeds.ends.ret_eq fails
  · rintro ⟨rfl, few, uneven⟩
    rw [split] at *
    obtain ⟨left, settles, took⟩ := collects.takes (Nat.min_le_left ..)
    have succeeds : Succeeds (w.session arrivals) timeoutMs left :=
      ⟨recvData_settles buffered settles, fun turns =>
        (recvData_sound buffered).mpr (receiving turns).sound⟩
    have more := (next settles took _).mpr
      ⟨by rw [List.length_drop]; omega,
        uneven.imp_left fun empty => by rw [empty, List.length_nil], rfl⟩
    refine ⟨left, _, succeeds, more, ?_⟩
    rw [given took (Nat.min_le_left ..)]
    generalize count : min (begun ++ rest).length room = first
    have behind : rest.drop (first - begun.length) =
        (begun ++ rest).drop first := by
      have used : begun.drop first = [] :=
        List.drop_eq_nil_of_le (by omega)
      rw [List.drop_append, used, List.nil_append]
    rw [behind, ← List.take_add]
    exact List.take_of_length_le (by omega)

/-- A response that comes in parts that fit a buffer with room for some bytes:
its header fits, and the length that is read when it has come is that of the
body; no more bytes of the body come with it than there is room for; and the
body does not end with a full buffer. -/
structure PartsFit (r : Response) (room timeoutMs : Nat)
    (arrivals : List Arrival) : Prop where
  roomy : RoomArrives timeoutMs arrivals
  header : ∃ text stale, HeaderArrives timeoutMs arrivals text stale ∧
    lengthRead text stale = r.body.length ∧
    text.length ≤ r.fieldSection.length + room
  uneven : r.body = [] ∨ ¬room ∣ r.body.length

/-- A body that is handed over has come in parts that fit. -/
theorem partsFit_of_reassembles (delivers : Delivers arrivals r.bytes)
    (large : room + 1 = w.responseBuf.length) (wide : 0 < room)
    (reassembles : Reassembles w timeoutMs arrivals r.body) :
    PartsFit r room timeoutMs arrivals := by
  have nonempty : 0 < w.responseBuf.length := by omega
  obtain ⟨after, bytes, succeeds, continues, whole⟩ := reassembles
  obtain ⟨roomy, text, stale, due, arrives, declared⟩ :=
    arrives_of_succeeds delivers nonempty succeeds
  obtain ⟨rfl, few, uneven⟩ :=
    (reassembles_iff delivers large wide roomy arrives declared).mp
      ⟨after, bytes, succeeds, continues, whole⟩
  exact ⟨roomy, ⟨text, stale, arrives, declared, few⟩, uneven⟩

end FirstCall

/-- The calls hand over the body of a well-formed response, `is_more` being one
exactly while something is left, if and only if it comes in parts that fit. -/
theorem recvData_reassembles_iff (r : Response) (w : Awaiting)
    (large : 2 ≤ w.responseBuf.length) (timeoutMs : Nat)
    (arrivals : List Arrival) (delivers : Delivers arrivals r.bytes) :
    Reassembles w timeoutMs arrivals r.body ↔
      PartsFit r (w.responseBuf.length - 1) timeoutMs arrivals := by
  have size : w.responseBuf.length - 1 + 1 = w.responseBuf.length := by omega
  have wide : 0 < w.responseBuf.length - 1 := by omega
  constructor
  · exact partsFit_of_reassembles delivers size wide
  · rintro ⟨roomy, ⟨text, stale, arrives, declared, few⟩, uneven⟩
    exact (reassembles_iff delivers size wide roomy arrives declared).mpr
      ⟨rfl, few, uneven⟩

theorem recvData_reassembles_iff_greeting :
    Reassembles awaitingGreeting 5000 (greetingSplit 20) greeting.body ↔
      PartsFit greeting (awaitingGreeting.responseBuf.length - 1) 5000
        (greetingSplit 20) :=
  recvData_reassembles_iff greeting awaitingGreeting (by decide) 5000 _
    (greetingSplit_delivers (by decide) (by decide))

/-- A client whose buffer the body of the small response fills exactly. -/
def exactBuffer : Awaiting :=
  { awaitingGreeting with
    responseBuf := List.replicate 3 0
    small := by decide }

/-- Not every body is handed over with `is_more` being right. -/
theorem greeting_not_reassembled :
    Delivers (greetingSplit 20) greeting.bytes ∧
      ¬Reassembles exactBuffer 5000 (greetingSplit 20) greeting.body := by
  have delivers : Delivers (greetingSplit 20) greeting.bytes :=
    greetingSplit_delivers (by decide) (by decide)
  refine ⟨delivers, fun reassembles => ?_⟩
  have size : 2 + 1 = exactBuffer.responseBuf.length := rfl
  have fits := partsFit_of_reassembles delivers size (by decide) reassembles
  rcases fits.uneven with empty | uneven
  · exact absurd empty (by decide)
  · exact uneven (by decide)

end Http
end UIoT
