import UIoT.Http.Segmentation

/-!
# Retrieving a body in parts

A body that is longer than the response buffer is retrieved by several calls of
`http_client_recv_data`.  Here is what one of them leaves in a buffer of any
size: as many bytes as there is room for, or as are to be retrieved.
-/

namespace UIoT
namespace Http

/-! ## Ends of runs -/

/-- With enough turns a run ends with the session and the value. -/
def Settles {σ ρ : Type} (run : Nat → σ × Option ρ) (after : σ) (ret : ρ) :
    Prop :=
  ∃ enough, ∀ turns, enough ≤ turns → run turns = (after, some ret)

/-- With enough turns a run ends with the value. -/
def Gives {σ ρ : Type} (run : Nat → σ × Option ρ) (ret : ρ) : Prop :=
  ∃ enough, ∀ turns, enough ≤ turns → (run turns).2 = some ret

section Runs

variable {σ ρ : Type} {run later : Nat → σ × Option ρ} {after : σ} {ret : ρ}

theorem Settles.of_const (same : ∀ turns, run turns = (after, some ret)) :
    Settles run after ret :=
  ⟨0, fun turns _ => same turns⟩

theorem Settles.of_later (settles : Settles later after ret) (more : Nat)
    (same : ∀ turns, run (turns + more) = later turns) :
    Settles run after ret := by
  obtain ⟨enough, ends⟩ := settles
  refine ⟨enough + more, fun turns reached => ?_⟩
  have shifted := same (turns - more)
  rw [Nat.sub_add_cancel (by omega)] at shifted
  rw [shifted]
  exact ends _ (by omega)

theorem Gives.of_later (gives : Gives later ret) (more : Nat)
    (same : ∀ turns, run (turns + more) = later turns) : Gives run ret := by
  obtain ⟨enough, ends⟩ := gives
  refine ⟨enough + more, fun turns reached => ?_⟩
  have shifted := same (turns - more)
  rw [Nat.sub_add_cancel (by omega)] at shifted
  rw [shifted]
  exact ends _ (by omega)

theorem Settles.unique (settles : Settles run after ret) {other : σ}
    {ret' : ρ} (settles' : Settles run other ret') :
    after = other ∧ ret = ret' := by
  obtain ⟨enough, ends⟩ := settles
  obtain ⟨enough', ends'⟩ := settles'
  have same := (ends _ (Nat.le_max_left enough enough')).symm.trans
    (ends' _ (Nat.le_max_right enough enough'))
  exact ⟨congrArg Prod.fst same, Option.some.inj (congrArg Prod.snd same)⟩

theorem Settles.ret_eq (settles : Settles run after ret) {ret' : ρ}
    (gives : Gives run ret') : ret = ret' := by
  obtain ⟨enough, ends⟩ := settles
  obtain ⟨enough', ends'⟩ := gives
  have same := ends' _ (Nat.le_max_right enough enough')
  rw [ends _ (Nat.le_max_left enough enough')] at same
  exact Option.some.inj same

end Runs

/-! ## One call -/

/-- What a run over a body leaves when it has retrieved all it had room for: the
contents of the response buffer, what is left of the stream, and how many bytes
remain to be retrieved.  Nothing else that later calls look at has changed. -/
structure Session.Took (s after : Session) (buffer contents left : List UInt8)
    (remaining : Nat) (full : Bool) : Prop where
  handle : after.client.handle = s.client.handle
  responseCode : after.client.responseCode = s.client.responseCode
  responseContentLen : after.data.responseContentLen =
    s.data.responseContentLen
  isChunked : after.data.isChunked = s.data.isChunked
  responseBufLen : after.data.responseBufLen = s.data.responseBufLen
  responseBuf : after.data.responseBuf = some (headerArray contents buffer)
  retrieveLen : after.data.retrieveLen = remaining
  isMore : after.data.isMore = full
  delivers : Delivers after.client.arrivals left

/-- What a run over a body returns that has room for some bytes, when enough
come. -/
def partRet (due room : Nat) : HttpReturn :=
  if due < room then .code .successRet else .retrieveMoreData

/-- How a run ends that has copied some bytes of a body, when there is room for
some more and some more are due: it takes what it can, and fails if less than
that comes. -/
structure Retrieves (run : Nat → Session × Option HttpReturn) (s : Session)
    (buffer done rest : List UInt8) (due free : Nat) : Prop where
  takes : min due free ≤ rest.length → ∃ after,
    Settles run after (partRet due free) ∧
      s.Took after buffer (done ++ rest.take (min due free))
        (rest.drop (min due free)) (due - free) (decide (free ≤ due))
  fails : rest.length < min due free → Gives run (.code .errHttpConnError)

/-- The sessions agree in what later calls look at and runs do not change. -/
structure Session.Alike (s other : Session) : Prop where
  handle : s.client.handle = other.client.handle
  responseCode : s.client.responseCode = other.client.responseCode
  responseContentLen : s.data.responseContentLen =
    other.data.responseContentLen
  isChunked : s.data.isChunked = other.data.isChunked
  responseBufLen : s.data.responseBufLen = other.data.responseBufLen

theorem Session.Took.of_alike {s other after : Session}
    {buffer contents left : List UInt8} {remaining : Nat} {full : Bool}
    (took : s.Took after buffer contents left remaining full)
    (alike : s.Alike other) :
    other.Took after buffer contents left remaining full where
  handle := took.handle.trans alike.handle
  responseCode := took.responseCode.trans alike.responseCode
  responseContentLen :=
    took.responseContentLen.trans alike.responseContentLen
  isChunked := took.isChunked.trans alike.isChunked
  responseBufLen := took.responseBufLen.trans alike.responseBufLen
  responseBuf := took.responseBuf
  retrieveLen := took.retrieveLen
  isMore := took.isMore
  delivers := took.delivers

/-- Behind a piece there is less room and less due. -/
theorem Retrieves.of_piece {run later : Nat → Session × Option HttpReturn}
    {s other : Session} {buffer done piece rest : List UInt8} {due free : Nat}
    (retrieves : Retrieves later s buffer (done ++ piece) rest
      (due - piece.length) (free - piece.length))
    (owed : piece.length ≤ due) (fits : piece.length < free)
    (alike : s.Alike other) (more : Nat)
    (same : ∀ turns, run (turns + more) = later turns) :
    Retrieves run other buffer done (piece ++ rest) due free := by
  have wanted : min (due - piece.length) (free - piece.length) =
      min due free - piece.length := by omega
  have least : piece.length ≤ min due free := by omega
  have ret : partRet (due - piece.length) (free - piece.length) =
      partRet due free := by
    unfold partRet
    congr 1
    apply propext
    omega
  obtain ⟨takes, fails⟩ := retrieves
  rw [wanted] at takes fails
  refine ⟨fun enough => ?_, fun few => ?_⟩
  · rw [List.length_append] at enough
    obtain ⟨after, settles, took⟩ := takes (by omega)
    rw [ret] at settles
    refine ⟨after, settles.of_later more same, ?_⟩
    have remaining : due - piece.length - (free - piece.length) =
        due - free := by omega
    have full : decide (free - piece.length ≤ due - piece.length) =
        decide (free ≤ due) := decide_eq_decide.mpr (by omega)
    rw [remaining, full, List.append_assoc] at took
    rw [List.take_append, List.take_of_length_le least, List.drop_append,
      List.drop_eq_nil_of_le least, List.nil_append]
    exact took.of_alike alike
  · rw [List.length_append] at few
    exact (fails (by omega)).of_later more same

section Body

/-- A turn whose read fills the response buffer is the last one. -/
theorem behindFill_full {timeoutMs turns elapsed : Nat} {s : Session}
    {buf chunk : List UInt8} {written : Int} {patience : Patience}
    {rest : List Arrival} (undone : s.data.retrieveLen ≠ 0)
    (read : netRead s.client.arrivals (bodyMaxLen s written).toNat timeoutMs =
      (⟨elapsed, .ok chunk⟩, rest))
    (due : (chunk.length : Int) ≤ s.data.retrieveLen)
    (full : written + chunk.length = s.data.responseBufLen - 1)
    (goesOn : (checkRead chunk (s.client.clock + elapsed) patience).2 ≠
      .errHttpConnError) :
    behindFill timeoutMs (turns + 1) s buf written patience =
      (s.afterBodyRead written chunk buf timeoutMs,
        some .retrieveMoreData) := by
  have clock : (s.afterRead buf.length 0 (bodyMaxLen s written)
      timeoutMs).client.clock = s.client.clock + elapsed := by
    change s.client.clock + (netRead s.client.arrivals
      (bodyMaxLen s written).toNat timeoutMs).1.elapsed = _
    rw [read]
  rw [behindFill_ok undone read]
  dsimp only
  rw [clock, if_neg goesOn, bodyLoop_eq]
  have all : min (chunk.length : Int) (s.afterRead buf.length 0
      (bodyMaxLen s written) timeoutMs).data.retrieveLen = chunk.length :=
    min_eq_left due
  have room : (s.afterRead buf.length 0 (bodyMaxLen s written)
      timeoutMs).data.responseBufLen - 1 - written = chunk.length := by
    change s.data.responseBufLen - 1 - written = _
    omega
  dsimp only
  rw [all, room]
  exact if_neg (not_lt.mpr full.ge)

/-- The loop over the body takes what is due or what there is room for, and
fails if less than that comes. -/
theorem behindFill_retrieves {timeoutMs : Nat} {s : Session}
    {buf done rest buffer : List UInt8} {patience : Patience} {due free : Nat}
    (delivers : Delivers s.client.arrivals rest)
    (held : s.data.responseBuf = some (headerArray done buffer))
    (owed : s.data.retrieveLen = due) (more : s.data.isMore = true)
    (array : buf.length = httpClientReadBufSize) (positive : 0 < free)
    (room : done.length + free + 1 = buffer.length)
    (size : (buffer.length : Int) = s.data.responseBufLen) :
    Retrieves (fun turns => behindFill timeoutMs turns s buf done.length
      patience) s buffer done rest due free := by
  by_cases finished : due = 0
  · have zero : s.data.retrieveLen = 0 := by omega
    have success : partRet due free = .code .successRet := if_pos (by omega)
    refine ⟨fun _ => ⟨{ s with data := { s.data with isMore := false } },
      .of_const fun _ => ?_, ?_⟩, fun few => by omega⟩
    · rw [success]
      exact behindFill_done zero
    · subst finished
      rw [Nat.zero_min, List.take_zero, List.append_nil, List.drop_zero,
        Nat.zero_sub]
      exact ⟨rfl, rfl, rfl, rfl, rfl, held, owed,
        (decide_eq_false (by omega)).symm, delivers⟩
  · by_cases empty : rest = []
    · subst empty
      have waits : Leaves (fun turns => behindFill timeoutMs turns s buf
          done.length patience) (.code .errHttpConnError) _ _ _ :=
        behindFill_waiting delivers.eq_nil held (by omega) (by omega) size
      obtain ⟨enough, ends⟩ := waits
      refine ⟨fun some => ?_,
        fun _ => ⟨enough, fun turns reached => (ends turns reached).1⟩⟩
      rw [List.length_nil] at some
      omega
    · have undone : s.data.retrieveLen ≠ 0 := by omega
      obtain ⟨elapsed, chunk, later, behind, split, brings⟩ :=
        s.exists_brings timeoutMs patience delivers empty held (by omega) array
          (by omega) size
      have begun := List.length_pos_iff.mpr brings.nonempty
      have shorter : behind.length < rest.length := by
        rw [split, List.length_append]
        omega
      have short := brings.due
      have within := brings.room
      have left : (s.afterBodyRead done.length chunk buf
          timeoutMs).data.retrieveLen = ((due - chunk.length : Nat) : Int) := by
        change s.data.retrieveLen - chunk.length = _
        omega
      rw [split]
      by_cases fits : chunk.length < free
      · have next : Retrieves (fun turns => behindFill timeoutMs turns
            (s.afterBodyRead done.length chunk buf timeoutMs)
            (overlay buf 0 chunk) (done ++ chunk).length
            (checkRead chunk (s.client.clock + elapsed) patience).1)
            (s.afterBodyRead done.length chunk buf timeoutMs) buffer
            (done ++ chunk) behind (due - chunk.length)
            (free - chunk.length) :=
          behindFill_retrieves brings.incoming brings.refilled left more
            ((length_overlay ..).trans array) (Nat.sub_pos_of_lt fits)
            (by rw [List.length_append]; omega) size
        have sum : (((done ++ chunk).length : Nat) : Int) =
            done.length + chunk.length := by
          rw [List.length_append]
          exact Int.natCast_add ..
        rw [sum] at next
        refine next.of_piece (by omega) fits ⟨rfl, rfl, rfl, rfl, rfl⟩ 1 ?_
        exact fun turns =>
          behindFill_turn undone brings.read (by omega) (by omega)
            brings.goesOn
      · -- the read has filled the buffer
        have filled : chunk.length = free := by omega
        have least : min due free = chunk.length := by omega
        have ret : partRet due free = .retrieveMoreData :=
          if_neg (by omega)
        have ends (turns : Nat) : behindFill timeoutMs (turns + 1) s buf
            done.length patience =
              (s.afterBodyRead done.length chunk buf timeoutMs,
                some .retrieveMoreData) :=
          behindFill_full undone brings.read (by omega) (by omega)
            brings.goesOn
        refine ⟨fun _ => ⟨s.afterBodyRead done.length chunk buf timeoutMs,
          ?_, ?_⟩, fun few => ?_⟩
        · rw [ret]
          exact (Settles.of_const fun _ => rfl).of_later 1 ends
        · rw [least, List.take_left, List.drop_left, ← filled]
          exact ⟨rfl, rfl, rfl, rfl, rfl, brings.refilled, left,
            more.trans (decide_eq_true (by omega)).symm, brings.incoming⟩
        · rw [List.length_append] at few
          omega
termination_by rest.length

/-- How a call ends that has some bytes of a body in its array when the rest of
them come: it takes the first bytes, as many as are due or as there is room
for.  The bytes in the array for which there is no room are gone. -/
structure Collects (run : Nat → Session × Option HttpReturn) (s : Session)
    (buffer begun rest : List UInt8) (due room : Nat) : Prop where
  takes : min due room ≤ (begun ++ rest).length → ∃ after,
    Settles run after (partRet due room) ∧
      s.Took after buffer ((begun ++ rest).take (min due room))
        (rest.drop (min due room - begun.length)) (due - room)
        (decide (room ≤ due))
  fails : (begun ++ rest).length < min due room →
    Gives run (.code .errHttpConnError)

theorem bodyLoop_collects {timeoutMs : Nat} {s : Session}
    {data begun rest buffer : List UInt8} {patience : Patience}
    {due room : Nat} (delivers : Delivers s.client.arrivals rest)
    (held : s.data.responseBuf = some buffer)
    (owed : s.data.retrieveLen = due) (more : s.data.isMore = true)
    (array : data.length = httpClientReadBufSize)
    (begins : data.take begun.length = begun)
    (large : room + 1 = buffer.length)
    (size : (buffer.length : Int) = s.data.responseBufLen) :
    Collects (fun turns => bodyLoop timeoutMs turns s data 0 begun.length
      patience) s buffer begun rest due room := by
  have within : begun.length ≤ data.length := by
    rw [← begins, List.length_take]
    exact Nat.min_le_right ..
  have taken (count : Nat) (few : count ≤ begun.length) :
      data.take count = begun.take count := by
    rw [← begins, List.take_take, Nat.min_eq_left few]
  have turn (turns : Nat) :=
    bodyLoop_eq timeoutMs turns s data 0 begun.length patience
  dsimp only at turn
  obtain ⟨count, least⟩ : ∃ count, count = min begun.length due := ⟨_, rfl⟩
  have counted : min (begun.length : Int) s.data.retrieveLen = count := by
    omega
  rw [counted] at turn
  simp only [Int.zero_add, Int.sub_zero] at turn
  by_cases fits : count < room
  · have fitsInt : (count : Int) < s.data.responseBufLen - 1 := by omega
    simp only [if_pos fitsInt] at turn
    have filled : (fillResponse s 0 data count).data.responseBuf =
        some (headerArray (data.take count) buffer) :=
      fillResponse_first held (by omega) (by omega)
    rw [taken count (by omega)] at filled
    have left : (fillResponse s 0 data count).data.retrieveLen =
        ((due - count : Nat) : Int) := by
      change s.data.retrieveLen - count = _
      omega
    have copied : (begun.take count).length = count :=
      List.length_take_of_le (by omega)
    have next : Retrieves (fun turns => behindFill timeoutMs turns
        (fillResponse s 0 data count) data (begun.take count).length patience)
        (fillResponse s 0 data count) buffer (begun.take count) rest
        (due - count) (room - count) :=
      behindFill_retrieves delivers filled left more array
        (Nat.sub_pos_of_lt fits) (by omega) size
    rw [copied] at next
    by_cases all : due ≤ begun.length
    · -- the body is in the array
      obtain rfl : count = due := by omega
      have none : min (count - count) (room - count) = 0 := by omega
      obtain ⟨after, settles, took⟩ := next.takes (by omega)
      refine ⟨fun _ => ⟨after, ?_, ?_⟩, fun few => ?_⟩
      · have ret : partRet (count - count) (room - count) =
            partRet count room := by
          rw [partRet, partRet, if_pos (by omega), if_pos fits]
        rw [ret] at settles
        exact settles.of_later 1 turn
      · have least : min count room = count := by omega
        have behind : count - begun.length = 0 := by omega
        have remaining : count - count - (room - count) = count - room := by
          omega
        have full : decide (room - count ≤ count - count) =
            decide (room ≤ count) := decide_eq_decide.mpr (by omega)
        rw [none, List.take_zero, List.append_nil, List.drop_zero, remaining,
          full] at took
        rw [least, behind, List.drop_zero, List.take_append_of_le_length all]
        exact took.of_alike ⟨rfl, rfl, rfl, rfl, rfl⟩
      · rw [List.length_append] at few
        omega
    · -- more of it is to come
      obtain rfl : count = begun.length := by omega
      rw [List.take_length, ← List.nil_append begun] at next
      have whole : Retrieves (fun turns => bodyLoop timeoutMs turns s data 0
          begun.length patience) s buffer [] (begun ++ rest) due room :=
        next.of_piece (by omega) fits ⟨rfl, rfl, rfl, rfl, rfl⟩ 1 turn
      refine ⟨fun enough => ?_, whole.fails⟩
      obtain ⟨after, settles, took⟩ := whole.takes enough
      rw [List.nil_append, List.drop_append,
        List.drop_eq_nil_of_le (by omega), List.nil_append] at took
      exact ⟨after, settles, took⟩
  · -- there is no room for all that is in the array
    have fullInt : ¬(count : Int) < s.data.responseBufLen - 1 := by omega
    simp only [if_neg fullInt] at turn
    have copied : s.data.responseBufLen - 1 = room := by omega
    rw [copied] at turn
    have filled : (fillResponse s 0 data room).data.responseBuf =
        some (headerArray (data.take room) buffer) :=
      fillResponse_first held (by omega) (by omega)
    rw [taken room (by omega)] at filled
    have left : (fillResponse s 0 data room).data.retrieveLen =
        ((due - room : Nat) : Int) := by
      change s.data.retrieveLen - room = _
      omega
    have wanted : min due room = room := by omega
    have behind : room - begun.length = 0 := by omega
    have ret : partRet due room = .retrieveMoreData := if_neg (by omega)
    refine ⟨fun _ => ⟨fillResponse s 0 data room, ?_, ?_⟩, fun few => ?_⟩
    · rw [ret]
      exact (Settles.of_const fun _ => rfl).of_later 1 turn
    · rw [wanted, behind, List.drop_zero,
        List.take_append_of_le_length (by omega)]
      exact ⟨rfl, rfl, rfl, rfl, rfl, filled, left,
        more.trans (decide_eq_true (by omega)).symm, delivers⟩
    · rw [List.length_append] at few
      omega

theorem Collects.of_alike {run : Nat → Session × Option HttpReturn}
    {s other : Session} {buffer begun rest : List UInt8} {due room : Nat}
    (collects : Collects run s buffer begun rest due room)
    (alike : s.Alike other) :
    Collects run other buffer begun rest due room := by
  refine ⟨fun enough => ?_, collects.fails⟩
  obtain ⟨after, settles, took⟩ := collects.takes enough
  exact ⟨after, settles, took.of_alike alike⟩

/-- A run that is another one from some number of turns on. -/
theorem Collects.of_eventually {run later : Nat → Session × Option HttpReturn}
    {s : Session} {buffer begun rest : List UInt8} {due room : Nat}
    (collects : Collects later s buffer begun rest due room) (more : Nat)
    (same : ∀ turns, more < turns → run turns = later turns) :
    Collects run s buffer begun rest due room := by
  refine ⟨fun enough => ?_, fun few => ?_⟩
  · obtain ⟨after, ⟨turns, ends⟩, took⟩ := collects.takes enough
    refine ⟨after, ⟨max turns (more + 1), fun count reached => ?_⟩, took⟩
    rw [same count (by omega)]
    exact ends count (by omega)
  · obtain ⟨turns, ends⟩ := collects.fails few
    refine ⟨max turns (more + 1), fun count reached => ?_⟩
    rw [same count (by omega)]
    exact ends count (by omega)

/-- The body is taken from what has come with the header and what comes
later. -/
theorem httpGetResponseBody_collects {timeoutMs : Nat} {s : Session}
    {data begun rest buffer : List UInt8} {due room : Nat}
    (delivers : Delivers s.client.arrivals rest)
    (held : s.data.responseBuf = some buffer)
    (owed : s.data.retrieveLen = due)
    (declared : s.data.responseContentLen ≠ -1)
    (array : data.length = httpClientReadBufSize)
    (begins : data.take begun.length = begun)
    (large : room + 1 = buffer.length)
    (size : (buffer.length : Int) = s.data.responseBufLen) :
    Collects (fun turns => httpGetResponseBody turns s data begun.length
      timeoutMs) s buffer begun rest due room := by
  have begins_ (turns : Nat) :
      httpGetResponseBody turns s data begun.length timeoutMs =
        bodyLoop timeoutMs turns
          { s with data := { s.data with isMore := true } } data 0 begun.length
          ⟨.countdownMs s.client.clock timeoutMs, 0, 0⟩ :=
    if_neg fun unread => declared unread.1
  simp only [begins_]
  have collects : Collects (fun turns => bodyLoop timeoutMs turns
      { s with data := { s.data with isMore := true } } data 0 begun.length
      ⟨.countdownMs s.client.clock timeoutMs, 0, 0⟩)
      { s with data := { s.data with isMore := true } } buffer begun rest due
      room :=
    bodyLoop_collects delivers held owed rfl array begins large size
  exact collects.of_alike ⟨rfl, rfl, rfl, rfl, rfl⟩

end Body

/-! ## The first call -/

section FirstCall

variable {r : Response} {timeoutMs : Nat} {arrivals : List Arrival}
  {w : Awaiting}

/-- What a call takes of a response whose header it has gathered and whose
length it has read. -/
theorem recvResponse_collects (delivers : Delivers arrivals r.bytes)
    {room due : Nat} (large : room + 1 = w.responseBuf.length)
    (roomy : RoomArrives timeoutMs arrivals) {text stale : List UInt8}
    (arrives : HeaderArrives timeoutMs arrivals text stale)
    (declared : lengthRead text stale = due) :
    ∃ (begun rest : List UInt8) (s : Session),
      text = r.fieldSection ++ begun ∧ r.body = begun ++ rest ∧
      s.client.handle = w.handle ∧
      s.client.responseCode = atoi (r.statusLine.drop 9) ∧
      s.data.responseContentLen = due ∧
      s.data.responseBufLen = w.responseBuf.length ∧
      Collects (fun turns => httpClientRecvResponse turns (w.session arrivals)
        timeoutMs) s w.responseBuf begun rest due room := by
  obtain ⟨begun, rest, bodyEnd, more, after, rfl, receiving, delivered, split,
    ended, handle, unread, plain, held, size, code, array, fits, run⟩ :=
    recvResponse_reaches delivers
      (Nat.lt_of_lt_of_eq (Nat.succ_pos room) large) roomy arrives
  have found : declaredLength (headerArray (r.fieldSection ++ begun) stale) =
      some (due : Int) := by
    unfold lengthRead at declared
    cases found : declaredLength
        (headerArray (r.fieldSection ++ begun) stale) with
    | none =>
        rw [found] at declared
        have unread : (-1 : Int) = due := declared
        omega
    | some length =>
        rw [found] at declared
        exact congrArg some declared
  have begunLength : (r.fieldSection ++ begun).length -
      r.fieldSection.length = begun.length := by
    rw [List.length_append, Nat.add_sub_cancel_left]
  have begins := take_movedBody fits
  have moved := (length_overlay (headerArray (r.fieldSection ++ begun) stale) 0
    (((headerArray (r.fieldSection ++ begun) stale).drop
      r.fieldSection.length).take (begun.length + 1))).trans
      ((length_headerArray fits).trans array)
  have known : ((due : Nat) : Int) ≠ -1 := by omega
  generalize headerArray (r.fieldSection ++ begun) stale = buf at *
  have collects : Collects (fun turns => httpGetResponseBody turns
      (after.withLength due buf.length r.fieldSection.length begun.length)
      (overlay buf 0 ((buf.drop r.fieldSection.length).take
        (begun.length + 1))) begun.length timeoutMs)
      (after.withLength due buf.length r.fieldSection.length begun.length)
      w.responseBuf begun rest due room :=
    httpGetResponseBody_collects delivered held rfl known moved begins large
      size
  have parsed (turns : Nat) : parseHeaderText turns after
      ⟨buf, (r.fieldSection ++ begun).length, bodyEnd⟩ timeoutMs = _ :=
    parseHeaderText_some found
  simp only [ended, begunLength] at parsed
  exact ⟨begun, rest,
    after.withLength due buf.length r.fieldSection.length begun.length, rfl,
    split, handle, code, rfl, size.symm, collects.of_eventually more
      fun turns enough => (run turns enough).trans (parsed turns)⟩

end FirstCall

/-! ## What callers see -/

/-- What `_http_client_recv_response` ends with is what its caller sees, if it
is not an error. -/
theorem recvData_settles {timeoutMs : Nat} {s after : Session}
    {due room : Nat}
    (buffered : s.data.responseBuf.isSome ∧ s.data.responseBufLen ≠ 0)
    (settles : Settles (fun turns => httpClientRecvResponse turns s timeoutMs)
      after (partRet due room)) :
    Settles (fun turns => httpClientRecvData turns s timeoutMs) after
      .successRet := by
  obtain ⟨enough, ends⟩ := settles
  refine ⟨enough, fun turns reached => ?_⟩
  have run := ends turns reached
  dsimp only at run ⊢
  unfold httpClientRecvData
  rw [if_pos buffered, run]
  by_cases all : due < room
  · rw [partRet, if_pos all]
    rfl
  · rw [partRet, if_neg all]

/-- So is an error. -/
theorem recvData_fails {timeoutMs : Nat} {s : Session}
    (buffered : s.data.responseBuf.isSome ∧ s.data.responseBufLen ≠ 0)
    (fails : Gives (fun turns => httpClientRecvResponse turns s timeoutMs)
      (.code .errHttpConnError)) :
    Gives (fun turns => httpClientRecvData turns s timeoutMs)
      .errHttpConnError := by
  obtain ⟨enough, ends⟩ := fails
  refine ⟨enough, fun turns reached => ?_⟩
  have run := ends turns reached
  dsimp only at run ⊢
  unfold httpClientRecvData
  rw [if_pos buffered]
  generalize httpClientRecvResponse turns s timeoutMs = result at run ⊢
  obtain ⟨after, ret⟩ := result
  obtain rfl : ret = some (.code .errHttpConnError) := run
  rfl

end Http
end UIoT
