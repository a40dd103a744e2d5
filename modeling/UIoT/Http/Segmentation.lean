import UIoT.Http.Safety
import UIoT.Http.Body

/-!
# Responses in pieces

Whether the end of a call of `http_client_recv_data` depends on how the bytes of
a well-formed response are split into reads.  It does: the status line has to
come with the first read, of which at most 32 bytes are taken; and the
`Content-Length` is looked for in what has come when the header ends, in which
there may be bytes of the body.
-/

namespace UIoT
namespace Http

/-! ## Gathering the header of a response -/

/-- What has been gathered and what is still to come are the response. -/
theorem Gathered.delivers {timeoutMs : Nat} {first bytes text : List UInt8}
    {arrivals later : List Arrival}
    (gathered : Gathered timeoutMs first arrivals text later)
    (delivers : Delivers arrivals bytes) :
    ∃ rest, first ++ bytes = text ++ rest ∧ Delivers later rest := by
  induction gathered with
  | start => exact ⟨bytes, rfl, delivers⟩
  | more _ _ read inductionHypothesis =>
      obtain ⟨rest, split, delivered⟩ := inductionHypothesis
      obtain ⟨_, chunk, _, behind, again, rfl, delivered, -⟩ :=
        delivered.read httpClientReadHeadSize timeoutMs
      rw [read] at again
      cases again
      exact ⟨behind, by rw [split, List.append_assoc], delivered⟩

/-- The blank line of a response is gathered some time. -/
theorem Gathered.complete (r : Response) (timeoutMs : Nat)
    {first bytes : List UInt8} {arrivals : List Arrival}
    (delivers : Delivers arrivals bytes)
    (split : r.fieldSection ++ r.body = first ++ bytes) :
    ∃ text later, Gathered timeoutMs first arrivals text later ∧
      HasBlankLine text := by
  by_cases blank : HasBlankLine first
  · exact ⟨first, arrivals, .start, blank⟩
  · have missing : bytes ≠ [] := by
      rintro rfl
      have whole := congrArg List.length split
      rw [List.append_nil, List.length_append] at whole
      exact blank ((Response.hasBlankLine_iff split).mpr (by omega))
    obtain ⟨_, chunk, later, rest, read, bytesEq, delivered, brings⟩ :=
      delivers.read httpClientReadHeadSize timeoutMs
    have shorter : rest.length < bytes.length := by
      have positive := List.length_pos_iff.mpr (brings missing (by decide))
      rw [bytesEq, List.length_append]
      omega
    rw [bytesEq, ← List.append_assoc] at split
    obtain ⟨text, behind, gathered, complete⟩ :=
      Gathered.complete r timeoutMs delivered split
    exact ⟨text, behind, gathered.behind blank read, complete⟩
termination_by bytes.length

/-- The array has room for what is gathered: for a text with its terminator,
and for a whole read behind it as long as its blank line is missing. -/
def HeaderRoom (timeoutMs : Nat) (first : List UInt8)
    (arrivals : List Arrival) : Prop :=
  ∀ text later, Gathered timeoutMs first arrivals text later →
    text.length < httpClientReadBufSize ∧
      (¬HasBlankLine text →
        text.length + httpClientReadHeadSize ≤ httpClientReadBufSize)

/-- There is room for a short header. -/
theorem HeaderRoom.of_short {r : Response} (short : r.header.length ≤ 900)
    {timeoutMs : Nat} {first bytes : List UInt8} {arrivals : List Arrival}
    (begun : first.length ≤ httpClientReadHeadSize)
    (delivers : Delivers arrivals bytes)
    (split : r.fieldSection ++ r.body = first ++ bytes) :
    HeaderRoom timeoutMs first arrivals := by
  have bufSize : httpClientReadBufSize = 1024 := rfl
  have headSize : httpClientReadHeadSize = 32 := rfl
  have sectionShort : r.fieldSection.length ≤ 900 := by
    refine Nat.le_trans ?_ short
    unfold Response.header
    simp only [List.length_append, List.length_cons]
    omega
  have unread {text : List UInt8} {later : List Arrival}
      (gathered : Gathered timeoutMs first arrivals text later)
      (unfinished : ¬HasBlankLine text) : text.length < 900 := by
    obtain ⟨behind, same, -⟩ := gathered.delivers delivers
    by_contra reached
    exact unfinished ((Response.hasBlankLine_iff (split.trans same)).mpr
      (by omega))
  intro text later gathered
  refine ⟨?_, fun unfinished => ?_⟩
  · cases gathered with
    | start => omega
    | more gathered unfinished read =>
        have few := unread gathered unfinished
        have brought := length_netRead read
        rw [List.length_append]
        omega
  · have few := unread gathered unfinished
    omega

/-- The loop over the header comes to every text that is gathered. -/
theorem headerLoop_reaches {timeoutMs : Nat} {s : Session}
    (receiving : s.Receiving) {first stale text : List UInt8}
    {later : List Arrival} (size : stale.length = httpClientReadBufSize)
    (roomy : HeaderRoom timeoutMs first s.client.arrivals)
    (gathered : Gathered timeoutMs first s.client.arrivals text later) :
    ∃ (more : Nat) (after : Session), after.Receiving ∧
      after.client.arrivals = later ∧ after.data = s.data ∧
      after.client.responseCode = s.client.responseCode ∧
      after.client.handle = s.client.handle ∧
      ∀ turns, headerLoop timeoutMs (turns + more) s
          (headerArray first stale) first.length =
        headerLoop timeoutMs turns after (headerArray text stale)
          text.length := by
  induction gathered with
  | start =>
      exact ⟨0, s, receiving, rfl, rfl, rfl, rfl, fun _ => rfl⟩
  | @more text chunk elapsed later rest gathered unfinished read
      inductionHypothesis =>
      obtain ⟨more, after, received, arrivals, data, code, handle, reaches⟩ :=
        inductionHypothesis
      obtain ⟨fits, room⟩ := roomy text later gathered
      have asked := room unfinished
      have still := (roomy _ _ (.more gathered unfinished read)).1
      rw [List.length_append] at still
      have array : (headerArray text stale).length = httpClientReadBufSize :=
        (length_headerArray (size ▸ fits)).trans size
      have missing := strstr_headerArray stale unfinished
      rw [← arrivals] at read
      refine ⟨more + 1, after.afterHeaderRead (headerArray text stale).length
        text.length chunk.length timeoutMs, ?_, ?_, data, code, handle,
        fun turns => ?_⟩
      · rw [array]
        apply Session.Receiving.use
        · apply received.afterRead
          exact ⟨Int.natCast_nonneg _, Int.natCast_nonneg _,
            by dsimp only; omega⟩
        · exact still
      · rw [arrivals_afterHeaderRead, read]
      · have again := reaches (turns + 1)
        rw [Nat.add_assoc, Nat.add_comm 1] at again
        rw [again, headerLoop_read missing read,
          overlay_headerArray (size ▸ still), ← List.length_append]

/-! ## Behind the header -/

/-- No recorded use of a buffer leaves it. -/
def Session.InBounds (s : Session) : Prop := ∀ use ∈ s.uses, use.Within

/-- The `Content-Length` the client takes from the array: −1 where it finds
none. -/
def lengthRead (text stale : List UInt8) : Int :=
  (declaredLength (headerArray text stale)).getD (-1)

/-- What a call returns for a body of some length when it has read a
`Content-Length`. -/
def responseRet (length : Int) (bodyLength : Nat) : HttpReturn :=
  if length = -1 then .code .errHttpConnError else bodyRet length bodyLength

/-- What it leaves in the response buffer. -/
def responseContents (length : Int) (body buffer : List UInt8) : List UInt8 :=
  if length = -1 then buffer else headerArray (body.take length.toNat) buffer

/-- The session when a `Content-Length` has been read and the header has been
taken off the array. -/
def Session.withLength (s : Session) (length : Int) (size source len : Nat) :
    Session :=
  let s :=
    { s with
      data := { s.data with responseContentLen := length }
      announced := length }
  let s := (s.setRetrieveLen length).use size source ((len : Int) + 1)
  let s := s.use size 0 ((len : Int) + 1)
  { s with
    data :=
      { s.data with
        responseReceivedLen := s.data.responseReceivedLen + len } }

theorem parseHeaderText_none {turns timeoutMs : Nat} {s : Session}
    {header : HeaderText} (missing : declaredLength header.buf = none) :
    parseHeaderText turns s header timeoutMs =
      (s, some (.code .errHttpConnError)) := by
  unfold parseHeaderText
  rw [missing]

theorem parseHeaderText_some {turns timeoutMs : Nat} {s : Session}
    {header : HeaderText} {length : Int}
    (found : declaredLength header.buf = some length) :
    parseHeaderText turns s header timeoutMs =
      httpGetResponseBody turns
        (s.withLength length header.buf.length (header.bodyEnd + 4)
          (header.len - (header.bodyEnd + 4)))
        (overlay header.buf 0 ((header.buf.drop (header.bodyEnd + 4)).take
          (header.len - (header.bodyEnd + 4) + 1)))
        (header.len - (header.bodyEnd + 4)) timeoutMs := by
  unfold parseHeaderText
  rw [found]
  rfl

/-- The first bytes of the body are moved to the front of the array. -/
theorem take_movedBody {before begun stale : List UInt8}
    (fits : (before ++ begun).length < stale.length) :
    (overlay (headerArray (before ++ begun) stale) 0
      (((headerArray (before ++ begun) stale).drop before.length).take
        (begun.length + 1))).take begun.length = begun := by
  have behind : (headerArray (before ++ begun) stale).drop before.length =
      begun ++ 0 :: stale.drop ((before ++ begun).length + 1) := by
    rw [headerArray, List.append_assoc, List.drop_left]
  have array := length_headerArray fits
  rw [List.length_append] at fits
  rw [overlay_eq]
  · rw [List.take_zero, List.nil_append, behind, List.take_append,
      List.take_append, List.take_of_length_le (Nat.le_succ _)]
    simp
  · rw [List.length_take, array]
    omega

theorem body_of_split {r : Response} {text rest : List UInt8}
    (split : r.fieldSection ++ r.body = text ++ rest)
    (reached : r.fieldSection.length ≤ text.length) :
    ∃ begun, text = r.fieldSection ++ begun ∧ r.body = begun ++ rest := by
  obtain ⟨begun, rfl⟩ : r.fieldSection <+: text :=
    List.prefix_of_prefix_length_le (List.prefix_append _ r.body)
      (split ▸ List.prefix_append text rest) reached
  rw [List.append_assoc] at split
  exact ⟨begun, rfl, List.append_cancel_left split⟩

section

variable {r : Response} {timeoutMs bodyEnd : Nat} {s : Session}
  {begun rest stale buffer : List UInt8}

/-- How the loop over the body ends that begins with a length. -/
theorem withLength_leaves {length : Int}
    (delivers : Delivers s.client.arrivals rest)
    (split : r.body = begun ++ rest) (plain : s.data.isChunked = 0)
    (held : s.data.responseBuf = some buffer)
    (room : r.body.length + 1 < buffer.length)
    (size : (buffer.length : Int) = s.data.responseBufLen)
    {data : List UInt8} (array : data.length = httpClientReadBufSize)
    (begins : data.take begun.length = begun) (defined : -1 ≤ length)
    (bufSize source : Nat) :
    Leaves
      (fun turns => httpGetResponseBody turns
        (s.withLength length bufSize source begun.length) data begun.length
        timeoutMs)
      (responseRet length r.body.length) s.client.responseCode length
      (responseContents length r.body buffer) := by
  unfold responseRet responseContents
  by_cases sentinel : length = -1
  · rw [if_pos sentinel, if_pos sentinel]
    have run (turns : Nat) :
        httpGetResponseBody turns
            (s.withLength length bufSize source begun.length) data begun.length
            timeoutMs =
          ({ s.withLength length bufSize source begun.length with
              data :=
                { (s.withLength length bufSize source begun.length).data with
                  isMore := true } },
            some (.code .errHttpConnError)) :=
      if_pos ⟨sentinel, plain⟩
    exact .of_const run rfl rfl held
  · rw [if_neg sentinel, if_neg sentinel, split]
    rw [split, List.length_append] at room
    exact httpGetResponseBody_leaves delivers held (by
      change 0 ≤ length
      omega) sentinel array begins room size

/-- How a call ends that has gathered the header of a response. -/
theorem parseHeaderText_leaves
    (delivers : Delivers s.client.arrivals rest)
    (split : r.body = begun ++ rest)
    (ended : bodyEnd + 4 = r.fieldSection.length)
    (unread : s.data.responseContentLen = -1) (plain : s.data.isChunked = 0)
    (held : s.data.responseBuf = some buffer)
    (room : r.body.length + 1 < buffer.length)
    (size : (buffer.length : Int) = s.data.responseBufLen)
    (array : stale.length = httpClientReadBufSize)
    (fits : (r.fieldSection ++ begun).length < stale.length)
    (defined : -1 ≤ lengthRead (r.fieldSection ++ begun) stale) :
    Leaves
      (fun turns => parseHeaderText turns s
        ⟨headerArray (r.fieldSection ++ begun) stale,
          (r.fieldSection ++ begun).length, bodyEnd⟩ timeoutMs)
      (responseRet (lengthRead (r.fieldSection ++ begun) stale) r.body.length)
      s.client.responseCode
      (lengthRead (r.fieldSection ++ begun) stale)
      (responseContents (lengthRead (r.fieldSection ++ begun) stale) r.body
        buffer) := by
  have begunLength : (r.fieldSection ++ begun).length -
      r.fieldSection.length = begun.length := by
    rw [List.length_append, Nat.add_sub_cancel_left]
  have begins := take_movedBody fits
  have moved := (length_overlay (headerArray (r.fieldSection ++ begun) stale) 0
    (((headerArray (r.fieldSection ++ begun) stale).drop
      r.fieldSection.length).take (begun.length + 1))).trans
      ((length_headerArray fits).trans array)
  unfold lengthRead at *
  generalize headerArray (r.fieldSection ++ begun) stale = buf at *
  cases found : declaredLength buf with
  | none =>
      have run (turns : Nat) : parseHeaderText turns s
          ⟨buf, (r.fieldSection ++ begun).length, bodyEnd⟩ timeoutMs =
            (s, some (.code .errHttpConnError)) :=
        parseHeaderText_none found
      exact .of_const run rfl unread held
  | some length =>
      rw [found] at defined
      have run (turns : Nat) : parseHeaderText turns s
          ⟨buf, (r.fieldSection ++ begun).length, bodyEnd⟩ timeoutMs = _ :=
        parseHeaderText_some found
      simp only [ended, begunLength] at run
      simp only [run]
      exact withLength_leaves delivers split plain held room size moved begins
        defined _ _

end

theorem withLength_inBounds {s : Session} (inBounds : s.InBounds)
    {length : Int} {size source len : Nat} (fits : source + len < size) :
    (s.withLength length size source len).InBounds := by
  intro use mem
  rcases List.mem_append.mp mem with earlier | last
  · rcases List.mem_append.mp earlier with before | moved
    · exact inBounds use before
    · rw [List.mem_singleton.mp moved]
      refine ⟨Int.natCast_nonneg (len + 1), Int.natCast_nonneg source, ?_⟩
      change (source : Int) + ((len : Int) + 1) ≤ (size : Int)
      omega
  · rw [List.mem_singleton.mp last]
    refine ⟨Int.natCast_nonneg (len + 1), le_rfl, ?_⟩
    change (0 : Int) + ((len : Int) + 1) ≤ (size : Int)
    omega

/-- Behind a header no buffer is left when the length is not below −1. -/
theorem parseHeaderText_inBounds (header : HeaderText) {s : Session}
    (receiving : s.Receiving) (plain : s.data.isChunked = 0)
    (size : header.buf.length = httpClientReadBufSize)
    (ended : header.bodyEnd + 4 ≤ header.len)
    (fits : header.len < header.buf.length)
    (defined : -1 ≤ (declaredLength header.buf).getD (-1))
    (turns timeoutMs : Nat) :
    (parseHeaderText turns s header timeoutMs).1.InBounds := by
  by_cases sentinel : declaredLength header.buf = some (-1)
  · rw [parseHeaderText_some sentinel]
    unfold httpGetResponseBody
    dsimp only
    rw [if_pos ⟨rfl, plain⟩]
    exact withLength_inBounds receiving.sound.within (by omega)
  · refine (parseHeaderText_receiving receiving size ended fits ?_ turns
      timeoutMs).sound.within
    intro length found
    have other : length ≠ -1 := by
      rintro rfl
      exact sentinel found
    rw [found] at defined
    dsimp only [Option.getD] at defined
    omega

theorem mem_fillResponse (s : Session) (count length : Int)
    (data : List UInt8) :
    ⟨s.buffer.length, count, length⟩ ∈
      (fillResponse s count data length).uses := by
  simp [fillResponse, terminateResponse, copyToResponse, Session.use,
    Session.setRetrieveLen]

/-- A length below −1 is given to `memcpy`. -/
theorem parseHeaderText_outOfBounds (header : HeaderText) {s : Session}
    (room : 0 < s.data.responseBufLen)
    (undefined : (declaredLength header.buf).getD (-1) < -1)
    (turns timeoutMs : Nat) :
    ¬(parseHeaderText (turns + 1) s header timeoutMs).1.InBounds := by
  cases found : declaredLength header.buf with
  | none =>
      rw [found] at undefined
      exact absurd undefined (by decide)
  | some length =>
      rw [found] at undefined
      dsimp only [Option.getD] at undefined
      intro inBounds
      rw [parseHeaderText_some found] at inBounds
      generalize header.len - (header.bodyEnd + 4) = len at inBounds
      generalize overlay header.buf 0 _ = data at inBounds
      set after := s.withLength length header.buf.length (header.bodyEnd + 4)
        len
      have negative : ¬(after.data.responseContentLen = -1 ∧
          after.data.isChunked = 0) := by
        rintro ⟨sentinel, -⟩
        change length = -1 at sentinel
        omega
      unfold httpGetResponseBody at inBounds
      dsimp only at inBounds
      rw [if_neg negative, bodyLoop_eq] at inBounds
      have least : min (len : Int) after.data.retrieveLen = length := by
        change min (len : Int) length = length
        omega
      dsimp only at inBounds
      have fits : 0 + length < after.data.responseBufLen - 1 := by
        change 0 + length < s.data.responseBufLen - 1
        omega
      rw [least, if_pos fits] at inBounds
      generalize Session.mk .. = started at inBounds
      generalize Patience.mk .. = patience at inBounds
      have recorded := (behindFill_grows_of (bodyLoop_grows timeoutMs turns) _
        data (0 + length) patience).uses.subset
          (mem_fillResponse started 0 length data)
      have nonnegative := (inBounds _ recorded).1
      dsimp only at nonnegative
      omega

/-! ## Calls -/

/-- A client and its data before a response is received: connected, with
`is_more` zero and a response buffer. -/
structure Awaiting where
  handle : Nat
  responseCode : Int
  clock : Nat
  isChunked : Int
  retrieveLen : Nat
  responseContentLen : Int
  responseReceivedLen : Int
  responseBuf : List UInt8
  connected : handle ≠ 0
  small : responseBuf.length < 2 ^ 31

namespace Awaiting

/-- The session in which the response arrives. -/
def session (w : Awaiting) (arrivals : List Arrival) : Session where
  client :=
    { handle := w.handle
      responseCode := w.responseCode
      arrivals
      clock := w.clock }
  data :=
    { isMore := false
      isChunked := w.isChunked
      retrieveLen := w.retrieveLen
      responseContentLen := w.responseContentLen
      responseReceivedLen := w.responseReceivedLen
      responseBufLen := w.responseBuf.length
      responseBuf := some w.responseBuf }
  uses := []
  announced := w.retrieveLen
  retrieved := []

theorem session_receiving (w : Awaiting) (arrivals : List Arrival)
    (nonempty : 0 < w.responseBuf.length) :
    (w.session arrivals).Receiving where
  sound := ⟨fun _ mem => (nomatch mem), fun _ mem => (nomatch mem)⟩
  nonnegative := Int.natCast_nonneg _
  bounded := le_rfl
  size := rfl
  positive := Int.natCast_pos.mpr nonempty

end Awaiting

/-- The first read has the end of the status line. -/
def StatusLineArrives (timeoutMs : Nat) (arrivals : List Arrival) : Prop :=
  ∃ elapsed first later,
    netRead arrivals httpClientReadHeadSize timeoutMs =
        (⟨elapsed, .ok first⟩, later) ∧
      [13, 10] <:+: visible first

/-- The first read has the end of the status line, and this is the
`Content-Length` read from what has come when the blank line is there: −1 where
there is none. -/
def LengthArrives (timeoutMs : Nat) (arrivals : List Arrival) (length : Int) :
    Prop :=
  ∃ elapsed first later crlfPos text rest,
    netRead arrivals httpClientReadHeadSize timeoutMs =
        (⟨elapsed, .ok first⟩, later) ∧
      strstr [13, 10] (visible first) = some crlfPos ∧
      Gathered timeoutMs (first.drop (crlfPos + 2)) later text rest ∧
      HasBlankLine text ∧
      lengthRead text (staleArray first crlfPos) = length

section

variable {r : Response} {timeoutMs : Nat} {arrivals : List Arrival}
  {w : Awaiting}

/-- The code is read behind the version, whatever has come with it. -/
theorem responseCode_staleArray {first : List UInt8}
    {more : List UInt8} (begins : first = r.statusLine ++ 13 :: more) :
    cString ((staleArray first r.statusLine.length).drop 9) =
      r.statusLine.drop 9 := by
  have long : 9 ≤ r.statusLine.length := by
    have version : (ascii "HTTP/1.1 ").length = 9 := rfl
    unfold Response.statusLine
    rw [List.length_append, List.length_append, version]
    omega
  have array : staleArray first r.statusLine.length = r.statusLine ++ 0 ::
      (more ++ 0 :: (List.replicate httpClientReadBufSize 0).drop
        (first.length + 1)) := by
    unfold staleArray headerArray
    rw [begins, List.append_assoc, overlay_append]
    · simp
    · simp
  have text : ∀ byte ∈ r.statusLine.drop 9, IsText byte := fun byte mem =>
    r.statusLine_text byte (List.mem_of_mem_drop mem)
  rw [array, List.drop_append_of_le_length long]
  have read := visible_append (not_mem_zero_of_text text)
    (0 :: (more ++ 0 :: (List.replicate httpClientReadBufSize 0).drop
      (first.length + 1)))
  change visible _ = _
  rw [read]
  exact List.append_nil _

theorem delivers_first (timeoutMs : Nat)
    (delivers : Delivers arrivals r.bytes) :
    ∃ elapsed first later rest,
      netRead arrivals httpClientReadHeadSize timeoutMs =
          (⟨elapsed, .ok first⟩, later) ∧
        r.bytes = first ++ rest ∧ Delivers later rest ∧ first ≠ [] := by
  obtain ⟨elapsed, first, later, rest, read, split, delivered, brings⟩ :=
    delivers.read httpClientReadHeadSize timeoutMs
  have some : r.bytes ≠ [] := by
    unfold Response.bytes Response.header Response.statusLine
    simp
  exact ⟨elapsed, first, later, rest, read, split, delivered,
    brings some (by decide)⟩

/-- The first read begins with the status line when it has its end. -/
theorem first_begins {first rest : List UInt8} {crlfPos : Nat}
    (split : r.bytes = first ++ rest)
    (found : strstr [13, 10] (visible first) = some crlfPos) :
    crlfPos = r.statusLine.length ∧
      ∃ more, first = r.statusLine ++ 13 :: 10 :: more ∧
        r.fieldSection ++ r.body = more ++ rest := by
  rw [Response.strstr_statusLine split] at found
  split at found
  · rename_i reached
    obtain rfl := (Option.some.inj found).symm
    have whole : r.statusLine ++ [13, 10] ++ (r.fieldSection ++ r.body) =
        first ++ rest := by
      rw [← split, Response.bytes, Response.header, List.append_assoc,
        List.append_assoc]
      rfl
    obtain ⟨more, rfl⟩ : r.statusLine ++ [13, 10] <+: first := by
      apply List.prefix_of_prefix_length_le
        (List.prefix_append _ (r.fieldSection ++ r.body))
        (whole ▸ List.prefix_append first rest)
      rw [List.length_append]
      exact reached
    rw [List.append_assoc (r.statusLine ++ [13, 10])] at whole
    refine ⟨rfl, more, ?_, List.append_cancel_left whole⟩
    rw [List.append_assoc]
    rfl
  · cases found

/-- The first read has the end of the status line, and this is what has come
behind it when the blank line is there, over what lay in the array. -/
def HeaderArrives (timeoutMs : Nat) (arrivals : List Arrival)
    (text stale : List UInt8) : Prop :=
  ∃ elapsed first later crlfPos rest,
    netRead arrivals httpClientReadHeadSize timeoutMs =
        (⟨elapsed, .ok first⟩, later) ∧
      strstr [13, 10] (visible first) = some crlfPos ∧
      Gathered timeoutMs (first.drop (crlfPos + 2)) later text rest ∧
      HasBlankLine text ∧
      staleArray first crlfPos = stale

theorem LengthArrives.header {length : Int}
    (arrives : LengthArrives timeoutMs arrivals length) :
    ∃ text stale, HeaderArrives timeoutMs arrivals text stale ∧
      lengthRead text stale = length := by
  obtain ⟨elapsed, first, later, crlfPos, text, rest, read, found, gathered,
    blank, same⟩ := arrives
  exact ⟨text, _, ⟨elapsed, first, later, crlfPos, rest, read, found, gathered,
    blank, rfl⟩, same⟩

/-- The array has room for the header behind the status line of the first
read. -/
def RoomArrives (timeoutMs : Nat) (arrivals : List Arrival) : Prop :=
  ∀ elapsed first later crlfPos,
    netRead arrivals httpClientReadHeadSize timeoutMs =
        (⟨elapsed, .ok first⟩, later) →
      strstr [13, 10] (visible first) = some crlfPos →
      HeaderRoom timeoutMs (first.drop (crlfPos + 2)) later

theorem RoomArrives.of_short (short : r.header.length ≤ 900)
    (delivers : Delivers arrivals r.bytes) : RoomArrives timeoutMs arrivals := by
  intro elapsed first later crlfPos read found
  obtain ⟨_, _, _, rest, again, split, delivered, -⟩ :=
    delivers_first timeoutMs delivers
  rw [read] at again
  cases again
  obtain ⟨rfl, more, begins, splitMore⟩ := first_begins split found
  have dropped : first.drop (r.statusLine.length + 2) = more := by
    rw [begins, ← List.drop_drop, List.drop_left]
    rfl
  have begun : more.length ≤ httpClientReadHeadSize := by
    have brought := length_netRead read
    rw [begins, List.length_append, List.length_cons, List.length_cons]
      at brought
    omega
  rw [dropped]
  exact .of_short short begun delivered splitMore

/-- A call whose first read has the status line comes to the header it has
gathered. -/
theorem recvResponse_reaches (delivers : Delivers arrivals r.bytes)
    (nonempty : 0 < w.responseBuf.length)
    (roomy : RoomArrives timeoutMs arrivals) {text stale : List UInt8}
    (arrives : HeaderArrives timeoutMs arrivals text stale) :
    ∃ (begun rest : List UInt8) (bodyEnd more : Nat) (after : Session),
      text = r.fieldSection ++ begun ∧ after.Receiving ∧
      Delivers after.client.arrivals rest ∧
      r.body = begun ++ rest ∧ bodyEnd + 4 = r.fieldSection.length ∧
      after.client.handle = w.handle ∧
      after.data.responseContentLen = -1 ∧ after.data.isChunked = 0 ∧
      after.data.responseBuf = some w.responseBuf ∧
      (w.responseBuf.length : Int) = after.data.responseBufLen ∧
      after.client.responseCode = atoi (r.statusLine.drop 9) ∧
      stale.length = httpClientReadBufSize ∧
      (r.fieldSection ++ begun).length < stale.length ∧
      ∀ turns, more < turns →
        httpClientRecvResponse turns (w.session arrivals) timeoutMs =
          parseHeaderText turns after
            ⟨headerArray (r.fieldSection ++ begun) stale,
              (r.fieldSection ++ begun).length, bodyEnd⟩ timeoutMs := by
  obtain ⟨elapsed, first, later, crlfPos, behind, read, found, gathered,
    blank, rfl⟩ := arrives
  have room := roomy elapsed first later crlfPos read found
  obtain ⟨_, _, _, rest, again, split, delivered, -⟩ :=
    delivers_first timeoutMs delivers
  rw [read] at again
  cases again
  obtain ⟨rfl, more, begins, splitMore⟩ := first_begins split found
  have fits := firstRead_fits read
  have receiving := (((w.session_receiving arrivals nonempty).afterFirstRead
    timeoutMs).use fits).behindStatusLine (crlf_bound found) fits
  have arrivalsEq := arrivals_behindStatusLine (w.session arrivals) timeoutMs
    first.length first r.statusLine.length
  have readSession : netRead (w.session arrivals).client.arrivals
      httpClientReadHeadSize timeoutMs = (⟨elapsed, .ok first⟩, later) := read
  rw [readSession] at arrivalsEq
  have dropped : first.drop (r.statusLine.length + 2) = more := by
    rw [begins, ← List.drop_drop, List.drop_left]
    rfl
  have run (turns : Nat) : httpClientRecvResponse turns (w.session arrivals)
      timeoutMs = _ := httpClientRecvResponse_header w.connected rfl readSession
        found
  have code : (((w.session arrivals).afterFirstRead timeoutMs).use
      httpClientReadBufSize first.length 1 |>.behindStatusLine first
        r.statusLine.length).client.responseCode =
      atoi (r.statusLine.drop 9) := by
    change atoi (cString ((staleArray first r.statusLine.length).drop 9)) = _
    rw [responseCode_staleArray begins]
  have data : (((w.session arrivals).afterFirstRead timeoutMs).use
      httpClientReadBufSize first.length 1 |>.behindStatusLine first
        r.statusLine.length).data =
      { (w.session arrivals).data with
        isMore := true, responseContentLen := -1, isChunked := 0 } := rfl
  have handle : (((w.session arrivals).afterFirstRead timeoutMs).use
      httpClientReadBufSize first.length 1 |>.behindStatusLine first
        r.statusLine.length).client.handle = w.handle := rfl
  rw [dropped] at gathered run room
  generalize ((Session.afterFirstRead (w.session arrivals) timeoutMs).use
    httpClientReadBufSize first.length 1).behindStatusLine first
      r.statusLine.length = s at *
  have size := length_staleArray r.statusLine.length fits
  generalize staleArray first r.statusLine.length = stale at *
  dsimp only at arrivalsEq
  subst arrivalsEq
  have textFits := (room text behind gathered).1
  obtain ⟨turnsMore, after, received, afterArrivals, afterData, afterCode,
    afterHandle, reaches⟩ := headerLoop_reaches receiving size room gathered
  obtain ⟨left, splitText, deliveredLeft⟩ := gathered.delivers delivered
  have wholeText := splitMore.trans splitText
  have reached := (Response.hasBlankLine_iff wholeText).mp blank
  obtain ⟨begun, rfl, bodySplit⟩ := body_of_split wholeText reached
  obtain ⟨bodyEnd, ended, seen⟩ := r.strstr_fieldSection wholeText
  rw [if_pos reached] at seen
  refine ⟨begun, left, bodyEnd, turnsMore, after, rfl, received,
    afterArrivals ▸ deliveredLeft, bodySplit, ended, afterHandle.trans handle,
    ?_, ?_, ?_, ?_, afterCode.trans code, size, size ▸ textFits,
    fun turns enough => ?_⟩
  · rw [afterData, data]
  · rw [afterData, data]
  · rw [afterData, data]
    rfl
  · rw [afterData, data]
    rfl
  · obtain ⟨extra, rfl⟩ := Nat.exists_eq_add_of_lt enough
    have again := reaches (extra + 1)
    have order : turnsMore + extra + 1 = extra + 1 + turnsMore := by omega
    rw [run, order, again,
      headerLoop_found ((cString_headerArray ..).symm ▸ seen)]
    rfl

/-- A call whose first read lacks the end of the status line gives up. -/
theorem recvResponse_unresolved (delivers : Delivers arrivals r.bytes)
    (missing : ¬StatusLineArrives timeoutMs arrivals) :
    ∃ after : Session,
      after.InBounds ∧ after.client.responseCode = w.responseCode ∧
      after.data.responseContentLen = -1 ∧
      after.data.responseBuf = some w.responseBuf ∧
      ∀ turns, httpClientRecvResponse turns (w.session arrivals) timeoutMs =
        (after, some (.code .errHttpUnresolvedDns)) := by
  obtain ⟨elapsed, first, later, rest, read, split, delivered, nonempty⟩ :=
    delivers_first timeoutMs delivers
  have unseen : strstr [13, 10] (visible first) = none :=
    strstr_eq_none_iff.mpr fun occurs =>
      missing ⟨elapsed, first, later, read, occurs⟩
  have fits := firstRead_fits read
  have within : BufferUse.Within ⟨httpClientReadBufSize, first.length, 1⟩ := by
    refine ⟨Int.one_nonneg, Int.natCast_nonneg _, ?_⟩
    change (first.length : Int) + 1 ≤ (httpClientReadBufSize : Int)
    omega
  have run (turns : Nat) : httpClientRecvResponse turns (w.session arrivals)
      timeoutMs = _ :=
    (httpClientRecvResponse_read w.connected rfl read nonempty).trans
      (httpParseResponseHeader_none _ unseen)
  refine ⟨_, ?_, ?_, ?_, ?_, run⟩
  · intro use mem
    rcases List.mem_append.mp mem with asked | terminated
    · rw [List.mem_singleton.mp asked]
      decide
    · rw [List.mem_singleton.mp terminated]
      exact within
  · rfl
  · rfl
  · rfl

/-- When the status line comes with the first read, some length is read. -/
theorem LengthArrives.exists (delivers : Delivers arrivals r.bytes)
    (arrives : StatusLineArrives timeoutMs arrivals) :
    ∃ length, LengthArrives timeoutMs arrivals length := by
  obtain ⟨elapsed, first, later, read, occurs⟩ := arrives
  obtain ⟨crlfPos, found⟩ :=
    Option.isSome_iff_exists.mp (strstr_isSome_of_occurs occurs)
  obtain ⟨_, _, _, rest, again, split, delivered, -⟩ :=
    delivers_first timeoutMs delivers
  rw [read] at again
  cases again
  obtain ⟨rfl, more, begins, splitMore⟩ := first_begins split found
  have dropped : first.drop (r.statusLine.length + 2) = more := by
    rw [begins, ← List.drop_drop, List.drop_left]
    rfl
  obtain ⟨text, behind, gathered, blank⟩ :=
    Gathered.complete r timeoutMs delivered splitMore
  exact ⟨_, elapsed, first, later, _, text, behind, read, found,
    dropped.symm ▸ gathered, blank, rfl⟩

theorem LengthArrives.statusLine {length : Int}
    (arrives : LengthArrives timeoutMs arrivals length) :
    StatusLineArrives timeoutMs arrivals := by
  obtain ⟨elapsed, first, later, crlfPos, text, rest, read, found, -⟩ := arrives
  exact ⟨elapsed, first, later, read, infix_of_strstr found⟩

end

/-! ## The end of a call -/

/-- What a call ends with: its return value, the code and the length of the
response, and the contents of the response buffer. -/
structure Outcome where
  ret : IoTError
  responseCode : Int
  responseContentLen : Int
  responseBuf : List UInt8

/-- With enough turns of its loops the call ends with the outcome, without
having left a buffer. -/
def Ends (s : Session) (timeoutMs : Nat) (outcome : Outcome) : Prop :=
  ∃ enough, ∀ turns, enough ≤ turns →
    (httpClientRecvData turns s timeoutMs).2 = some outcome.ret ∧
      (httpClientRecvData turns s timeoutMs).1.client.responseCode =
        outcome.responseCode ∧
      (httpClientRecvData turns s timeoutMs).1.data.responseContentLen =
        outcome.responseContentLen ∧
      (httpClientRecvData turns s timeoutMs).1.data.responseBuf =
        some outcome.responseBuf ∧
      (httpClientRecvData turns s timeoutMs).1.InBounds

theorem Ends.unique {s : Session} {timeoutMs : Nat} {first second : Outcome}
    (one : Ends s timeoutMs first) (other : Ends s timeoutMs second) :
    first = second := by
  obtain ⟨enough, ends⟩ := one
  obtain ⟨enough', ends'⟩ := other
  obtain ⟨ret, code, length, contents, -⟩ :=
    ends _ (Nat.le_max_left enough enough')
  obtain ⟨ret', code', length', contents', -⟩ :=
    ends' _ (Nat.le_max_right enough enough')
  cases first
  cases second
  congr
  · exact Option.some.inj (ret.symm.trans ret')
  · exact code.symm.trans code'
  · exact length.symm.trans length'
  · exact Option.some.inj (contents.symm.trans contents')

/-- What `http_client_recv_data` makes of the value below it. -/
def recvRet : HttpReturn → IoTError
  | .code ret => if ret.negative then ret else .successRet
  | .retrieveMoreData => .successRet

theorem httpClientRecvData_of {turns timeoutMs : Nat} {s after : Session}
    {ret : HttpReturn}
    (buffered : s.data.responseBuf.isSome ∧ s.data.responseBufLen ≠ 0)
    (run : httpClientRecvResponse turns s timeoutMs = (after, some ret)) :
    ∃ handle,
      httpClientRecvData turns s timeoutMs =
        ({ after with client := { after.client with handle } },
          some (recvRet ret)) := by
  unfold httpClientRecvData
  rw [if_pos buffered, run]
  cases ret with
  | retrieveMoreData => exact ⟨_, rfl⟩
  | code ret =>
      dsimp only [recvRet]
      split <;> exact ⟨_, rfl⟩

section

variable {r : Response} {timeoutMs : Nat} {arrivals : List Arrival}
  {w : Awaiting}

theorem awaiting_buffered (w : Awaiting) (arrivals : List Arrival)
    (nonempty : 0 < w.responseBuf.length) :
    (w.session arrivals).data.responseBuf.isSome ∧
      (w.session arrivals).data.responseBufLen ≠ 0 :=
  ⟨rfl, Int.natCast_ne_zero.mpr nonempty.ne'⟩

theorem ends_unresolved (delivers : Delivers arrivals r.bytes)
    (nonempty : 0 < w.responseBuf.length)
    (missing : ¬StatusLineArrives timeoutMs arrivals) :
    Ends (w.session arrivals) timeoutMs
      ⟨.errHttpUnresolvedDns, w.responseCode, -1, w.responseBuf⟩ := by
  obtain ⟨after, inBounds, code, length, contents, run⟩ :=
    recvResponse_unresolved (w := w) delivers missing
  refine ⟨0, fun turns _ => ?_⟩
  obtain ⟨handle, same⟩ :=
    httpClientRecvData_of (awaiting_buffered w arrivals nonempty) (run turns)
  rw [same]
  exact ⟨rfl, code, length, contents, inBounds⟩

/-- The outcome of a call that has read a length. -/
def lengthOutcome (r : Response) (w : Awaiting) (length : Int) : Outcome where
  ret := recvRet (responseRet length r.body.length)
  responseCode := atoi (r.statusLine.drop 9)
  responseContentLen := length
  responseBuf := responseContents length r.body w.responseBuf

theorem ends_length (short : r.header.length ≤ 900)
    (delivers : Delivers arrivals r.bytes)
    (room : r.body.length + 1 < w.responseBuf.length) {length : Int}
    (arrives : LengthArrives timeoutMs arrivals length)
    (defined : -1 ≤ length) :
    Ends (w.session arrivals) timeoutMs (lengthOutcome r w length) := by
  obtain ⟨text, stale, header, rfl⟩ := arrives.header
  obtain ⟨begun, rest, bodyEnd, more, after, rfl, receiving, delivered, split,
    ended, -, unread, plain, held, size, code, array, fits, run⟩ :=
    recvResponse_reaches delivers (Nat.zero_lt_of_lt room)
      (.of_short short delivers) header
  obtain ⟨enough, ends⟩ := parseHeaderText_leaves delivered split ended unread
    plain held room size array fits defined
  refine ⟨max enough (more + 1), fun turns reached => ?_⟩
  obtain ⟨ret, leftCode, leftLength, contents⟩ := ends turns (by omega)
  have inBounds :=
    parseHeaderText_inBounds ⟨headerArray (r.fieldSection ++ begun) stale,
        (r.fieldSection ++ begun).length, bodyEnd⟩ receiving plain
      ((length_headerArray fits).trans array)
      (by rw [ended, List.length_append]; exact Nat.le_add_right ..)
      (fits.trans_eq (length_headerArray fits).symm) defined turns timeoutMs
  have same := run turns (by omega)
  obtain ⟨handle, whole⟩ := httpClientRecvData_of
    (awaiting_buffered w arrivals (by omega)) (same.trans (Prod.ext rfl ret))
  rw [whole]
  exact ⟨rfl, leftCode.trans code, leftLength, contents, inBounds⟩

theorem lengthOutcome_ret_ne (r : Response) (w : Awaiting) (length : Int) :
    (lengthOutcome r w length).ret ≠ .errHttpUnresolvedDns := by
  unfold lengthOutcome responseRet bodyRet
  dsimp only
  split
  · decide
  · split <;> decide

theorem recvData_outOfBounds {turns : Nat} {s : Session}
    (buffered : s.data.responseBuf.isSome ∧ s.data.responseBufLen ≠ 0)
    (broken : ¬(httpClientRecvResponse turns s timeoutMs).1.InBounds) :
    ¬(httpClientRecvData turns s timeoutMs).1.InBounds := by
  obtain ⟨handle, whole⟩ : ∃ handle,
      (httpClientRecvData turns s timeoutMs).1 = _ :=
    httpClientRecvData_session buffered
  rw [whole]
  exact broken

theorem not_ends_below (short : r.header.length ≤ 900)
    (delivers : Delivers arrivals r.bytes)
    (room : r.body.length + 1 < w.responseBuf.length) {length : Int}
    (arrives : LengthArrives timeoutMs arrivals length)
    (below : length < -1) (outcome : Outcome) :
    ¬Ends (w.session arrivals) timeoutMs outcome := by
  obtain ⟨text, stale, header, rfl⟩ := arrives.header
  obtain ⟨begun, rest, bodyEnd, more, after, rfl, receiving, delivered, split,
    ended, -, unread, plain, held, size, code, array, fits, run⟩ :=
    recvResponse_reaches delivers (Nat.zero_lt_of_lt room)
      (.of_short short delivers) header
  rintro ⟨enough, ends⟩
  have reached : enough ≤ max enough more + 1 :=
    Nat.le_succ_of_le (Nat.le_max_left ..)
  have behind : more < max enough more + 1 :=
    Nat.lt_succ_of_le (Nat.le_max_right ..)
  have inBounds := (ends _ reached).2.2.2.2
  have same := run _ behind
  have large : 0 < after.data.responseBufLen := by
    rw [← size]
    omega
  have undefined : (declaredLength
      (headerArray (r.fieldSection ++ begun) stale)).getD (-1) < -1 := below
  have broken :=
    parseHeaderText_outOfBounds ⟨headerArray (r.fieldSection ++ begun) stale,
        (r.fieldSection ++ begun).length, bodyEnd⟩ large undefined
      (max enough more) timeoutMs
  rw [← same] at broken
  have nonempty : 0 < w.responseBuf.length := by omega
  exact recvData_outOfBounds (awaiting_buffered w arrivals nonempty) broken
    inBounds

/-- A call whose first read has the status line does not end as one whose first
read lacks it. -/
theorem not_alike (short : r.header.length ≤ 900)
    (room : r.body.length + 1 < w.responseBuf.length)
    {first second : List Arrival} (delivers : Delivers first r.bytes)
    (delivers' : Delivers second r.bytes)
    (arrives : StatusLineArrives timeoutMs first)
    (missing : ¬StatusLineArrives timeoutMs second) (outcome : Outcome)
    (ends : Ends (w.session first) timeoutMs outcome) :
    ¬Ends (w.session second) timeoutMs outcome := by
  intro ends'
  obtain ⟨length, read⟩ := LengthArrives.exists delivers arrives
  have defined : -1 ≤ length := by
    by_contra below
    exact not_ends_below short delivers room read (not_le.mp below) _ ends
  have same := ends.unique (ends_length short delivers room read defined)
  have same' := ends'.unique (ends_unresolved delivers' (by omega) missing)
  have rets := congrArg Outcome.ret (same.symm.trans same')
  exact lengthOutcome_ret_ne r w length rets

/-- Two ways of splitting a well-formed response into reads end a call alike
exactly when the status line comes with neither first read, or when the same
length is read in both, and it is not below −1. -/
theorem recvData_segmentation_iff (r : Response)
    (short : r.header.length ≤ 900) (w : Awaiting)
    (room : r.body.length < w.responseBuf.length - 1) (timeoutMs : Nat)
    (first second : List Arrival) (delivers : Delivers first r.bytes)
    (delivers' : Delivers second r.bytes) :
    (∃ outcome, Ends (w.session first) timeoutMs outcome ∧
        Ends (w.session second) timeoutMs outcome) ↔
      (¬StatusLineArrives timeoutMs first ∧
        ¬StatusLineArrives timeoutMs second) ∨
      ∃ length, -1 ≤ length ∧ LengthArrives timeoutMs first length ∧
        LengthArrives timeoutMs second length := by
  have nonempty : 0 < w.responseBuf.length := by omega
  have large : r.body.length + 1 < w.responseBuf.length := by omega
  constructor
  · rintro ⟨outcome, ends, ends'⟩
    by_cases arrives : StatusLineArrives timeoutMs first
    · by_cases arrives' : StatusLineArrives timeoutMs second
      · obtain ⟨length, read⟩ := LengthArrives.exists delivers arrives
        obtain ⟨length', read'⟩ := LengthArrives.exists delivers' arrives'
        have defined : -1 ≤ length := by
          by_contra below
          exact not_ends_below short delivers large read (not_le.mp below) _
            ends
        have defined' : -1 ≤ length' := by
          by_contra below
          exact not_ends_below short delivers' large read' (not_le.mp below) _
            ends'
        have same := ends.unique
          (ends_length short delivers large read defined)
        have same' := ends'.unique
          (ends_length short delivers' large read' defined')
        have lengths : length = length' :=
          congrArg Outcome.responseContentLen (same.symm.trans same')
        exact .inr ⟨length, defined, read, lengths ▸ read'⟩
      · exact absurd ends' (not_alike short large delivers delivers' arrives
          arrives' outcome ends)
    · by_cases arrives' : StatusLineArrives timeoutMs second
      · exact absurd ends (not_alike short large delivers' delivers arrives'
          arrives outcome ends')
      · exact .inl ⟨arrives, arrives'⟩
  · rintro (⟨missing, missing'⟩ | ⟨length, defined, read, read'⟩)
    · exact ⟨_, ends_unresolved delivers nonempty missing,
        ends_unresolved delivers' nonempty missing'⟩
    · exact ⟨_, ends_length short delivers large read defined,
        ends_length short delivers' large read' defined⟩

end

/-- The name of the field that announces the length. -/
theorem contentLength_ne_nil : ascii "Content-Length" ≠ [] := by decide +kernel

theorem contentLength_text :
    ∀ byte ∈ ascii "Content-Length", IsText byte := by
  decide +kernel

theorem contentLength_lower :
    (ascii "Content-Length").map toLower = ascii "content-length" := by
  decide +kernel

/-- One blank before the number and none behind it. -/
theorem blank_before :
    ∀ byte ∈ ([32] ++ [] : List UInt8), byte = 32 ∨ byte = 9 := by
  decide

/-- A small response. -/
def greeting : Response where
  statusCode := ascii "200"
  reason := ascii "OK"
  fields :=
    [{ name := ascii "Content-Length"
       value := ascii " 2"
       named := contentLength_ne_nil
       nameText := contentLength_text
       valueText := by decide +kernel }]
  body := ascii "hi"
  threeDigits := by decide +kernel
  reasonText := by decide +kernel
  announced :=
    ⟨_, List.mem_singleton_self _, contentLength_lower, [32], [50], [], rfl,
      blank_before, by decide, by decide +kernel, rfl⟩

/-- A client with a buffer of eight bytes. -/
def awaitingGreeting : Awaiting where
  handle := 1
  responseCode := 0
  clock := 0
  isChunked := 0
  retrieveLen := 0
  responseContentLen := 0
  responseReceivedLen := 0
  responseBuf := List.replicate 8 0
  connected := Nat.one_ne_zero
  small := by decide

/-- The small response split behind a number of bytes. -/
def greetingSplit (count : Nat) : List Arrival :=
  [⟨0, .ok (greeting.bytes.take count)⟩, ⟨0, .ok (greeting.bytes.drop count)⟩]

theorem greetingSplit_delivers {count : Nat}
    (begun : greeting.bytes.take count ≠ [])
    (left : greeting.bytes.drop count ≠ []) :
    Delivers (greetingSplit count) greeting.bytes := by
  have delivers := Delivers.cons 0 begun (.cons 0 left .nil)
  rw [List.append_nil, List.take_append_drop] at delivers
  exact delivers

theorem read_greetingSplit {count timeoutMs : Nat}
    (short : (greeting.bytes.take count).length ≤ httpClientReadHeadSize) :
    netRead (greetingSplit count) httpClientReadHeadSize timeoutMs =
      (⟨0, .ok (greeting.bytes.take count)⟩,
        [⟨0, .ok (greeting.bytes.drop count)⟩]) :=
  if_pos short

theorem recvData_segmentation_iff_greeting :
    (∃ outcome,
        Ends (awaitingGreeting.session (greetingSplit 20)) 5000 outcome ∧
        Ends (awaitingGreeting.session (greetingSplit 30)) 5000 outcome) ↔
      (¬StatusLineArrives 5000 (greetingSplit 20) ∧
        ¬StatusLineArrives 5000 (greetingSplit 30)) ∨
      ∃ length, -1 ≤ length ∧
        LengthArrives 5000 (greetingSplit 20) length ∧
        LengthArrives 5000 (greetingSplit 30) length :=
  recvData_segmentation_iff greeting (by decide) awaitingGreeting (by decide)
    5000 _ _ (greetingSplit_delivers (by decide) (by decide))
    (greetingSplit_delivers (by decide) (by decide))

/-- The small response ends otherwise when its status line is split. -/
theorem greeting_segmentation_broken :
    Delivers (greetingSplit 20) greeting.bytes ∧
      Delivers (greetingSplit 5) greeting.bytes ∧
      ¬∃ outcome,
        Ends (awaitingGreeting.session (greetingSplit 20)) 5000 outcome ∧
        Ends (awaitingGreeting.session (greetingSplit 5)) 5000 outcome := by
  have delivers : Delivers (greetingSplit 20) greeting.bytes :=
    greetingSplit_delivers (by decide) (by decide)
  have delivers' : Delivers (greetingSplit 5) greeting.bytes :=
    greetingSplit_delivers (by decide) (by decide)
  refine ⟨delivers, delivers', ?_⟩
  rintro ⟨outcome, ends, ends'⟩
  refine not_alike (by decide) (by decide) delivers delivers' ?_ ?_ outcome ends
    ends'
  · exact ⟨_, _, _, read_greetingSplit (by decide), by decide +kernel⟩
  · rintro ⟨elapsed, first, later, read, occurs⟩
    rw [read_greetingSplit (by decide)] at read
    cases read
    exact absurd occurs (by decide +kernel)

end Http
end UIoT
