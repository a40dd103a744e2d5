import UIoT.Http.Request
import UIoT.Http.Url

/-!
# Requests with data

`http_client_common` connects where there is no connection, with three attempts
at most, and sends a request: its header and, for `POST` and `PUT`, the data
behind it.  The network is the one of a build with TLS, where a handle of zero
is no connection.
-/

namespace UIoT
namespace Http

/-! ## The functions -/

/-- What the other side answers: the handle each attempt to connect ends with,
and what each write takes. -/
structure Peer where
  connect : Nat → Nat
  write : NetWrite

/-- The network of a client: its handle, how often it was to be connected, and
what was given to it. -/
structure Link where
  handle : Nat
  attempts : Nat
  offered : List (List UInt8)

/-- The network of a client that has just been set to zero. -/
def Link.new : Link := ⟨0, 0, []⟩

/-- The arguments of `http_client_common`, the header of the client and, of its
data, what is sent. -/
structure HttpPost where
  url : CString
  method : HttpRequestMethod
  header : Option CString
  postBuf : Option (List UInt8)
  postBufLen : Int32
  postContentType : Option CString

/-- What is sent to a host under a path. -/
def HttpPost.request (post : HttpPost) (host path : CString) : Request where
  method := post.method
  host := host
  path := path
  sizeFetched := 0
  rangeLen := 0
  header := post.header
  postBuf := post.postBuf
  postBufLen := post.postBufLen
  postContentType := post.postContentType

/-- The loop of `_http_connect`, whose answer is always `SUCCESS_RET`. -/
def httpConnect (peer : Peer) : (turns : Nat) → Link → Link
  | 0, link => link
  | turns + 1, link =>
      let handle := peer.connect link.attempts
      let link := { link with handle, attempts := link.attempts + 1 }
      if handle = 0 then httpConnect peer turns link else link

/-- `retry_max` -/
def retryMax : Nat := 3

/-- `http_client_connect` -/
def httpClientConnect (peer : Peer) (link : Link) (url : CString) :
    Link × IoTError :=
  if link.handle ≠ 0 then (link, .errHttpConnError)
  else
    let array := List.replicate httpClientMaxUrlLen 0
    match utilsParseUrl url array array with
    | (.successRet, _, _, _) => (httpConnect peer retryMax link, .successRet)
    | (rc, _, _, _) => (link, rc)

/-- `_http_send_user_data`, with no outcome where the length is not one of the
data. -/
def httpSendUserData (peer : Peer) (link : Link) (post : HttpPost) :
    Option (Link × IoTError) :=
  match post.postBuf with
  | none => some (link, .successRet)
  | some data =>
      let length := post.postBufLen.toInt
      if length = 0 then some (link, .successRet)
      else if length < 0 ∨ data.length < length.toNat then none
      else
        let bytes := data.take length.toNat
        let answer := peer.write link.offered.length bytes
        let link := { link with offered := link.offered ++ [bytes] }
        match answer with
        | .error _ => some (link, .errHttpConnError)
        | .ok 0 => some (link, .errHttpClosed)
        | .ok (_ + 1) => some (link, .successRet)

/-- `_http_send_request` -/
def httpSendRequest (peer : Peer) (link : Link) (post : HttpPost) :
    Option (Link × IoTError) := do
  if link.handle = 0 then some (link, .failureRet)
  else
    let array := List.replicate httpClientMaxUrlLen 0
    match utilsParseUrl post.url array array with
    | (.successRet, host, path, _) =>
        let request :=
          post.request (CString.ofArray host) (CString.ofArray path)
        let write := fun call => peer.write (link.offered.length + call)
        let (t, ret) ← httpSendHeader write request
        let link := { link with offered := link.offered ++ t.offered }
        if ret ≠ .successRet then some (link, .errHttpConnError)
        else if post.method = .httpPost ∨ post.method = .httpPut then
          let (link, ret) ← httpSendUserData peer link post
          some (link, if ret.negative then .errHttpConnError else ret)
        else some (link, ret)
    | (rc, _, _, _) => some (link, rc)

/-- `http_client_common` -/
def httpClientCommon (peer : Peer) (link : Link) (post : HttpPost) :
    Option (Link × IoTError) := do
  let (link, rc) :=
    if link.handle = 0 then httpClientConnect peer link post.url
    else (link, .successRet)
  if rc ≠ .successRet then some (link, rc)
  else
    let (link, rc) ← httpSendRequest peer link post
    if rc ≠ .successRet then some ({ link with handle := 0 }, rc)
    else some (link, .successRet)

/-! ## Connecting -/

/-- One of the attempts is answered. -/
def Peer.Answers (peer : Peer) : Prop :=
  ∃ attempt < retryMax, peer.connect attempt ≠ 0

/-- Attempts from one on give a handle where one of them is answered, and leave
none where none is; nothing is sent. -/
theorem httpConnect_outcome (peer : Peer) (turns : Nat) {link : Link}
    (closed : link.handle = 0) :
    (httpConnect peer turns link).offered = link.offered ∧
      ((httpConnect peer turns link).handle ≠ 0 ↔
        ∃ attempt < turns, peer.connect (link.attempts + attempt) ≠ 0) := by
  induction turns generalizing link with
  | zero =>
      refine ⟨rfl, fun handle => absurd closed handle, ?_⟩
      rintro ⟨attempt, none, -⟩
      exact absurd none (Nat.not_lt_zero _)
  | succ turns inductionHypothesis =>
      rw [httpConnect]
      by_cases failed : peer.connect link.attempts = 0
      · rw [if_pos failed]
        let next : Link := { link with
          handle := peer.connect link.attempts
          attempts := link.attempts + 1 }
        have closed : next.handle = 0 := failed
        obtain ⟨offered, handle⟩ := inductionHypothesis closed
        refine ⟨offered, handle.trans ?_⟩
        constructor
        · rintro ⟨attempt, small, answered⟩
          refine ⟨attempt + 1, Nat.succ_lt_succ small, ?_⟩
          rwa [Nat.add_assoc, Nat.add_comm 1] at answered
        · rintro ⟨attempt, small, answered⟩
          cases attempt with
          | zero => exact absurd failed answered
          | succ attempt =>
              refine ⟨attempt, Nat.lt_of_succ_lt_succ small, ?_⟩
              rwa [← Nat.add_assoc, Nat.add_right_comm] at answered
      · rw [if_neg failed]
        exact ⟨rfl, fun _ => ⟨0, Nat.succ_pos _, failed⟩, fun _ => failed⟩

/-- A new client has a handle after its attempts if one of them is answered. -/
theorem httpConnect_new (peer : Peer) :
    (httpConnect peer retryMax .new).offered = [] ∧
      ((httpConnect peer retryMax .new).handle ≠ 0 ↔ peer.Answers) := by
  have closed : Link.new.handle = 0 := rfl
  obtain ⟨offered, handle⟩ := httpConnect_outcome peer retryMax closed
  refine ⟨offered, handle.trans ?_⟩
  have from_zero (attempt : Nat) : Link.new.attempts + attempt = attempt :=
    Nat.zero_add attempt
  simp only [from_zero]
  exact Iff.rfl

/-! ## Sending -/

/-- The URL of a post has the host and the path. -/
def HttpPost.Addressed (post : HttpPost) (host path : CString) : Prop :=
  let array := List.replicate httpClientMaxUrlLen 0
  ∃ hostArray pathArray uses,
    utilsParseUrl post.url array array =
        (.successRet, hostArray, pathArray, uses) ∧
      CString.ofArray hostArray = host ∧ CString.ofArray pathArray = path

/-- A URL whose parts are shorter than their arrays has them for host and
path. -/
theorem HttpPost.addressed_of_parts {post : HttpPost} {host path : CString}
    {tail : List UInt8} (short : post.url.bytes.length < 2 ^ 32)
    (parts : urlParts post.url.bytes = some (host.bytes, tail))
    (onPath : pathText tail = path.bytes) (fits : PartsShort post.url.bytes) :
    post.Addressed host path := by
  let array : List UInt8 := List.replicate httpClientMaxUrlLen 0
  have found := utilsParseUrl_of_parts short parts array array
  have parsed := (urlParsed_iff short).mpr fits
  dsimp only [UrlParsed] at parsed found
  rw [found] at parsed
  dsimp only at parsed
  rcases parsed with failed | ⟨-, hostText, tail', parts', onHost, behind⟩
  · exact absurd rfl failed
  rw [parts] at parts'
  obtain ⟨rfl, rfl⟩ := Prod.mk.inj (Option.some.inj parts')
  exact ⟨_, _, _, found, CString.ext onHost,
    CString.ext (behind.trans onPath)⟩

/-- A post has data to send, of a length that is an `int`, behind a header whose
lines are shorter than their arrays. -/
structure HttpPost.Printable (post : HttpPost) (host path : CString)
    (data : List UInt8) : Prop where
  method : post.method = .httpPost ∨ post.method = .httpPut
  addressed : post.Addressed host path
  postBuf : post.postBuf = some data
  postBufLen : post.postBufLen.toInt = data.length
  nonempty : data ≠ []
  lines : (post.request host path).requestLines.length <
    httpClientRequestBufSize
  header : (post.request host path).userHeader.length < 2 ^ 31
  type : (post.request host path).TypeFits

section
variable {peer : Peer} (accepts : AcceptsAll peer.write) {post : HttpPost}
  {host path : CString} {data : List UInt8}
  (printable : post.Printable host path data)
include accepts printable

/-- Data of the length that is given are sent as they are. -/
theorem httpSendUserData_eq (link : Link) :
    httpSendUserData peer link post =
      some ({ link with offered := link.offered ++ [data] }, .successRet) := by
  obtain ⟨first, rest, nonempty⟩ :=
    List.exists_cons_of_ne_nil printable.nonempty
  unfold httpSendUserData
  rw [printable.postBuf, printable.postBufLen]
  dsimp only
  rw [if_neg (by rw [nonempty]; exact Int.natCast_ne_zero.mpr (by simp)),
    Int.toNat_natCast, if_neg (by omega), List.take_length, accepts, nonempty]
  rfl

/-- Over a network that takes all bytes the header is sent and the data behind
it, unless the header fills the buffer so that nothing is left for the last
write, which is taken for an error. -/
theorem httpSendRequest_outcome {link : Link} (connected : link.handle ≠ 0) :
    let text := (post.request host path).text
    ∃ offered, httpSendRequest peer link post =
        some ({ link with offered },
          if text.length % httpClientSendBufSize = 0 then .errHttpConnError
          else .successRet) ∧
      offered.flatten = link.offered.flatten ++ text ++
        if text.length % httpClientSendBufSize = 0 then [] else data := by
  intro text
  obtain ⟨hostArray, pathArray, uses, parsed, rfl, rfl⟩ := printable.addressed
  let request := post.request (CString.ofArray hostArray)
    (CString.ofArray pathArray)
  have shifted : AcceptsAll fun call =>
      peer.write (link.offered.length + call) := fun call bytes =>
    accepts _ bytes
  rcases httpSendHeader_outcome shifted request with
    ⟨-, long⟩ | ⟨t, front, sent, result, flat, parts, -, whole⟩
  · exact absurd printable.header (Nat.not_lt.mpr long)
  obtain rfl := whole.mpr printable.header
  have range : request.RangeFits := fun ranged => absurd rfl ranged
  have same : sent = text := by
    rw [parts, printedLines_eq range, printedPost_eq printable.type,
      List.take_of_length_le (Nat.le_sub_one_of_lt printable.lines)]
    rfl
  rw [same] at result flat
  unfold httpSendRequest
  rw [if_neg connected]
  dsimp only
  rw [parsed]
  dsimp only
  change ∃ offered, (httpSendHeader _ request).bind _ = _ ∧ _
  rw [result, Option.bind_some]
  dsimp only
  by_cases even : text.length % httpClientSendBufSize = 0
  · rw [if_pos even, if_pos even, if_pos even, if_pos (by decide)]
    refine ⟨_, rfl, ?_⟩
    rw [List.flatten_append, flat, List.append_nil]
  · rw [if_neg even, if_neg even, if_neg even, if_neg (not_not_intro rfl),
      if_pos printable.method,
      httpSendUserData_eq accepts printable]
    refine ⟨_, rfl, ?_⟩
    rw [List.flatten_append, List.flatten_append, List.flatten_singleton, flat]

/-- A new client that is connected sends the header and the data. -/
theorem httpClientCommon_outcome (answers : peer.Answers) :
    let text := (post.request host path).text
    ∃ link, httpClientCommon peer .new post =
        some (link,
          if text.length % httpClientSendBufSize = 0 then .errHttpConnError
          else .successRet) ∧
      link.offered.flatten = text ++
        if text.length % httpClientSendBufSize = 0 then [] else data := by
  intro text
  obtain ⟨nothing, connected⟩ := httpConnect_new peer
  obtain ⟨offered, result, flat⟩ := httpSendRequest_outcome accepts printable
    (connected.mpr answers)
  obtain ⟨hostArray, pathArray, uses, parsed, -, -⟩ := printable.addressed
  have closed : Link.new.handle = 0 := rfl
  have connects : httpClientConnect peer .new post.url =
      (httpConnect peer retryMax .new, .successRet) := by
    unfold httpClientConnect
    rw [if_neg (not_not_intro closed)]
    dsimp only
    rw [parsed]
  unfold httpClientCommon
  rw [if_pos closed, connects]
  dsimp only
  rw [if_neg (not_not_intro rfl), result, Option.bind_eq_bind,
    Option.bind_some]
  rw [nothing, List.flatten_nil, List.nil_append] at flat
  dsimp only
  by_cases even : text.length % httpClientSendBufSize = 0
  · rw [if_pos even, if_pos even, if_pos (by decide)]
    rw [if_pos even] at flat
    exact ⟨_, rfl, flat⟩
  · rw [if_neg even, if_neg even, if_neg (not_not_intro rfl)]
    rw [if_neg even] at flat
    exact ⟨_, rfl, flat⟩

end

end Http
end UIoT
