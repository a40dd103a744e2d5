import UIoT.Http.Token
import UIoT.Json.Parser
import UIoT.Json.NameValue
import UIoT.Library.Heap
import UIoT.Library.Machine

/-!
# The calls of the HTTP client and their memory

`http_client.c` and `http_upload_file.c`: each call allocates its client, the
data of the client and their buffers, posts a request and takes values out of
the response.  What the exchange of the request and the response comes to is a
parameter; every block and every open file is accounted for.
-/

namespace UIoT
namespace Http

open Json (liteJsonValueOf)
open Shadow (halSnprintf)

/-! ## What a call works with -/

/-- What comes of `http_client_common` and `http_client_recv_data`: an error of
the one or the other, or what is in the response buffer. -/
inductive Answer
  | unsent (ret : IoTError)
  | unreceived (ret : IoTError)
  | received (responseBuf : List UInt8)

/-- What the surroundings of a call decide: which of its allocations are
granted, the file it is about and what its exchange comes to. -/
structure Surroundings where
  granted : Nat → Bool
  file : Option (List UInt8)
  reopened : Bool
  exchange : HttpPost → Answer

/-- What a call returns and what it writes to the memory of its caller. -/
structure CallOutcome where
  ret : IoTError
  written : List Memory

/-- Release blocks and return. -/
def leave (ret : IoTError) (written : List Memory) (blocks : List Nat)
    (h : Heap) : Option (CallOutcome × Heap) :=
  (h.freeAll (blocks.map some)).map fun h => (⟨ret, written⟩, h)

/-- Work with a value of a document, where there is one and a copy of it can be
allocated.  The copy is a block of its own and released behind it. -/
def withValue {ρ : Type} (granted : Bool) (key : List UInt8)
    (document : List UInt8) (h : Heap) (missing : Heap → Option ρ)
    (found : List UInt8 → Heap → Option ρ) : Option ρ :=
  match liteJsonValueOf key document with
  | none => missing h
  | some value =>
      h.claim granted missing fun copy h =>
        (h.free (some copy)).bind (found value)

/-- `strncpy` of a value and the terminator the code writes. -/
def copyOut (out : Memory) (value : List UInt8) : Memory :=
  (out.write 0 value).write (value.length + 1) [0]

/-! ## The calls -/

/-- `IOT_HTTP_Get_Token` -/
def iotHttpGetToken (env : Surroundings)
    (productSn deviceSn deviceSecret : CString) (token : Memory) (h : Heap) :
    Option (CallOutcome × Heap) :=
  let giveUp := leave .failureRet [token]
  h.claim (env.granted 0) (giveUp []) fun client h =>
  h.claim (env.granted 1) (giveUp [client]) fun data h =>
  h.claim (env.granted 2) (giveUp [client, data]) fun responseBuf h =>
  h.claim (env.granted 3) (giveUp [client, responseBuf, data]) fun postBuf h =>
  h.claim (env.granted 4) (giveUp [client, responseBuf, postBuf, data])
    fun header h =>
  let done := fun ret token =>
    leave ret [token] [header, client, responseBuf, postBuf, data]
  match env.exchange (tokenPost productSn deviceSn deviceSecret) with
  | .unsent ret => done ret token h
  | .unreceived ret => done ret token h
  | .received response =>
      withValue (env.granted 5) (ascii "Token") response h
        (fun h => withValue (env.granted 6) (ascii "Message") response h
          (done .successRet token) fun _ => done .successRet token)
        fun value => done .successRet (copyOut token value)

/-- The URL of a topic. -/
def topicUrl (topic : CString) : CString :=
  printedInto 256
    (ascii "https://http-cn-sh2.iot.ucloud.cn/topic/" ++ topic.bytes)

/-- What `IOT_HTTP_Publish` gives to `http_client_common`. -/
def publishPost (token topic data : CString) : HttpPost :=
  let postBuf := printedInto httpBufSize data.bytes
  { url := topicUrl topic
    method := .httpPost
    header := some (printedInto httpBufSize
      (ascii "Password: " ++ token.bytes ++
        ascii "\r\nContent-Type: application/octet-stream\r\nbody: " ++
        postBuf.bytes ++ ascii "\r\n"))
    postBuf := some postBuf.bytes
    postBufLen := Int32.ofNat postBuf.bytes.length
    postContentType := some ⟨ascii "application/octet-stream", by decide⟩ }

/-- `IOT_HTTP_Publish`.  Without memory for the URL nothing is posted; a request
that cannot be sent leaves the URL allocated. -/
def iotHttpPublish (env : Surroundings) (token topic data : CString)
    (h : Heap) : Option (CallOutcome × Heap) :=
  let giveUp := leave .failureRet []
  h.claim (env.granted 0) (giveUp []) fun client h =>
  h.claim (env.granted 1) (giveUp [client]) fun clientData h =>
  h.claim (env.granted 2) (giveUp [client, clientData]) fun responseBuf h =>
  h.claim (env.granted 3) (giveUp [client, responseBuf, clientData])
    fun postBuf h =>
  h.claim (env.granted 4) (giveUp [client, responseBuf, postBuf, clientData])
    fun header h =>
  let done := fun ret => leave ret []
    [header, client, responseBuf, postBuf, clientData]
  h.claim (env.granted 5) (done .successRet) fun url h =>
  match env.exchange (publishPost token topic data) with
  | .unsent ret => done ret h
  | .unreceived ret => (h.free (some url)).bind (done ret)
  | .received response =>
      (h.free (some url)).bind fun h =>
        withValue (env.granted 6) (ascii "Message") response h
          (done .successRet) fun _ => done .successRet

/-- `calc_file_len`: the file is closed again.  From `2 ^ 31` bytes on the
length can be negative. -/
def calcFileLen (file : Option (List UInt8)) : Int :=
  Int.bmod ((file.map List.length).getD 0) (2 ^ 32)

/-- `UIOT_UPLOAD_FILE_URL` -/
def uiotUploadFileUrl : CString :=
  ⟨ascii "https://file-cn-sh2.iot.ucloud.cn/api/v1/url", by decide⟩

/-- What `IOT_GET_URL_AND_AUTH` gives to `http_client_common`. -/
def uploadPost (productSn deviceSn deviceSecret filePath md5 : CString)
    (fileLen : Int) : HttpPost :=
  let postBuf := printedInto httpBufSize
    (ascii "\x7b\"ProductSN\":\"" ++ productSn.bytes ++
      ascii "\",\"DeviceSN\":\"" ++ deviceSn.bytes ++
      ascii "\",\"FileName\":\"" ++ filePath.bytes ++
      ascii "\",\"FileSize\":" ++ decimal fileLen ++
      ascii ",\"MD5\":\"" ++ md5.bytes ++
      ascii "\",\"Content-Type\":\"plain/text\"\x7d")
  let mac := macOutputChar postBuf deviceSecret
  { url := uiotUploadFileUrl
    method := .httpPost
    header := some (printedInto httpBufSize
      (ascii "Content-Type: application/json\r\nAuthorization:" ++ mac.bytes ++
        ascii "\r\n"))
    postBuf := some postBuf.bytes
    postBufLen := Int32.ofNat postBuf.bytes.length
    postContentType := some applicationJson }

/-- `IOT_GET_URL_AND_AUTH` -/
def iotGetUrlAndAuth (env : Surroundings)
    (productSn deviceSn deviceSecret filePath md5 : CString)
    (authorization putUrl : Memory) (h : Heap) : Option (CallOutcome × Heap) :=
  let giveUp := leave .failureRet [authorization, putUrl]
  h.claim (env.granted 0) (giveUp []) fun client h =>
  h.claim (env.granted 1) (giveUp [client]) fun data h =>
  h.claim (env.granted 2) (giveUp [client, data]) fun responseBuf h =>
  h.claim (env.granted 3) (giveUp [client, responseBuf, data]) fun postBuf h =>
  if calcFileLen env.file = 0 then
    leave .errParamInvalid [authorization, putUrl]
      [client, responseBuf, postBuf, data] h
  else
    h.claim (env.granted 4) (giveUp [client, responseBuf, postBuf, data])
      fun header h =>
    let done := fun ret authorization putUrl =>
      leave ret [authorization, putUrl]
        [header, client, responseBuf, postBuf, data]
    match env.exchange (uploadPost productSn deviceSn deviceSecret filePath md5
      (calcFileLen env.file)) with
    | .unsent ret => done ret authorization putUrl h
    | .unreceived ret => done ret authorization putUrl h
    | .received response =>
        withValue (env.granted 5) (ascii "Authorization") response h
          (done .successRet authorization putUrl) fun auth h =>
        withValue (env.granted 6) (ascii "URL") response h
          (done .successRet (copyOut authorization auth) putUrl) fun url =>
        done .successRet (copyOut authorization auth) (copyOut putUrl url)

/-- What `IOT_HTTP_UPLOAD_FILE` gives to `http_client_common`. -/
def filePost (md5 authorization url : CString) (content : List UInt8) :
    HttpPost where
  url := url
  method := .httpPut
  header := some (printedInto httpBufSize
    (ascii "Authorization:" ++ authorization.bytes ++
      ascii "\r\nContent-Type:plain/text\r\nContent-MD5:" ++ md5.bytes ++
      ascii "\r\n"))
  postBuf := some content
  postBufLen := Int32.ofNat content.length
  postContentType := some ⟨ascii "plain/text", by decide⟩

/-- `IOT_HTTP_UPLOAD_FILE`.  Without memory for the response or the header it
goes on with a null pointer, which has no outcome: it checks `http_data_put`
again.  With a negative length it has none either, once there is a buffer to
fill or to read into.  The open file is accounted for like a block. -/
def iotHttpUploadFile (env : Surroundings) (md5 authorization url : CString)
    (h : Heap) : Option (CallOutcome × Heap) :=
  let giveUp := leave .failureRet []
  h.claim (env.granted 0) (giveUp []) fun client h =>
  h.claim (env.granted 1) (giveUp [client]) fun data h =>
  h.claim (env.granted 2) (fun _ => none) fun responseBuf h =>
  h.claim (env.granted 3) (fun _ => none) fun header h =>
  let fileLen := calcFileLen env.file
  if fileLen = 0 then
    leave .errParamInvalid [] [responseBuf, header, client, data] h
  else
    h.claim (env.granted 4) (giveUp [responseBuf, header, client, data])
      fun postBuf h =>
    -- `memset` fills `file_len + 1` bytes, as a `size_t`
    if fileLen < -1 then none
    else
      let done := fun ret =>
        leave ret [] [postBuf, responseBuf, data, header, client]
      h.claim env.reopened (done .errParamInvalid) fun fp h =>
      -- `fread` reads up to `file_len` bytes, and a terminator follows
      if fileLen < 0 then none
      else
        let content := (env.file.getD []).take fileLen.toNat
        match env.exchange (filePost md5 authorization url content) with
        | .unsent ret => (h.free (some fp)).bind (done ret)
        | .unreceived ret => (h.free (some fp)).bind (done ret)
        | .received _ => (h.free (some fp)).bind (done .successRet)

/-! ## Accounts -/

/-- The call returns, and it leaves so many of its blocks behind. -/
def Accounted (start : Heap) (count : Nat)
    (result : Option (CallOutcome × Heap)) : Prop :=
  ∃ outcome h leaked, result = some (outcome, h) ∧
    start.Owns leaked h ∧ leaked.length = count

/-- What a call leaves behind is what it owns and does not release. -/
theorem leave_accounted {start h : Heap} {owned blocks : List Nat}
    (owns : start.Owns owned h) (kept : List Nat)
    (all : ∀ block, (blocks ++ kept).count block = owned.count block)
    (ret : IoTError) (written : List Memory) :
    Accounted start kept.length (leave ret written blocks h) := by
  have pointers : (blocks.map some).reduceOption = blocks := by
    simp [List.reduceOption, List.filterMap_map]
  have perm : ((blocks.map some).reduceOption ++ kept).Perm owned := by
    rw [pointers]
    exact List.perm_iff_count.mpr all
  obtain ⟨h', freed, owns'⟩ := owns.freeAll perm
  exact ⟨⟨ret, written⟩, h', kept, by rw [leave, freed]; rfl, owns', rfl⟩

/-- Working with a value leaves no block of its own. -/
theorem withValue_accounted {start h : Heap} {owned : List Nat} {count : Nat}
    {missing : Heap → Option (CallOutcome × Heap)}
    {found : List UInt8 → Heap → Option (CallOutcome × Heap)}
    (owns : start.Owns owned h) (granted : Bool) (key document : List UInt8)
    (without : Accounted start count (missing h))
    (with_ : ∀ value h', start.Owns owned h' →
      Accounted start count (found value h')) :
    Accounted start count (withValue granted key document h missing found) := by
  unfold withValue
  cases liteJsonValueOf key document with
  | none => exact without
  | some value =>
      refine owns.claim (fun _ => without) fun _ copy h copied => ?_
      obtain ⟨h', freed, owns'⟩ := copied.free List.mem_cons_self
      rw [List.erase_cons_head] at owns'
      rw [freed]
      exact with_ value h' owns'

/-! ## The accounts of the calls

Each allocation that is not granted is an exit of its own, at which the blocks
owned so far are released in the order the source has. -/

/-- A call for a token leaves nothing behind. -/
theorem iotHttpGetToken_accounted (env : Surroundings)
    (productSn deviceSn deviceSecret : CString) (token : Memory)
    (start : Heap) :
    Accounted start 0
      (iotHttpGetToken env productSn deviceSn deviceSecret token start) := by
  unfold iotHttpGetToken
  refine (Heap.Owns.refl start).claim
    (fun _ => leave_accounted (.refl _) [] (fun _ => ?_) ..)
    fun _ client h owns => ?_
  · rfl
  refine owns.claim (fun _ => leave_accounted owns [] (fun _ => ?_) ..)
    fun _ data h owns => ?_
  · rfl
  refine owns.claim (fun _ => leave_accounted owns [] (fun _ => ?_) ..)
    fun _ responseBuf h owns => ?_
  · simp only [List.append_nil, List.count_cons]
    ac_rfl
  refine owns.claim (fun _ => leave_accounted owns [] (fun _ => ?_) ..)
    fun _ postBuf h owns => ?_
  · simp only [List.append_nil, List.count_cons]
    ac_rfl
  refine owns.claim (fun _ => leave_accounted owns [] (fun _ => ?_) ..)
    fun _ header h owns => ?_
  · simp only [List.append_nil, List.count_cons]
    ac_rfl
  have done (ret : IoTError) (token : Memory) {h' : Heap}
      (owns : start.Owns [header, postBuf, responseBuf, data, client] h') :
      Accounted start 0 (leave ret [token]
        [header, client, responseBuf, postBuf, data] h') := by
    refine leave_accounted owns [] (fun _ => ?_) ..
    simp only [List.append_nil, List.count_cons]
    ac_rfl
  cases env.exchange (tokenPost productSn deviceSn deviceSecret) with
  | unsent ret => exact done ret token owns
  | unreceived ret => exact done ret token owns
  | received response =>
      refine withValue_accounted owns _ _ _ ?_ fun value h owns =>
        done _ _ owns
      exact withValue_accounted owns _ _ _ (done _ _ owns) fun _ h owns =>
        done _ _ owns

/-- A call that publishes leaves the URL behind if its request cannot be
sent. -/
def publishLeaks (env : Surroundings) (token topic data : CString) : Bool :=
  (List.range 6).all env.granted &&
    env.exchange (publishPost token topic data) matches .unsent _

theorem iotHttpPublish_accounted (env : Surroundings)
    (token topic data : CString) (start : Heap) :
    Accounted start (if publishLeaks env token topic data then 1 else 0)
      (iotHttpPublish env token topic data start) := by
  have refused {call : Nat} (small : call < 6)
      (missing : env.granted call = false) :
      publishLeaks env token topic data = false := by
    have notAll : (List.range 6).all env.granted = false :=
      List.all_eq_false.mpr ⟨call, List.mem_range.mpr small, by simp [missing]⟩
    rw [publishLeaks, notAll, Bool.false_and]
  unfold iotHttpPublish
  refine (Heap.Owns.refl start).claim (fun none => ?_)
    fun granted0 client h owns => ?_
  · rw [refused (by decide) none]
    exact leave_accounted (.refl _) [] (fun _ => rfl) ..
  refine owns.claim (fun none => ?_) fun granted1 clientData h owns => ?_
  · rw [refused (by decide) none]
    exact leave_accounted owns [] (fun _ => rfl) ..
  refine owns.claim (fun none => ?_) fun granted2 responseBuf h owns => ?_
  · rw [refused (by decide) none]
    refine leave_accounted owns [] (fun _ => ?_) ..
    simp only [List.append_nil, List.count_cons]
    ac_rfl
  refine owns.claim (fun none => ?_) fun granted3 postBuf h owns => ?_
  · rw [refused (by decide) none]
    refine leave_accounted owns [] (fun _ => ?_) ..
    simp only [List.append_nil, List.count_cons]
    ac_rfl
  refine owns.claim (fun none => ?_) fun granted4 header h owns => ?_
  · rw [refused (by decide) none]
    refine leave_accounted owns [] (fun _ => ?_) ..
    simp only [List.append_nil, List.count_cons]
    ac_rfl
  have done (ret : IoTError) {h' : Heap}
      (owns : start.Owns [header, postBuf, responseBuf, clientData, client]
        h') :
      Accounted start 0 (leave ret []
        [header, client, responseBuf, postBuf, clientData] h') := by
    refine leave_accounted owns [] (fun _ => ?_) ..
    simp only [List.append_nil, List.count_cons]
    ac_rfl
  refine owns.claim (fun none => ?_) fun granted5 url h owns => ?_
  · rw [refused (by decide) none]
    exact done _ owns
  have all : (List.range 6).all env.granted = true := by
    simp [List.range_succ, granted0, granted1, granted2, granted3, granted4,
      granted5]
  obtain ⟨h', freed, owns'⟩ := owns.free List.mem_cons_self
  rw [List.erase_cons_head] at owns'
  unfold publishLeaks
  rw [all, Bool.true_and]
  cases env.exchange (publishPost token topic data) with
  | unsent ret =>
      refine leave_accounted owns [url] (fun _ => ?_) ..
      simp only [List.cons_append, List.nil_append, List.count_cons]
      ac_rfl
  | unreceived ret =>
      dsimp only
      rw [freed]
      exact done ret owns'
  | received response =>
      dsimp only
      rw [freed]
      exact withValue_accounted owns' _ _ _ (done _ owns') fun _ h owns =>
        done _ owns

/-- A call for the URL of an upload leaves nothing behind. -/
theorem iotGetUrlAndAuth_accounted (env : Surroundings)
    (productSn deviceSn deviceSecret filePath md5 : CString)
    (authorization putUrl : Memory) (start : Heap) :
    Accounted start 0
      (iotGetUrlAndAuth env productSn deviceSn deviceSecret filePath md5
        authorization putUrl start) := by
  unfold iotGetUrlAndAuth
  refine (Heap.Owns.refl start).claim
    (fun _ => leave_accounted (.refl _) [] (fun _ => rfl) ..)
    fun _ client h owns => ?_
  refine owns.claim (fun _ => leave_accounted owns [] (fun _ => rfl) ..)
    fun _ data h owns => ?_
  refine owns.claim (fun _ => leave_accounted owns [] (fun _ => ?_) ..)
    fun _ responseBuf h owns => ?_
  · simp only [List.append_nil, List.count_cons]
    ac_rfl
  refine owns.claim (fun _ => leave_accounted owns [] (fun _ => ?_) ..)
    fun _ postBuf h owns => ?_
  · simp only [List.append_nil, List.count_cons]
    ac_rfl
  have four (ret : IoTError) :
      Accounted start 0 (leave ret [authorization, putUrl]
        [client, responseBuf, postBuf, data] h) := by
    refine leave_accounted owns [] (fun _ => ?_) ..
    simp only [List.append_nil, List.count_cons]
    ac_rfl
  split
  · exact four _
  refine owns.claim (fun _ => four _) fun _ header h owns => ?_
  have done (ret : IoTError) (authorization putUrl : Memory) {h' : Heap}
      (owns : start.Owns [header, postBuf, responseBuf, data, client] h') :
      Accounted start 0 (leave ret [authorization, putUrl]
        [header, client, responseBuf, postBuf, data] h') := by
    refine leave_accounted owns [] (fun _ => ?_) ..
    simp only [List.append_nil, List.count_cons]
    ac_rfl
  dsimp only
  split
  · exact done _ _ _ owns
  · exact done _ _ _ owns
  · refine withValue_accounted owns _ _ _ (done _ _ _ owns)
      fun auth h owns => ?_
    exact withValue_accounted owns _ _ _ (done _ _ _ owns) fun url h owns =>
      done _ _ _ owns

/-- An upload goes on without memory for the response or the header, or with a
buffer for a file of a negative length: one that it fills, or reads the file
into. -/
def uploadCrashes (env : Surroundings) : Bool :=
  let fileLen := calcFileLen env.file
  env.granted 0 && env.granted 1 &&
    (!(env.granted 2 && env.granted 3) ||
      env.granted 4 && (fileLen < -1 || fileLen < 0 && env.reopened))

/-- A call has no outcome if it crashes, and leaves nothing behind else. -/
def AccountedUnless (crashes : Bool) (start : Heap)
    (result : Option (CallOutcome × Heap)) : Prop :=
  if crashes then result = none else Accounted start 0 result

theorem iotHttpUploadFile_accounted (env : Surroundings)
    (md5 authorization url : CString) (start : Heap) :
    AccountedUnless (uploadCrashes env) start
      (iotHttpUploadFile env md5 authorization url start) := by
  unfold iotHttpUploadFile uploadCrashes
  generalize calcFileLen env.file = fileLen
  dsimp only
  refine (Heap.Owns.refl start).claim (fun none => ?_)
    fun granted0 client h owns => ?_
  · rw [none]
    exact leave_accounted (.refl _) [] (fun _ => rfl) ..
  refine owns.claim (fun none => ?_) fun granted1 data h owns => ?_
  · rw [none, Bool.and_false]
    exact leave_accounted owns [] (fun _ => rfl) ..
  rw [granted0, granted1]
  refine owns.claim (fun none => ?_) fun granted2 responseBuf h owns => ?_
  · rw [none]
    rfl
  refine owns.claim (fun none => ?_) fun granted3 header h owns => ?_
  · rw [none, granted2]
    rfl
  rw [granted2, granted3, Bool.and_self, Bool.true_and, Bool.not_true,
    Bool.false_or]
  have four (ret : IoTError) :
      Accounted start 0
        (leave ret [] [responseBuf, header, client, data] h) := by
    refine leave_accounted owns [] (fun _ => ?_) ..
    simp only [List.append_nil, List.count_cons]
    ac_rfl
  by_cases empty : fileLen = 0
  · have calm : (env.granted 4 && (decide (fileLen < -1) ||
        decide (fileLen < 0) && env.reopened)) = false := by
      simp [empty]
    rw [if_pos empty, calm]
    exact four _
  rw [if_neg empty]
  refine owns.claim (fun none => ?_) fun granted4 postBuf h owns => ?_
  · rw [none]
    exact four _
  rw [granted4, Bool.true_and]
  by_cases huge : fileLen < -1
  · rw [if_pos huge, decide_eq_true huge]
    rfl
  rw [if_neg huge, decide_eq_false huge, Bool.false_or]
  have done (ret : IoTError) {h' : Heap}
      (owns : start.Owns [postBuf, header, responseBuf, data, client] h') :
      Accounted start 0
        (leave ret [] [postBuf, responseBuf, data, header, client] h') := by
    refine leave_accounted owns [] (fun _ => ?_) ..
    simp only [List.append_nil, List.count_cons]
    ac_rfl
  refine owns.claim (fun none => ?_) fun reopened fp h owns => ?_
  · rw [none, Bool.and_false]
    exact done _ owns
  rw [reopened, Bool.and_true]
  by_cases negative : fileLen < 0
  · rw [if_pos negative, decide_eq_true negative]
    rfl
  rw [if_neg negative, decide_eq_false negative]
  change Accounted start 0 _
  obtain ⟨h', freed, owns'⟩ := owns.free List.mem_cons_self
  rw [List.erase_cons_head] at owns'
  split
  all_goals
    rw [freed]
    exact done _ owns'

/-! ## Runs of calls -/

/-- A call of the client with its surroundings. -/
inductive HttpCall
  | getToken (env : Surroundings) (productSn deviceSn deviceSecret : CString)
      (token : Memory)
  | publish (env : Surroundings) (token topic data : CString)
  | getUrlAndAuth (env : Surroundings)
      (productSn deviceSn deviceSecret filePath md5 : CString)
      (authorization putUrl : Memory)
  | uploadFile (env : Surroundings) (md5 authorization url : CString)

/-- What a call makes of the heap. -/
def HttpCall.perform (h : Heap) : HttpCall → Option Heap
  | .getToken env productSn deviceSn deviceSecret token =>
      (iotHttpGetToken env productSn deviceSn deviceSecret token h).map Prod.snd
  | .publish env token topic data =>
      (iotHttpPublish env token topic data h).map Prod.snd
  | .getUrlAndAuth env productSn deviceSn deviceSecret filePath md5
      authorization putUrl =>
      (iotGetUrlAndAuth env productSn deviceSn deviceSecret filePath md5
        authorization putUrl h).map Prod.snd
  | .uploadFile env md5 authorization url =>
      (iotHttpUploadFile env md5 authorization url h).map Prod.snd

/-- Calls one after the other. -/
def performAll (h : Heap) (calls : List HttpCall) : Option Heap :=
  calls.foldlM HttpCall.perform h

/-- The call goes on with a null pointer or a negative length. -/
def HttpCall.crashes : HttpCall → Bool
  | .uploadFile env _ _ _ => uploadCrashes env
  | _ => false

/-- The call leaves a block behind. -/
def HttpCall.leaks : HttpCall → Bool
  | .publish env token topic data => publishLeaks env token topic data
  | _ => false

/-- What a call leaves behind. -/
theorem HttpCall.perform_spec (h : Heap) (call : HttpCall) :
    if call.crashes then call.perform h = none
    else ∃ h' leaked, call.perform h = some h' ∧ h.Owns leaked h' ∧
      leaked.length = if call.leaks then 1 else 0 := by
  have returns {count : Nat} {result : Option (CallOutcome × Heap)}
      (accounted : Accounted h count result) :
      ∃ h' leaked, result.map Prod.snd = some h' ∧ h.Owns leaked h' ∧
        leaked.length = count := by
    obtain ⟨outcome, h', leaked, same, owns, number⟩ := accounted
    exact ⟨h', leaked, by rw [same]; rfl, owns, number⟩
  cases call with
  | getToken env productSn deviceSn deviceSecret token =>
      exact returns (iotHttpGetToken_accounted ..)
  | publish env token topic data =>
      exact returns (iotHttpPublish_accounted ..)
  | getUrlAndAuth env productSn deviceSn deviceSecret filePath md5
      authorization putUrl =>
      exact returns (iotGetUrlAndAuth_accounted ..)
  | uploadFile env md5 authorization url =>
      have upload := iotHttpUploadFile_accounted env md5 authorization url h
      unfold AccountedUnless at upload
      change if uploadCrashes env then _ else _
      split
      · rename_i crashes
        rw [if_pos crashes] at upload
        exact congrArg (Option.map Prod.snd) upload
      · rename_i returned
        rw [if_neg returned] at upload
        exact returns upload

/-- Calls none of which crashes return; those that leak a block leave it
behind. -/
theorem performAll_accounted (h : Heap) {calls : List HttpCall}
    (safe : ∀ call ∈ calls, call.crashes = false) :
    ∃ h' leaked, performAll h calls = some h' ∧ h.Owns leaked h' ∧
      leaked.length = calls.countP HttpCall.leaks := by
  induction calls generalizing h with
  | nil => exact ⟨h, [], rfl, .refl h, rfl⟩
  | cons call calls inductionHypothesis =>
      obtain ⟨first, rest⟩ := List.forall_mem_cons.mp safe
      have spec := call.perform_spec h
      rw [if_neg (by rw [first]; decide)] at spec
      obtain ⟨middle, leaked, result, owns, number⟩ := spec
      obtain ⟨h', later, results, owns', count⟩ :=
        inductionHypothesis middle rest
      refine ⟨h', later ++ leaked, ?_, owns.trans owns', ?_⟩
      · unfold performAll at results ⊢
        rw [List.foldlM_cons, result]
        exact results
      · rw [List.length_append, count, number, List.countP_cons]

/-- Calls one of which crashes do not return. -/
theorem performAll_crashes (h : Heap) {calls : List HttpCall}
    (crash : ∃ call ∈ calls, call.crashes = true) :
    performAll h calls = none := by
  induction calls generalizing h with
  | nil =>
      obtain ⟨call, mem, -⟩ := crash
      cases mem
  | cons call calls inductionHypothesis =>
      have spec := call.perform_spec h
      unfold performAll at inductionHypothesis ⊢
      rw [List.foldlM_cons]
      cases crashes : call.crashes with
      | true =>
          rw [if_pos crashes] at spec
          rw [spec]
          rfl
      | false =>
          rw [if_neg (by rw [crashes]; decide)] at spec
          obtain ⟨middle, leaked, result, -⟩ := spec
          rw [result]
          apply inductionHypothesis
          obtain ⟨other, mem, crashed⟩ := crash
          rcases List.mem_cons.mp mem with rfl | later
          · rw [crashes] at crashed
            cases crashed
          · exact ⟨other, later, crashed⟩

/-- Calls one after the other return exactly if none of them is an upload that
goes on with a null pointer or a negative length.  They release no block twice,
and at their end there is one more block for each publish whose request could
not be sent. -/
theorem performAll_accounted_iff (h : Heap) (calls : List HttpCall) :
    (∃ h' leaked, performAll h calls = some h' ∧ h.Owns leaked h' ∧
        leaked.length = calls.countP HttpCall.leaks) ↔
      ∀ call ∈ calls, call.crashes = false := by
  constructor
  · rintro ⟨h', leaked, result, -⟩ call mem
    by_contra crashes
    rw [performAll_crashes h ⟨call, mem, Bool.eq_true_of_not_eq_false crashes⟩]
      at result
    cases result
  · exact performAll_accounted h

end Http
end UIoT
