import UIoT.Json.Parser
import UIoT.Shadow.Messages
import UIoT.Utils.Md5

/-!
# OTA client

`ota_client.c` and `ota_lib.c`: the handle of an OTA client, the messages it
gets, and the download they start.  A message that comes while a download runs
is handled inside it, so that the outcomes of the calls made for a message hold
those for the messages nested in them.

A call has no outcome where the surroundings it is given end before it does, and
where the code goes on with a null pointer or formats arguments it does not
pass.
-/

namespace UIoT
namespace Ota

open Json (liteJsonCopyOf cString)
open Shadow (sscanfUint32)

/-! ## State -/

/-- `IOT_OTA_State` -/
inductive OtaState
  | uninited
  | inited
  | fetching
  | fetched
  | disconnected
  deriving DecidableEq, Repr

/-- What is on record about the handles of the download channel.  They are
numbered in the order in which `ofc_init` returns them. -/
structure ChannelLog where
  /-- The number of handles `ofc_init` has returned. -/
  opened : Nat
  /-- The arguments of `ofc_deinit`. -/
  released : List (Option Nat)
  /-- The arguments of `http_client_close`. -/
  closed : List (Option Nat)
  /-- The handles read from `ch_fetch` after their release. -/
  staleReads : List Nat

/-- `OTA_Struct_t` with the `msg_list` of its signal channel. -/
structure OtaStruct where
  state : OtaState
  sizeLastFetched : UInt32
  sizeFetched : UInt32
  sizeFile : UInt32
  url : Option (List UInt8)
  downloadName : Option (List UInt8)
  module : Option (List UInt8)
  version : Option (List UInt8)
  md5sum : Option (List UInt8)
  md5 : Md5.Context
  chFetch : Option Nat
  err : IoTError
  msgList : List (List UInt8)
  channels : ChannelLog
  /-- The update messages put into `msg_list` so far. -/
  queued : List (List UInt8)
  /-- The update messages taken from `msg_list` so far. -/
  popped : List (List UInt8)
  /-- The percentages passed to `IOT_OTA_ReportProgress` so far. -/
  reported : List UInt32

/-- `IOT_OTA_Init`, where it succeeds. -/
def iotOtaInit : OtaStruct where
  state := .inited
  sizeLastFetched := 0
  sizeFetched := 0
  sizeFile := 0
  url := none
  downloadName := none
  module := none
  version := none
  md5sum := none
  md5 := Md5.utilsMd5Starts
  chFetch := none
  err := .successRet
  msgList := []
  channels := ⟨0, [], [], []⟩
  queued := []
  popped := []
  reported := []

/-! ## The download channel -/

/-- A read of `ch_fetch`. -/
def readChFetch (ota : OtaStruct) : OtaStruct :=
  match ota.chFetch with
  | none => ota
  | some handle =>
      if some handle ∈ ota.channels.released then
        { ota with
          channels.staleReads := ota.channels.staleReads ++ [handle] }
      else ota

/-- `http_client_close` on the client of `ch_fetch`. -/
def httpClientClose (ota : OtaStruct) : OtaStruct :=
  { ota with channels.closed := ota.channels.closed ++ [ota.chFetch] }

/-- `ofc_deinit(h_ota->ch_fetch)` -/
def ofcDeinit (ota : OtaStruct) : OtaStruct :=
  let ota := httpClientClose (readChFetch ota)
  { ota with channels.released := ota.channels.released ++ [ota.chFetch] }

/-- `h_ota->ch_fetch = ofc_init(h_ota->url)` -/
def ofcInit (ota : OtaStruct) (allocated : Bool) : OtaStruct :=
  if allocated then
    { ota with
      chFetch := some ota.channels.opened
      channels.opened := ota.channels.opened + 1 }
  else
    { ota with chFetch := none }

/-- `HTTP_OTA_BUFF_LEN` -/
def httpOtaBuffLen : Nat := 4100

/-- What `ofc_fetch` returns: the bytes it received, none at all included, or
an error. -/
inductive FetchResult
  | received (bytes : List UInt8) (fits : bytes.length ≤ httpOtaBuffLen)
  | failed (ret : IoTError) (negative : ret.negative = true)

theorem one_fits : ([1] : List UInt8).length ≤ httpOtaBuffLen := by decide

theorem failureRet_negative : IoTError.failureRet.negative = true := rfl

/-! ## Reports -/

/-- How the rest of a report goes once its arguments are checked. -/
inductive ReportOutcome
  | sent
  | noMemory
  | generateFailed
  | tooLong
  | publishFailed
  deriving DecidableEq, Repr

/-- The last error after a report. -/
def report (ota : OtaStruct) : ReportOutcome → OtaStruct
  | .sent => ota
  | .noMemory => { ota with err := .errOtaNoMemory }
  | .generateFailed => { ota with err := .errOtaGeneralFailure }
  | .tooLong => { ota with err := .errOtaStrTooLong }
  | .publishFailed => { ota with err := .errOtaOscFailed }

/-- `IOT_OTA_ReportProgress` -/
def iotOtaReportProgress (ota : OtaStruct) (progress : UInt32)
    (outcome : ReportOutcome) : OtaStruct :=
  let ota := { ota with reported := ota.reported ++ [progress] }
  if ota.state = .uninited then { ota with err := .errOtaInvalidState }
  else if progress > 100 then { ota with err := .errOtaInvalidParam }
  else report ota outcome

/-- `IOT_OTA_ReportFail`.  With a buffer for its message it has no outcome:
`REPORT_FAIL_MSG_TEMPLATE` asks for a number and two strings, and
`ota_lib_gen_upstream_msg` passes the number only. -/
def iotOtaReportFail (ota : OtaStruct) (msgAllocated : Bool) :
    Option OtaStruct :=
  if ota.state = .uninited then
    some { ota with err := .errOtaInvalidState }
  else if msgAllocated then none
  else some { ota with err := .errOtaNoMemory }

/-- `IOT_OTA_ReportSuccess` -/
def iotOtaReportSuccess (ota : OtaStruct) (version : List UInt8)
    (outcome : ReportOutcome) : OtaStruct :=
  if ota.state = .uninited then { ota with err := .errOtaInvalidState }
  else if version.length < 1 ∨ version.length > 32 then
    { ota with err := .errOtaInvalidParam }
  else report ota outcome

/-! ## Fetching -/

/-- What one call of `ofc_fetch` meets, and what follows where it fails. -/
structure Attempt where
  result : FetchResult
  /-- Whether `ofc_init` allocates a new handle after a lost connection. -/
  reallocated : Bool
  /-- Whether the message of `IOT_OTA_ReportFail` can be allocated. -/
  failAllocated : Bool

/-- One round of the download loop. -/
structure Turn (μ : Type) where
  attempts : Fin 5 → Attempt
  firstReport : ReportOutcome
  /-- Whether the report timer has expired. -/
  hasExpired : Bool
  progressReport : ReportOutcome
  /-- Whether `HAL_Download_Write` succeeds. -/
  written : Bool
  /-- The messages `IOT_OTA_Yield` hands to `_ota_callback`. -/
  messages : List (List UInt8 × μ)

/-- What `IOT_OTA_FetchYield` does about an error: a new handle after a lost
connection, otherwise a report and the state of a finished download. -/
def fetchFailed (ota : OtaStruct) (ret : IoTError) (attempt : Attempt) :
    Option OtaStruct :=
  if ret = .errHttpConnError ∧ ota.state ≠ .disconnected then
    -- `ofc_connect` reads its handle, which is null if it was not allocated
    if attempt.reallocated then
      some { ofcInit (ofcDeinit ota) true with state := .fetching }
    else none
  else
    let ota := { ota with state := .fetched, err := ret }
    if ret = .errOtaFetchAuthFail ∨ ret = .errOtaFileNotExist ∨
        ret = .errOtaFetchTimeout then
      iotOtaReportFail ota attempt.failAllocated
    else some { ota with err := .errOtaFetchFailed }

/-- The retry loop of `IOT_OTA_FetchYield`, with the value of `ret` at its
end.  The loop sets it before anything reads it. -/
def fetchRetry (ota : OtaStruct) (firstReport : ReportOutcome)
    (last : FetchResult) : List Attempt → Option (FetchResult × OtaStruct)
  | [] => some (last, ota)
  | attempt :: attempts =>
      let ota := readChFetch ota
      match attempt.result with
      | .failed ret negative =>
          (fetchFailed ota ret attempt).bind fun ota =>
            fetchRetry ota firstReport (.failed ret negative) attempts
      | .received bytes fits =>
          let ota :=
            if ota.sizeFetched = 0 then iotOtaReportProgress ota 0 firstReport
            else ota
          some (.received bytes fits, ota)

/-- The progress in percent, as computed in 32 bits.  Division by zero gives
zero, as on the targets that do not trap it. -/
def percentOf (sizeFetched sizeFile : UInt32) : UInt32 :=
  sizeFetched * 100 / sizeFile

/-- The bytes of a buffer go into the digest and the counters. -/
def countFetched (ota : OtaStruct) (bytes : List UInt8) : OtaStruct :=
  let ret := UInt32.ofNat bytes.length
  { ota with
    md5 := Md5.utilsMd5Update ota.md5 bytes
    sizeLastFetched := ret
    sizeFetched := ota.sizeFetched + ret }

/-- The progress is reported at the end and when the timer has expired. -/
def reportFetched {μ : Type} (ota : OtaStruct) (turn : Turn μ) : OtaStruct :=
  let percent := percentOf ota.sizeFetched ota.sizeFile
  if percent = 100 ∨ (ota.sizeLastFetched > 0 ∧ turn.hasExpired) then
    iotOtaReportProgress ota percent turn.progressReport
  else ota

/-- `IOT_OTA_FetchYield` behind its retry loop, with the bytes received. -/
def fetchArrived {μ : Type} (ota : OtaStruct) (turn : Turn μ)
    (bytes : List UInt8) : OtaStruct :=
  let ota := reportFetched (countFetched ota bytes) turn
  if ota.sizeFile ≤ ota.sizeFetched then { ota with state := .fetched }
  else ota

/-- `IOT_OTA_FetchYield` behind its retry loop: the bytes in the buffer where it
returns their positive number. -/
def fetchEnded {μ : Type} (turn : Turn μ) :
    FetchResult × OtaStruct → Option (List UInt8) × OtaStruct
  | (.failed _ _, ota) => (none, ota)
  | (.received bytes _, ota) =>
      if bytes = [] then (none, ota)
      else (some bytes, fetchArrived ota turn bytes)

/-- `IOT_OTA_FetchYield` -/
def iotOtaFetchYield {μ : Type} (ota : OtaStruct) (turn : Turn μ) :
    Option (Option (List UInt8) × OtaStruct) :=
  if ota.state ≠ .fetching then
    some (none, { ota with err := .errOtaInvalidState })
  else
    (fetchRetry ota turn.firstReport (turn.attempts 0).result
      (List.ofFn turn.attempts)).map (fetchEnded turn)

/-! ## Queries -/

/-- `h_ota->state < OTA_STATE_FETCHING` -/
def beforeFetching (ota : OtaStruct) : Prop :=
  ota.state = .uninited ∨ ota.state = .inited

instance (ota : OtaStruct) : Decidable (beforeFetching ota) :=
  inferInstanceAs (Decidable (_ ∨ _))

/-- `IOT_OTA_Ioctl` with `OTA_IOCTL_FILE_SIZE`: what it stores. -/
def ioctlFileSize (ota : OtaStruct) : Option UInt32 × OtaStruct :=
  if beforeFetching ota then (none, { ota with err := .errOtaInvalidState })
  else (some ota.sizeFile, ota)

/-- `IOT_OTA_Ioctl` with `OTA_IOCTL_VERSION` and a buffer of 33 bytes: what it
stores.  There has to be a version to copy. -/
def ioctlVersion (ota : OtaStruct) :
    Option (Option (List UInt8) × OtaStruct) :=
  if beforeFetching ota then
    some (none, { ota with err := .errOtaInvalidState })
  else ota.version.map fun version => (some (version.take 32), ota)

/-- `IOT_OTA_Ioctl` with `OTA_IOCTL_CHECK_FIRMWARE`: what it stores.  There has
to be a digest to compare with. -/
def ioctlCheckFirmware (ota : OtaStruct) (failAllocated : Bool) :
    Option (Option Bool × OtaStruct) :=
  if ota.state ≠ .fetched then
    some (none, { ota with err := .errOtaInvalidState })
  else
    let (md5Str, md5) := Md5.utilsMd5FinishHb2hex ota.md5
    let ota := { ota with md5 }
    ota.md5sum.bind fun md5sum =>
      if md5sum = md5Str then some (some true, ota)
      else
        (iotOtaReportFail { ota with err := .errOtaMd5Mismatch }
          failAllocated).map fun ota => (some false, ota)

/-! ## The download -/

/-- What one call of `IOT_OTA_fw_download` meets. -/
structure Download (μ : Type) where
  /-- Whether `HAL_Download_Init` returns a handle. -/
  downloadInit : Bool
  bufferAllocated : Bool
  turns : List (Turn μ)
  /-- What `firmware_valid` holds before it is set. -/
  firmwareValid : Bool
  /-- Whether the message of `IOT_OTA_ReportFail` can be allocated. -/
  failAllocated : Bool
  successReport : ReportOutcome
  /-- Whether `HAL_Download_End` returns zero. -/
  downloadEnd : Bool

/-- `IOT_OTA_Clear` -/
def iotOtaClear (ota : OtaStruct) : OtaStruct :=
  { ofcDeinit ota with
    url := ota.url.map fun _ => []
    module := ota.module.map fun _ => []
    downloadName := ota.downloadName.map fun _ => []
    version := ota.version.map fun _ => []
    md5sum := ota.md5sum.map fun _ => []
    sizeLastFetched := 0
    sizeFetched := 0
    sizeFile := 0
    md5 := Md5.utilsMd5Starts
    state := .inited }

/-- Where the download loop stands: the handle, `total_length` in its 32 bits,
and the offsets and bytes of the calls of `HAL_Download_Write` that
succeeded. -/
structure Transfer where
  ota : OtaStruct
  totalLength : UInt32
  writes : List (UInt32 × List UInt8)

/-- How the download loop is left. -/
inductive LoopExit
  | finished
  | failed (ret : IoTError)
  deriving DecidableEq, Repr

section Nesting

variable {μ : Type} (callback : OtaStruct → List UInt8 → μ → Option OtaStruct)

/-- `IOT_OTA_Yield`: the messages are handled one after the other. -/
def iotOtaYield (ota : OtaStruct) (messages : List (List UInt8 × μ)) :
    Option OtaStruct :=
  messages.foldlM (fun ota message => callback ota message.1 message.2) ota

/-- The loop of `IOT_OTA_fw_download`, as far as the rounds are given. -/
def downloadLoop (transfer : Transfer) :
    List (Turn μ) → Option (LoopExit × Transfer)
  | [] => none
  | turn :: turns =>
      match iotOtaFetchYield transfer.ota turn with
      | none => none
      | some (none, ota) =>
          some (.failed .errOtaFetchFailed, { transfer with ota })
      | some (some bytes, ota) =>
          if turn.written then
            match iotOtaYield callback ota turn.messages with
            | none => none
            | some ota =>
                let transfer : Transfer :=
                  { ota
                    totalLength :=
                      transfer.totalLength + UInt32.ofNat bytes.length
                    writes :=
                      transfer.writes ++ [(transfer.totalLength, bytes)] }
                if ota.state = .fetched then some (.finished, transfer)
                else downloadLoop transfer turns
          else some (.failed .failureRet, { transfer with ota })

/-- `IOT_OTA_fw_download` behind its loop, up to `IOT_OTA_Clear`. -/
def downloadFinish (ota : OtaStruct) (totalLength fileSize : UInt32)
    (env : Download μ) : Option (IoTError × OtaStruct) :=
  if totalLength = fileSize then
    (ioctlCheckFirmware ota env.failAllocated).bind fun (stored, ota) =>
      if stored.getD env.firmwareValid then
        (ioctlVersion ota).map fun (version, ota) =>
          (if env.downloadEnd then .successRet else .failureRet,
            iotOtaReportSuccess ota (version.getD []) env.successReport)
      else some (ota.err, ota)
  else some (.successRet, ota)

/-- What `IOT_OTA_fw_download` returns, and what it has written. -/
structure DownloadResult where
  ret : IoTError
  ota : OtaStruct
  writes : List (UInt32 × List UInt8)

/-- `IOT_OTA_fw_download` -/
def iotOtaFwDownload (ota : OtaStruct) (env : Download μ) :
    Option DownloadResult :=
  let (stored, ota) := ioctlFileSize ota
  let fileSize := stored.getD 0
  if env.downloadInit && env.bufferAllocated then
    match downloadLoop callback ⟨ota, 0, []⟩ env.turns with
    | none => none
    | some (.failed ret, transfer) =>
        some ⟨ret, iotOtaClear transfer.ota, transfer.writes⟩
    | some (.finished, transfer) =>
        (downloadFinish transfer.ota transfer.totalLength fileSize env).map
          fun (ret, ota) => ⟨ret, iotOtaClear ota, transfer.writes⟩
  else
    some ⟨.failureRet, iotOtaClear ota, []⟩

end Nesting

/-! ## Messages -/

/-- `UPDATE_FIRMWARE_METHOD` -/
def updateFirmwareMethod : List UInt8 := ascii "update_firmware"

/-- `CANCEL_UPDATE_METHOD` -/
def cancelUpdateMethod : List UInt8 := ascii "cancel_update"

/-- A string behind which memory goes on with its terminator. -/
def terminated (text : List UInt8) : List UInt8 := text ++ [0]

/-- Which of the values looked up in a message can be copied. -/
structure Copies where
  method : Bool
  module : Bool
  version : Bool
  url : Bool
  md5 : Bool
  size : Bool

/-- Memory for all of them. -/
def Copies.all : Copies := ⟨true, true, true, true, true, true⟩

/-- `ota_lib_get_msg_type` -/
def otaLibGetMsgType (msgStr : List UInt8) (copies : Copies) :
    Option (List UInt8) :=
  liteJsonCopyOf copies.method (ascii "Method") (terminated msgStr)

/-- `ota_lib_get_msg_module_ver` -/
def otaLibGetMsgModuleVer (msgStr : List UInt8) (copies : Copies) :
    Option (List UInt8 × List UInt8) :=
  (liteJsonCopyOf copies.module (ascii "Payload.Module")
      (terminated msgStr)).bind fun module =>
    (liteJsonCopyOf copies.version (ascii "Payload.Version")
        (terminated msgStr)).map fun version => (module, version)

/-- `ota_lib_get_params`: whether it succeeds.  `downloadName` is what
`HAL_Download_Name_Set` returns. -/
def otaLibGetParams (ota : OtaStruct) (msgStr : List UInt8) (copies : Copies)
    (downloadName : Option (List UInt8)) : Bool × OtaStruct :=
  let field := fun copied key =>
    liteJsonCopyOf copied (ascii key) (terminated msgStr)
  match field copies.module "Payload.Module" with
  | none => (false, ota)
  | some moduleStr =>
  let ota := { ota with module := some moduleStr }
  match field copies.version "Payload.Version" with
  | none => (false, ota)
  | some versionStr =>
  let ota := { ota with version := some versionStr }
  match field copies.url "Payload.URL" with
  | none => (false, ota)
  | some urlStr =>
  let ota := { ota with url := some urlStr, downloadName }
  match field copies.md5 "Payload.MD5" with
  | none => (false, ota)
  | some md5Str =>
  let ota := { ota with md5sum := some md5Str }
  match (field copies.size "Payload.Size").bind sscanfUint32 with
  | none => (false, ota)
  | some fileSize => (true, { ota with sizeFile := fileSize })

/-- What the handling of one message meets. -/
structure Processing (μ : Type) where
  /-- Whether the message can be copied. -/
  msgStrAllocated : Bool
  copies : Copies
  /-- Whether the entry for `msg_list` can be allocated. -/
  entryAllocated : Bool
  /-- Whether its copy of the message and its node can be allocated. -/
  pushAllocated : Bool
  /-- What `HAL_Download_Name_Set` returns. -/
  downloadName : Option (List UInt8)
  /-- Whether `ofc_init` allocates a handle. -/
  ofcAllocated : Bool
  /-- Whether `ofc_connect` succeeds. -/
  connected : Bool
  download : Download μ
  /-- What the handling of the message taken from `msg_list` meets. -/
  next : Option μ

/-- `_ota_push_upload_msg`, which writes to the entry without a check. -/
def otaPushUploadMsg (ota : OtaStruct) (msgStr : List UInt8)
    (entryAllocated pushAllocated : Bool) : Option OtaStruct :=
  if !entryAllocated then none
  else if pushAllocated then
    some
      { ota with
        msgList := ota.msgList ++ [msgStr]
        queued := ota.queued ++ [msgStr] }
  else some ota

section Nesting

variable {μ : Type} (callback : OtaStruct → List UInt8 → μ → Option OtaStruct)

/-- `_ota_pop_upload_msg` -/
def otaPopUploadMsg (ota : OtaStruct) (next : Option μ) : Option OtaStruct :=
  match ota.msgList with
  | [] => some ota
  | msg :: msgList =>
      next.bind fun env =>
        callback { ota with msgList, popped := ota.popped ++ [msg] } msg env

/-- The `update_firmware` branch of `_ota_callback`. -/
def updateFirmware (ota : OtaStruct) (msgStr : List UInt8)
    (env : Processing μ) : Option OtaStruct :=
  if ota.state = .fetching then
    otaPushUploadMsg ota msgStr env.entryAllocated env.pushAllocated
  else
    match otaLibGetParams ota msgStr env.copies env.downloadName with
    | (false, ota) => some ota
    | (true, ota) =>
        let ota := ofcInit ota env.ofcAllocated
        if ota.chFetch = none then some ota
        else if env.connected then
          let ota := { ota with state := .fetching }
          match iotOtaFwDownload callback ota env.download with
          | none => none
          | some result =>
              let ota :=
                if result.ret = .successRet then result.ota
                else { result.ota with state := .disconnected }
              otaPopUploadMsg callback ota env.next
        else some { ota with state := .disconnected }

/-- The `cancel_update` branch of `_ota_callback`.  There have to be a module
and a version to compare with. -/
def cancelUpdate (ota : OtaStruct) (msgStr : List UInt8) (copies : Copies) :
    Option OtaStruct :=
  match otaLibGetMsgModuleVer msgStr copies with
  | none => some ota
  | some (msgModule, msgVer) =>
      ota.module.bind fun module =>
        if msgModule = module then
          ota.version.bind fun version =>
            if msgVer = version then
              some
                { httpClientClose (readChFetch ota) with
                  state := .disconnected }
            else some ota
        else some ota

/-- `_ota_callback` -/
def handleMessage (ota : OtaStruct) (msg : List UInt8) (env : Processing μ) :
    Option OtaStruct :=
  if env.msgStrAllocated then
    let msgStr := cString msg
    match otaLibGetMsgType msgStr env.copies with
    | none => some ota
    | some msgMethod =>
        let ota := readChFetch ota
        if ota.chFetch = none ∧ msgMethod = cancelUpdateMethod then some ota
        else if msgMethod = updateFirmwareMethod then
          updateFirmware callback ota msgStr env
        else if msgMethod = cancelUpdateMethod then
          cancelUpdate ota msgStr env.copies
        else some ota
  else some ota

end Nesting

/-- What the handling of a message meets where messages are handled inside each
other at most so deep. -/
def Handling : Nat → Type
  | 0 => Empty
  | depth + 1 => Processing (Handling depth)

/-- `_ota_callback` with the messages nested in it. -/
def otaCallback : (depth : Nat) → OtaStruct → List UInt8 → Handling depth →
    Option OtaStruct
  | 0, _, _, env => env.elim
  | depth + 1, ota, msg, env => handleMessage (otaCallback depth) ota msg env

/-- `IOT_OTA_Destroy`, as far as its handles go. -/
def iotOtaDestroy (ota : OtaStruct) : OtaStruct :=
  if ota.state = .uninited then ota else ofcDeinit ota

end Ota
end UIoT
