import UIoT.Ota.Ownership

/-!
# The queue of update messages

Update messages that come while a download runs wait in `msg_list`, and each of
them takes the next one from it when its own download is over.  They leave the
list in the order in which they came; whether the list is empty in the end
depends on the messages that get as far as a download.
-/

namespace UIoT
namespace Ota

open Json (cString)

/-- `msg_list`, and what has gone through it. -/
structure QueueView where
  msgList : List (List UInt8)
  queued : List (List UInt8)
  popped : List (List UInt8)

/-- The queue of a handle. -/
def OtaStruct.queue (ota : OtaStruct) : QueueView :=
  ⟨ota.msgList, ota.queued, ota.popped⟩

/-- The messages queued are those taken from the queue, each once and in the
same order, and those that wait in it. -/
def Fifo (queue : QueueView) : Prop :=
  queue.queued = queue.popped ++ queue.msgList

/-! ## What a download does besides -/

/-- What fetching has nothing to do with: the queue, and the names of the
firmware. -/
structure Aside where
  queue : QueueView
  module : Option (List UInt8)
  version : Option (List UInt8)

/-- What fetching with a handle has nothing to do with. -/
def OtaStruct.aside (ota : OtaStruct) : Aside :=
  ⟨ota.queue, ota.module, ota.version⟩

@[simp] theorem readChFetch_aside (ota : OtaStruct) :
    (readChFetch ota).aside = ota.aside := by
  unfold readChFetch
  split
  · rfl
  · split <;> rfl

theorem readChFetch_queue (ota : OtaStruct) :
    (readChFetch ota).queue = ota.queue :=
  congrArg Aside.queue (readChFetch_aside ota)

@[simp] theorem ofcDeinit_aside (ota : OtaStruct) :
    (ofcDeinit ota).aside = ota.aside :=
  readChFetch_aside ota

@[simp] theorem ofcInit_aside (ota : OtaStruct) (allocated : Bool) :
    (ofcInit ota allocated).aside = ota.aside := by
  cases allocated <;> rfl

theorem iotOtaClear_queue (ota : OtaStruct) :
    (iotOtaClear ota).queue = ota.queue :=
  congrArg Aside.queue (ofcDeinit_aside ota)

/-- A report sets the last error and nothing else. -/
theorem report_eq (ota : OtaStruct) (outcome : ReportOutcome) :
    ∃ err, report ota outcome = { ota with err } := by
  cases outcome <;> exact ⟨_, rfl⟩

@[simp] theorem iotOtaReportProgress_aside (ota : OtaStruct)
    (progress : UInt32) (outcome : ReportOutcome) :
    (iotOtaReportProgress ota progress outcome).aside = ota.aside := by
  unfold iotOtaReportProgress
  dsimp only
  split
  · rfl
  · split
    · rfl
    · obtain ⟨err, same⟩ := report_eq
        { ota with reported := ota.reported ++ [progress] } outcome
      rw [same]
      rfl

theorem iotOtaReportSuccess_eq (ota : OtaStruct) (version : List UInt8)
    (outcome : ReportOutcome) :
    ∃ err, iotOtaReportSuccess ota version outcome = { ota with err } := by
  unfold iotOtaReportSuccess
  split
  · exact ⟨_, rfl⟩
  · split
    · exact ⟨_, rfl⟩
    · exact report_eq ota outcome

theorem fetchFailed_aside {ota after : OtaStruct} {ret : IoTError}
    {attempt : Attempt} (failed : fetchFailed ota ret attempt = some after) :
    after.aside = ota.aside := by
  rcases fetchFailed_cases failed with ⟨-, -, same⟩ | ⟨-, err, same⟩
  · rw [same]
    calc
      (ofcInit (ofcDeinit ota) true).aside = (ofcDeinit ota).aside :=
        ofcInit_aside _ _
      _ = ota.aside := ofcDeinit_aside ota
  · rw [same]
    rfl

theorem fetchRetry_aside {ota after : OtaStruct}
    {firstReport : ReportOutcome} {last result : FetchResult}
    {attempts : List Attempt}
    (ended : fetchRetry ota firstReport last attempts =
      some (result, after)) : after.aside = ota.aside := by
  induction attempts generalizing ota last with
  | nil =>
      cases ended
      rfl
  | cons attempt attempts inductionHypothesis =>
      unfold fetchRetry at ended
      dsimp only at ended
      split at ended
      · obtain ⟨middle, failed, later⟩ := Option.bind_eq_some_iff.mp ended
        rw [inductionHypothesis later, fetchFailed_aside failed,
          readChFetch_aside]
      · obtain ⟨-, rfl⟩ := Prod.mk.inj (Option.some.inj ended)
        split
        · rw [iotOtaReportProgress_aside, readChFetch_aside]
        · rw [readChFetch_aside]

section Calls

variable {μ : Type}

@[simp] theorem reportFetched_aside (ota : OtaStruct) (turn : Turn μ) :
    (reportFetched ota turn).aside = ota.aside := by
  unfold reportFetched
  dsimp only
  split
  · rw [iotOtaReportProgress_aside]
  · rfl

@[simp] theorem fetchArrived_aside (ota : OtaStruct) (turn : Turn μ)
    (bytes : List UInt8) :
    (fetchArrived ota turn bytes).aside = ota.aside := by
  have aside : (reportFetched (countFetched ota bytes) turn).aside =
      ota.aside := reportFetched_aside _ _
  unfold fetchArrived
  dsimp only
  split
  · exact aside
  · exact aside

theorem iotOtaFetchYield_aside {ota after : OtaStruct} {turn : Turn μ}
    {received : Option (List UInt8)}
    (fetched : iotOtaFetchYield ota turn = some (received, after)) :
    after.aside = ota.aside := by
  unfold iotOtaFetchYield at fetched
  split at fetched
  · cases fetched
    rfl
  · obtain ⟨⟨result, last⟩, ended, same⟩ := Option.map_eq_some_iff.mp fetched
    have retry := fetchRetry_aside ended
    cases result with
    | failed ret negative =>
        obtain ⟨-, rfl⟩ := Prod.mk.inj same
        exact retry
    | received bytes fits =>
        rw [fetchEnded] at same
        split at same
        · obtain ⟨-, rfl⟩ := Prod.mk.inj same
          exact retry
        · obtain ⟨-, rfl⟩ := Prod.mk.inj same
          exact (fetchArrived_aside last turn bytes).trans retry

/-- A check goes on with the digest, and may set the last error. -/
theorem ioctlCheckFirmware_eq {ota after : OtaStruct}
    {failAllocated : Bool} {stored : Option Bool}
    (checked : ioctlCheckFirmware ota failAllocated = some (stored, after)) :
    ∃ md5 err, after = { ota with md5, err } := by
  unfold ioctlCheckFirmware at checked
  split at checked
  · cases checked
    exact ⟨_, _, rfl⟩
  · obtain ⟨md5sum, -, compared⟩ := Option.bind_eq_some_iff.mp checked
    split at compared
    · cases compared
      exact ⟨_, _, rfl⟩
    · obtain ⟨reported, failed, same⟩ := Option.map_eq_some_iff.mp compared
      obtain ⟨-, rfl⟩ := Prod.mk.inj same
      obtain ⟨err, -, reported⟩ := iotOtaReportFail_eq failed
      exact ⟨_, err, reported⟩

theorem ioctlVersion_eq {ota after : OtaStruct}
    {stored : Option (List UInt8)}
    (told : ioctlVersion ota = some (stored, after)) :
    ∃ err, after = { ota with err } := by
  unfold ioctlVersion at told
  split at told
  · cases told
    exact ⟨_, rfl⟩
  · obtain ⟨version, -, same⟩ := Option.map_eq_some_iff.mp told
    cases same
    exact ⟨_, rfl⟩

theorem downloadFinish_eq {ota after : OtaStruct}
    {totalLength fileSize : UInt32} {env : Download μ} {ret : IoTError}
    (finished : downloadFinish ota totalLength fileSize env =
      some (ret, after)) : ∃ md5 err, after = { ota with md5, err } := by
  unfold downloadFinish at finished
  split at finished
  · obtain ⟨⟨stored, checked⟩, check, rest⟩ :=
      Option.bind_eq_some_iff.mp finished
    obtain ⟨md5, err, rfl⟩ := ioctlCheckFirmware_eq check
    dsimp only at rest
    split at rest
    · obtain ⟨⟨version, told⟩, tells, ends⟩ := Option.map_eq_some_iff.mp rest
      obtain ⟨-, rfl⟩ := Prod.mk.inj ends
      obtain ⟨toldErr, rfl⟩ := ioctlVersion_eq tells
      obtain ⟨sentErr, sent⟩ := iotOtaReportSuccess_eq
        { ota with md5, err := toldErr } (version.getD []) env.successReport
      exact ⟨md5, sentErr, sent⟩
    · obtain ⟨-, rfl⟩ := Prod.mk.inj (Option.some.inj rest)
      exact ⟨md5, err, rfl⟩
  · cases finished
    exact ⟨_, _, rfl⟩

end Calls

theorem otaLibGetParams_queue (ota : OtaStruct) (msgStr : List UInt8)
    (copies : Copies) (downloadName : Option (List UInt8)) :
    (otaLibGetParams ota msgStr copies downloadName).2.queue =
      ota.queue := by
  unfold otaLibGetParams
  dsimp only
  repeat' split
  all_goals rfl

theorem cancelUpdate_queue {ota after : OtaStruct} {msgStr : List UInt8}
    {copies : Copies} (handled : cancelUpdate ota msgStr copies = some after) :
    after.queue = ota.queue := by
  rcases cancelUpdate_cases handled with same | closed
  · rw [same]
  · rw [closed]
    exact readChFetch_queue ota

/-! ## What the handling of messages keeps -/

/-- A property of a handle that every call keeps of which the handling of a
message is made. -/
structure Stable (holds : OtaStruct → Prop) : Prop where
  read : ∀ ota, holds ota → holds (readChFetch ota)
  size : ∀ ota, holds ota → holds (ioctlFileSize ota).2
  fetch : ∀ {μ : Type} {ota after : OtaStruct} {turn : Turn μ}
    {received : Option (List UInt8)},
    iotOtaFetchYield ota turn = some (received, after) →
      holds ota → holds after
  finish : ∀ ota md5 err, holds ota → holds { ota with md5, err }
  clear : ∀ ota, holds ota → holds (iotOtaClear ota)
  disconnect : ∀ ota, holds ota → holds { ota with state := .disconnected }
  push : ∀ ota msgStr, holds ota →
    holds
      { ota with
        msgList := ota.msgList ++ [msgStr]
        queued := ota.queued ++ [msgStr] }
  pop : ∀ ota msg msgList, ota.msgList = msg :: msgList → holds ota →
    holds { ota with msgList, popped := ota.popped ++ [msg] }
  refuse : ∀ {ota parsed : OtaStruct} {msgStr : List UInt8} {copies : Copies}
    {downloadName : Option (List UInt8)}, ota.state ≠ .fetching →
    otaLibGetParams ota msgStr copies downloadName = (false, parsed) →
      holds ota → holds parsed
  accept : ∀ {ota parsed : OtaStruct} {msgStr : List UInt8} {copies : Copies}
    {downloadName : Option (List UInt8)},
    otaLibGetParams ota msgStr copies downloadName = (true, parsed) →
      holds ota → holds (ofcInit parsed false) ∧
        ∀ state, holds { ofcInit parsed true with state }
  cancel : ∀ {ota after : OtaStruct} {msgStr : List UInt8} {copies : Copies},
    cancelUpdate ota msgStr copies = some after → holds ota → holds after

namespace Stable

variable {holds : OtaStruct → Prop} (stable : Stable holds)
include stable

section Nesting

variable {μ : Type} {callback : OtaStruct → List UInt8 → μ → Option OtaStruct}
  (keeps : ∀ ota msg env after, callback ota msg env = some after →
    holds ota → holds after)
include keeps

omit stable in
theorem yield {ota after : OtaStruct} {messages : List (List UInt8 × μ)}
    (handled : iotOtaYield callback ota messages = some after)
    (before : holds ota) : holds after := by
  unfold iotOtaYield at handled
  induction messages generalizing ota with
  | nil =>
      obtain rfl : ota = after := Option.some.inj handled
      exact before
  | cons message messages inductionHypothesis =>
      rw [List.foldlM_cons] at handled
      obtain ⟨middle, first, rest⟩ := Option.bind_eq_some_iff.mp handled
      exact inductionHypothesis rest (keeps _ _ _ _ first before)

theorem loop {transfer after : Transfer} {turns : List (Turn μ)}
    {exit : LoopExit}
    (left : downloadLoop callback transfer turns = some (exit, after))
    (before : holds transfer.ota) : holds after.ota := by
  induction turns generalizing transfer with
  | nil => cases left
  | cons turn turns inductionHypothesis =>
      unfold downloadLoop at left
      split at left
      · cases left
      · rename_i next fetches
        cases left
        exact stable.fetch fetches before
      · rename_i bytes next fetches
        have fetched := stable.fetch fetches before
        split at left
        · split at left
          · cases left
          · rename_i middle handled
            have yielded := yield keeps handled fetched
            dsimp only at left
            split at left
            · cases left
              exact yielded
            · exact inductionHypothesis left yielded
        · cases left
          exact fetched

theorem download {ota : OtaStruct} {env : Download μ} {result : DownloadResult}
    (returns : iotOtaFwDownload callback ota env = some result)
    (before : holds ota) : holds result.ota := by
  have sized := stable.size ota before
  unfold iotOtaFwDownload at returns
  dsimp only at returns
  split at returns
  · split at returns
    · cases returns
    · rename_i ret transfer left
      cases returns
      exact stable.clear _ (stable.loop keeps left sized)
    · rename_i transfer left
      obtain ⟨⟨ret, ended⟩, finished, same⟩ :=
        Option.map_eq_some_iff.mp returns
      obtain ⟨md5, err, rfl⟩ := downloadFinish_eq finished
      rw [← same]
      exact stable.clear _
        (stable.finish _ md5 err (stable.loop keeps left sized))
  · cases returns
    exact stable.clear _ sized

theorem popped {ota after : OtaStruct} {next : Option μ}
    (handled : otaPopUploadMsg callback ota next = some after)
    (before : holds ota) : holds after := by
  unfold otaPopUploadMsg at handled
  split at handled
  · obtain rfl : ota = after := Option.some.inj handled
    exact before
  · rename_i msg msgList waiting
    obtain ⟨env, -, called⟩ := Option.bind_eq_some_iff.mp handled
    exact keeps _ _ _ _ called (stable.pop ota msg msgList waiting before)

theorem update {ota after : OtaStruct} {msgStr : List UInt8}
    {env : Processing μ}
    (outcome : UpdateOutcome callback ota msgStr env after)
    (before : holds ota) : holds after := by
  cases outcome with
  | queued fetching pushed =>
      rcases otaPushUploadMsg_cases pushed with same | same
      · rw [same]
        exact before
      · rw [same]
        exact stable.push ota msgStr before
  | refused idle params => exact stable.refuse idle params before
  | unopened parsed idle params opens same =>
      rw [same]
      exact (stable.accept params before).1
  | unconnected parsed idle params opens connects same =>
      rw [same]
      exact (stable.accept params before).2 .disconnected
  | downloaded parsed result ended idle params opens connects returns ends
      pops =>
      have downloaded := stable.download keeps returns
        ((stable.accept params before).2 .fetching)
      refine stable.popped keeps pops ?_
      rw [ends]
      split
      · exact downloaded
      · exact stable.disconnect _ downloaded

theorem message {ota after : OtaStruct} {msg : List UInt8}
    {env : Processing μ}
    (handled : handleMessage callback ota msg env = some after)
    (before : holds ota) : holds after := by
  have read := stable.read ota before
  cases handleMessage_outcome handled with
  | unread _ same =>
      rw [same]
      exact before
  | ignored _ same =>
      rw [same]
      exact read
  | updates _ _ outcome => exact stable.update keeps outcome read
  | cancels _ _ canceled => exact stable.cancel canceled read

end Nesting

/-- Messages keep it however deep they are nested. -/
theorem callback (depth : Nat) :
    ∀ ota msg env after, otaCallback depth ota msg env = some after →
      holds ota → holds after := by
  induction depth with
  | zero => exact fun _ _ env => nomatch env
  | succ depth inductionHypothesis =>
      intro ota msg env after handled before
      exact stable.message inductionHypothesis handled before

theorem perform {ota after : OtaStruct} {action : Action}
    (performed : action.perform ota = some after) (before : holds ota) :
    holds after := by
  cases action with
  | message depth msg env => exact stable.callback _ _ _ _ _ performed before
  | download depth env =>
      obtain ⟨result, returns, same⟩ := Option.map_eq_some_iff.mp performed
      rw [← same]
      exact stable.download (stable.callback depth) returns before
  | clear =>
      cases performed
      exact stable.clear ota before

/-- Whole runs keep it. -/
theorem run {ota after : OtaStruct} {actions : List Action}
    (returns : Ota.run ota actions = some after) (before : holds ota) :
    holds after := by
  induction actions generalizing ota with
  | nil =>
      obtain rfl : ota = after := Option.some.inj returns
      exact before
  | cons action actions inductionHypothesis =>
      obtain ⟨middle, performed, rest⟩ := run_cons returns
      exact inductionHypothesis rest (stable.perform performed before)

end Stable

/-! ## First in, first out -/

theorem fifo_stable : Stable fun ota => Fifo ota.queue where
  read ota fifo := by rwa [readChFetch_queue]
  size ota fifo := by
    unfold ioctlFileSize
    split
    · exact fifo
    · exact fifo
  fetch {_ ota after _ _} fetched fifo := by
    have queue : after.queue = ota.queue :=
      congrArg Aside.queue (iotOtaFetchYield_aside fetched)
    rwa [queue]
  finish _ _ _ fifo := fifo
  clear ota fifo := by rwa [iotOtaClear_queue]
  disconnect _ fifo := fifo
  push ota msgStr fifo := by
    have before : ota.queued = ota.popped ++ ota.msgList := fifo
    change ota.queued ++ [msgStr] = ota.popped ++ (ota.msgList ++ [msgStr])
    rw [before, List.append_assoc]
  pop ota msg msgList waiting fifo := by
    have before : ota.queued = ota.popped ++ ota.msgList := fifo
    change ota.queued = ota.popped ++ [msg] ++ msgList
    rw [before, waiting, List.append_assoc]
    rfl
  refuse {ota parsed msgStr copies downloadName} _ params fifo := by
    have queue : parsed.queue = ota.queue := by
      rw [← otaLibGetParams_queue ota msgStr copies downloadName, params]
    rwa [queue]
  accept {ota parsed msgStr copies downloadName} params fifo := by
    have queue : parsed.queue = ota.queue := by
      rw [← otaLibGetParams_queue ota msgStr copies downloadName, params]
    have kept : Fifo parsed.queue := by rwa [queue]
    exact ⟨kept, fun _ => kept⟩
  cancel canceled fifo := by rwa [cancelUpdate_queue canceled]

/-! ## Names -/

/-- A handle with a download channel, or one that fetches, has a module and a
version. -/
def Named (ota : OtaStruct) : Prop :=
  ota.chFetch ≠ none ∨ ota.state = .fetching →
    ota.module.isSome ∧ ota.version.isSome

theorem names_of_aside {ota after : OtaStruct} (same : after.aside = ota.aside)
    (names : ota.module.isSome ∧ ota.version.isSome) :
    after.module.isSome ∧ after.version.isSome := by
  have module : after.module = ota.module := congrArg Aside.module same
  have version : after.version = ota.version := congrArg Aside.version same
  rwa [module, version]

/-- Parameters are set, and not taken away; all of them are set in the end. -/
theorem otaLibGetParams_names {ota parsed : OtaStruct} {msgStr : List UInt8}
    {copies : Copies} {downloadName : Option (List UInt8)} {accepted : Bool}
    (params : otaLibGetParams ota msgStr copies downloadName =
      (accepted, parsed)) :
    (ota.module.isSome → parsed.module.isSome) ∧
      (ota.version.isSome → parsed.version.isSome) ∧
      (accepted = true → parsed.module.isSome ∧ parsed.version.isSome) := by
  unfold otaLibGetParams at params
  dsimp only at params
  repeat' split at params
  all_goals
    obtain ⟨rfl, rfl⟩ := Prod.mk.inj params
    simp

theorem named_stable : Stable Named where
  read ota named := by
    intro given
    rw [readChFetch_chFetch, readChFetch_state] at given
    exact names_of_aside (readChFetch_aside ota) (named given)
  size ota named := by
    unfold ioctlFileSize
    split
    · exact named
    · exact named
  fetch {μ ota after turn received} fetched named := by
    by_cases fetching : ota.state = .fetching
    · intro _
      exact names_of_aside (iotOtaFetchYield_aside fetched)
        (named (.inr fetching))
    · unfold iotOtaFetchYield at fetched
      rw [if_pos fetching] at fetched
      cases fetched
      exact named
  finish _ _ _ named := named
  clear ota named := by
    rintro (channel | fetching)
    · have present : ota.chFetch ≠ none := readChFetch_chFetch ota ▸ channel
      simpa [iotOtaClear] using named (.inl present)
    · cases fetching
  disconnect ota named := by
    rintro (channel | fetching)
    · exact named (.inl channel)
    · cases fetching
  push _ _ named := named
  pop _ _ _ _ named := named
  refuse {ota parsed msgStr copies downloadName} idle params named := by
    obtain ⟨module, version, -⟩ := otaLibGetParams_names params
    have channel := (otaLibGetParams_channel ota msgStr copies downloadName).1
    have state := (otaLibGetParams_kept ota msgStr copies downloadName).1
    rw [params] at channel state
    dsimp only at channel state
    intro given
    rw [channel, state] at given
    have names := named given
    exact ⟨module names.1, version names.2⟩
  accept params _ := by
    have names := (otaLibGetParams_names params).2.2 rfl
    exact ⟨fun _ => names, fun _ _ => names⟩
  cancel {ota after msgStr copies} canceled named := by
    rcases cancelUpdate_cases canceled with same | closed
    · rw [same]
      exact named
    · rw [closed]
      rintro (channel | fetching)
      · have present : ota.chFetch ≠ none := readChFetch_chFetch ota ▸ channel
        exact names_of_aside (readChFetch_aside ota) (named (.inl present))
      · cases fetching

/-- A handle with names has an outcome for every message that cancels. -/
theorem cancelUpdate_returns {ota : OtaStruct}
    (names : ota.module.isSome ∧ ota.version.isSome) (msgStr : List UInt8)
    (copies : Copies) :
    ∃ after, cancelUpdate ota msgStr copies = some after := by
  obtain ⟨module, hasModule⟩ := Option.isSome_iff_exists.mp names.1
  obtain ⟨version, hasVersion⟩ := Option.isSome_iff_exists.mp names.2
  unfold cancelUpdate
  split
  · exact ⟨ota, rfl⟩
  · rw [hasModule, Option.bind_some]
    split
    · rw [hasVersion, Option.bind_some]
      split <;> exact ⟨_, rfl⟩
    · exact ⟨ota, rfl⟩

/-! ## Draining the queue -/

/-- The handling of a message on an idle handle gets as far as a download. -/
def Processing.downloads {μ : Type} (env : Processing μ) (msg : List UInt8) :
    Bool :=
  env.effect msg = .clears

/-- The handle when the download of an update is over. -/
def afterDownload {μ : Type}
    (callback : OtaStruct → List UInt8 → μ → Option OtaStruct)
    (ota : OtaStruct) (msg : List UInt8) (env : Processing μ) :
    Option OtaStruct :=
  let parsed := (otaLibGetParams (readChFetch ota) (cString msg) env.copies
    env.downloadName).2
  (iotOtaFwDownload callback { ofcInit parsed true with state := .fetching }
    env.download).map fun result =>
      if result.ret = .successRet then result.ota
      else { result.ota with state := .disconnected }

/-- No message stops before its download, while others wait in the queue, and
every download comes to its end: that of the first one, and those of all taken
from the queue after it. -/
def Drains : (depth : Nat) → OtaStruct → List UInt8 → Handling depth → Prop
  | 0, _, _, env => env.elim
  | depth + 1, ota, msg, env =>
      if Processing.downloads env msg then
        ∃ ended, afterDownload (otaCallback depth) ota msg env = some ended ∧
          (ended.msgList = [] ∨
            ∃ next msgList nextEnv, ended.msgList = next :: msgList ∧
              Processing.next env = some nextEnv ∧
              Drains depth
                { ended with msgList, popped := ended.popped ++ [next] }
                next nextEnv)
      else ota.msgList = []

section Nesting

variable {μ : Type} {callback : OtaStruct → List UInt8 → μ → Option OtaStruct}

/-- What it takes to get as far as a download. -/
theorem downloads_iff (env : Processing μ) (msg : List UInt8) :
    env.downloads msg = true ↔
      env.msgStrAllocated = true ∧
        otaLibGetMsgType (cString msg) env.copies =
          some updateFirmwareMethod ∧
        (otaLibGetParams iotOtaInit (cString msg) env.copies none).1 = true ∧
        env.ofcAllocated = true ∧ env.connected = true := by
  unfold Processing.downloads Processing.effect Processing.updateEffect
  cases env.ofcAllocated <;> cases env.connected <;>
    simp <;> grind

/-- A message that gets as far as a download takes the next one from the queue
where the download comes to its end. -/
theorem handleMessage_downloads {ota : OtaStruct}
    (idle : ota.state ≠ .fetching) {msg : List UInt8} {env : Processing μ}
    (downloads : env.downloads msg = true) :
    handleMessage callback ota msg env =
      (afterDownload callback ota msg env).bind fun ended =>
        otaPopUploadMsg callback ended env.next := by
  obtain ⟨copied, update, complete, opens, connects⟩ :=
    (downloads_iff env msg).mp downloads
  have other : ¬((readChFetch ota).chFetch = none ∧
      updateFirmwareMethod = cancelUpdateMethod) :=
    fun cancel => cancelUpdateMethod_ne cancel.2.symm
  have readIdle : (readChFetch ota).state ≠ .fetching := by
    rw [readChFetch_state]
    exact idle
  rw [← otaLibGetParams_accepts (readChFetch ota) _ _ env.downloadName]
    at complete
  unfold handleMessage afterDownload
  rw [if_pos copied]
  dsimp only
  rw [update]
  dsimp only
  rw [if_neg other, if_pos rfl]
  unfold updateFirmware
  rw [if_neg readIdle]
  generalize otaLibGetParams (readChFetch ota) (cString msg) env.copies
    env.downloadName = params at complete ⊢
  obtain ⟨accepted, parsed⟩ := params
  obtain rfl : accepted = true := complete
  have opened : (ofcInit parsed true).chFetch ≠ none := Option.some_ne_none _
  dsimp only
  rw [opens, if_neg opened, connects, if_pos rfl]
  cases iotOtaFwDownload callback
    { ofcInit parsed true with state := .fetching } env.download <;> rfl

/-- An update that stops before its download leaves the queue alone. -/
theorem updateFirmware_stops {ota : OtaStruct} (idle : ota.state ≠ .fetching)
    {msgStr : List UInt8} {env : Processing μ}
    (stops : ¬((otaLibGetParams ota msgStr env.copies
      env.downloadName).1 = true ∧ env.ofcAllocated = true ∧
        env.connected = true)) :
    ∃ after, updateFirmware callback ota msgStr env = some after ∧
      after.queue = ota.queue := by
  have queue := otaLibGetParams_queue ota msgStr env.copies env.downloadName
  unfold updateFirmware
  rw [if_neg idle]
  generalize otaLibGetParams ota msgStr env.copies env.downloadName = params
    at stops queue ⊢
  obtain ⟨accepted, parsed⟩ := params
  cases accepted with
  | false => exact ⟨parsed, rfl, queue⟩
  | true =>
      dsimp only at stops queue ⊢
      cases opens : env.ofcAllocated with
      | false => exact ⟨ofcInit parsed false, rfl, queue⟩
      | true =>
          have opened : (ofcInit parsed true).chFetch ≠ none :=
            Option.some_ne_none _
          rw [if_neg opened]
          cases connects : env.connected with
          | false => exact ⟨_, rfl, queue⟩
          | true => exact absurd ⟨rfl, opens, connects⟩ stops

/-- A message that stops before a download returns and leaves the queue
alone. -/
theorem handleMessage_stops {ota : OtaStruct} (idle : ota.state ≠ .fetching)
    (named : Named ota) {msg : List UInt8} {env : Processing μ}
    (stops : env.downloads msg = false) :
    ∃ after, handleMessage callback ota msg env = some after ∧
      after.queue = ota.queue := by
  have read := readChFetch_queue ota
  unfold handleMessage
  split
  · rename_i copied
    dsimp only
    split
    · exact ⟨ota, rfl, rfl⟩
    · rename_i method called
      split
      · exact ⟨readChFetch ota, rfl, read⟩
      · rename_i cancelable
        split
        · rename_i update
          rw [← read]
          apply updateFirmware_stops
          · rw [readChFetch_state]
            exact idle
          · rintro ⟨complete, opens, connects⟩
            rw [otaLibGetParams_accepts] at complete
            rw [update] at called
            have downloads := (downloads_iff env msg).mpr
              ⟨copied, called, complete, opens, connects⟩
            exact Bool.false_ne_true (stops.symm.trans downloads)
        · split
          · rename_i cancel
            have present : (readChFetch ota).chFetch ≠ none :=
              fun none => cancelable ⟨none, cancel⟩
            obtain ⟨after, canceled⟩ := cancelUpdate_returns
              (named_stable.read ota named (.inl present)) (cString msg)
              env.copies
            exact ⟨after, canceled, (cancelUpdate_queue canceled).trans read⟩
          · exact ⟨readChFetch ota, rfl, read⟩
  · exact ⟨ota, rfl, rfl⟩

end Nesting

/-- A message on an idle handle leaves it idle. -/
theorem otaCallback_idle {depth : Nat} {ota after : OtaStruct}
    {msg : List UInt8} {env : Handling depth} (idle : ota.state ≠ .fetching)
    (handled : otaCallback depth ota msg env = some after) :
    after.state ≠ .fetching := by
  cases otaCallback_keeps depth _ _ _ _ handled with
  | settled ended => exact ended.not_fetching
  | kept state =>
      rw [state]
      exact idle

theorem afterDownload_settled {μ : Type}
    {callback : OtaStruct → List UInt8 → μ → Option OtaStruct}
    {ota ended : OtaStruct} {msg : List UInt8} {env : Processing μ}
    (returned : afterDownload callback ota msg env = some ended) :
    Settled ended := by
  obtain ⟨result, returns, ends⟩ := Option.map_eq_some_iff.mp returned
  exact ended_settled returns ends.symm

theorem afterDownload_named {depth : Nat} {ota ended : OtaStruct}
    {msg : List UInt8} {env : Processing (Handling depth)} (named : Named ota)
    (downloads : env.downloads msg = true)
    (returned : afterDownload (otaCallback depth) ota msg env = some ended) :
    Named ended := by
  obtain ⟨-, -, complete, -, -⟩ := (downloads_iff env msg).mp downloads
  rw [← otaLibGetParams_accepts (readChFetch ota) _ _ env.downloadName]
    at complete
  have params : otaLibGetParams (readChFetch ota) (cString msg) env.copies
      env.downloadName = (true, (otaLibGetParams (readChFetch ota)
        (cString msg) env.copies env.downloadName).2) :=
    Prod.ext complete rfl
  obtain ⟨result, returns, ends⟩ := Option.map_eq_some_iff.mp returned
  have opened := (named_stable.accept params (named_stable.read ota named)).2
    .fetching
  have downloaded := named_stable.download (named_stable.callback depth)
    returns opened
  rw [← ends]
  split
  · exact downloaded
  · exact named_stable.disconnect _ downloaded

/-- A message returns with an empty queue exactly where it drains it. -/
theorem otaCallback_drains {depth : Nat} {ota : OtaStruct} {msg : List UInt8}
    {env : Handling depth} (idle : ota.state ≠ .fetching)
    (named : Named ota) :
    (∃ after, otaCallback depth ota msg env = some after ∧
      after.msgList = []) ↔ Drains depth ota msg env := by
  induction depth generalizing ota msg with
  | zero => exact nomatch env
  | succ depth inductionHypothesis =>
      change (∃ after, handleMessage (otaCallback depth) ota msg env =
        some after ∧ after.msgList = []) ↔ _
      unfold Drains
      cases downloads : Processing.downloads env msg with
      | false =>
          obtain ⟨after, handled, kept⟩ :
              ∃ after, handleMessage (otaCallback depth) ota msg env =
                some after ∧ after.queue = ota.queue :=
            handleMessage_stops idle named downloads
          have list : after.msgList = ota.msgList :=
            congrArg QueueView.msgList kept
          rw [handled, if_neg Bool.false_ne_true, ← list]
          simp
      | true =>
          rw [handleMessage_downloads idle downloads, if_pos rfl]
          cases returned : afterDownload (otaCallback depth) ota msg env with
          | none => simp
          | some ended =>
              have endedIdle := (afterDownload_settled returned).not_fetching
              have endedNamed : Named ended :=
                afterDownload_named named downloads returned
              rw [Option.bind_some]
              unfold otaPopUploadMsg
              cases waiting : ended.msgList with
              | nil => simp [waiting]
              | cons next msgList =>
                  have takenIdle : { ended with
                      msgList, popped := ended.popped ++ [next] }.state ≠
                        .fetching := endedIdle
                  dsimp only
                  cases given : Processing.next env with
                  | none => simp [waiting]
                  | some nextEnv =>
                      rw [Option.bind_some,
                        inductionHypothesis takenIdle endedNamed]
                      simp [waiting]

/-! ## Whole runs -/

/-- An action leaves an idle handle idle. -/
theorem Action.perform_idle {ota after : OtaStruct} {action : Action}
    (idle : ota.state ≠ .fetching)
    (performed : action.perform ota = some after) :
    after.state ≠ .fetching := by
  cases action with
  | message depth msg env => exact otaCallback_idle idle performed
  | download depth env =>
      obtain ⟨result, returns, same⟩ := Option.map_eq_some_iff.mp performed
      obtain ⟨before, cleared⟩ := iotOtaFwDownload_cleared returns
      rw [← same, cleared]
      nofun
  | clear =>
      cases performed
      nofun

theorem run_idle {ota after : OtaStruct} (idle : ota.state ≠ .fetching)
    {actions : List Action} (returns : run ota actions = some after) :
    after.state ≠ .fetching := by
  induction actions generalizing ota with
  | nil =>
      obtain rfl : ota = after := Option.some.inj returns
      exact idle
  | cons action actions inductionHypothesis =>
      obtain ⟨middle, performed, rest⟩ := run_cons returns
      exact inductionHypothesis (Action.perform_idle idle performed) rest

/-- An update message without its last parameter. -/
def incompleteMessage : List UInt8 :=
  ascii "\x7b\"Method\":\"update_firmware\",\"Payload\":\x7b\"Module\":\"m\"," ++
    ascii "\"Version\":\"1\",\"URL\":\"u\",\"MD5\":\"d\"\x7d\x7d"

/-- An update message for two bytes. -/
def updateTwoMessage : List UInt8 :=
  ascii "\x7b\"Method\":\"update_firmware\",\"Payload\":\x7b\"Module\":\"m\"," ++
    ascii "\"Version\":\"1\",\"URL\":\"u\",\"MD5\":\"d\",\"Size\":2\x7d\x7d"

/-- A round of one byte, or one without, and the messages that come in it. -/
def turnWith (received : Bool)
    (messages : List (List UInt8 × Handling 1)) : Turn (Handling 1) where
  attempts _ :=
    ⟨if received then .received [1] one_fits
      else .failed .failureRet failureRet_negative, true, true⟩
  firstReport := .sent
  hasExpired := false
  progressReport := .sent
  written := true
  messages := messages

/-- A download that fails after its first byte; meanwhile two updates come, the
first of them incomplete. -/
def interruptedHandling : Handling 2 where
  msgStrAllocated := true
  copies := .all
  entryAllocated := true
  pushAllocated := true
  downloadName := none
  ofcAllocated := true
  connected := true
  download :=
    { downloadInit := true
      bufferAllocated := true
      turns :=
        [turnWith true
          [(incompleteMessage, updateHandling true),
            (updateMessage, updateHandling true)],
          turnWith false []]
      firmwareValid := false
      failAllocated := true
      successReport := .sent
      downloadEnd := true }
  next := some (updateHandling true)

end Ota
end UIoT
