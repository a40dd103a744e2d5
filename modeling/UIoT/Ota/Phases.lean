import UIoT.Ota.Client

/-!
# Phases of a download

What the messages handled inside a download can do to it: they leave it alone,
or they end it.  A handle that is neither fetching nor fetched stays so.
-/

namespace UIoT
namespace Ota

open Json (cString)

/-- The data of the transfer in progress. -/
structure Content where
  sizeFetched : UInt32
  sizeFile : UInt32
  md5sum : Option (List UInt8)
  md5 : Md5.Context

/-- The data of the transfer in progress in a handle. -/
def OtaStruct.content (ota : OtaStruct) : Content :=
  ⟨ota.sizeFetched, ota.sizeFile, ota.md5sum, ota.md5⟩

/-- No download is in progress, and none has come to its end. -/
def Settled (ota : OtaStruct) : Prop :=
  ota.state = .inited ∨ ota.state = .disconnected

/-! ## Calls that leave the transfer alone -/

@[simp] theorem readChFetch_state (ota : OtaStruct) :
    (readChFetch ota).state = ota.state := by
  unfold readChFetch
  split
  · rfl
  · split <;> rfl

@[simp] theorem readChFetch_content (ota : OtaStruct) :
    (readChFetch ota).content = ota.content := by
  unfold readChFetch
  split
  · rfl
  · split <;> rfl

@[simp] theorem ofcDeinit_content (ota : OtaStruct) :
    (ofcDeinit ota).content = ota.content :=
  readChFetch_content ota

@[simp] theorem ofcInit_content (ota : OtaStruct) (allocated : Bool) :
    (ofcInit ota allocated).content = ota.content := by
  cases allocated <;> rfl

@[simp] theorem ofcInit_state (ota : OtaStruct) (allocated : Bool) :
    (ofcInit ota allocated).state = ota.state := by
  cases allocated <;> rfl

@[simp] theorem report_content (ota : OtaStruct) (outcome : ReportOutcome) :
    (report ota outcome).content = ota.content := by
  cases outcome <;> rfl

@[simp] theorem report_state (ota : OtaStruct) (outcome : ReportOutcome) :
    (report ota outcome).state = ota.state := by
  cases outcome <;> rfl

@[simp] theorem iotOtaReportProgress_content (ota : OtaStruct)
    (progress : UInt32) (outcome : ReportOutcome) :
    (iotOtaReportProgress ota progress outcome).content = ota.content := by
  unfold iotOtaReportProgress
  dsimp only
  split
  · rfl
  · split
    · rfl
    · rw [report_content]
      rfl

@[simp] theorem iotOtaReportProgress_state (ota : OtaStruct)
    (progress : UInt32) (outcome : ReportOutcome) :
    (iotOtaReportProgress ota progress outcome).state = ota.state := by
  unfold iotOtaReportProgress
  dsimp only
  split
  · rfl
  · split
    · rfl
    · rw [report_state]

/-- A report of a failure that has an outcome found no memory for its
message. -/
theorem iotOtaReportFail_eq {ota after : OtaStruct} {allocated : Bool}
    (reported : iotOtaReportFail ota allocated = some after) :
    ∃ err, err ≠ .successRet ∧ after = { ota with err } := by
  unfold iotOtaReportFail at reported
  split at reported
  · exact ⟨.errOtaInvalidState, nofun, (Option.some.inj reported).symm⟩
  · split at reported
    · cases reported
    · exact ⟨.errOtaNoMemory, nofun, (Option.some.inj reported).symm⟩

/-- What a failed attempt leaves: a new handle after a lost connection,
otherwise the state of a finished download and an error. -/
theorem fetchFailed_cases {ota after : OtaStruct} {ret : IoTError}
    {attempt : Attempt} (failed : fetchFailed ota ret attempt = some after) :
    (ret = .errHttpConnError ∧ ota.state ≠ .disconnected ∧
        after = { ofcInit (ofcDeinit ota) true with state := .fetching }) ∨
      (¬(ret = .errHttpConnError ∧ ota.state ≠ .disconnected) ∧
        ∃ err, after = { ota with state := .fetched, err }) := by
  unfold fetchFailed at failed
  split at failed
  · rename_i lost
    split at failed
    · exact .inl ⟨lost.1, lost.2, (Option.some.inj failed).symm⟩
    · cases failed
  · rename_i other
    refine .inr ⟨other, ?_⟩
    dsimp only at failed
    split at failed
    · obtain ⟨err, -, same⟩ := iotOtaReportFail_eq failed
      exact ⟨err, same⟩
    · exact ⟨.errOtaFetchFailed, (Option.some.inj failed).symm⟩

theorem fetchFailed_content {ota after : OtaStruct} {ret : IoTError}
    {attempt : Attempt} (failed : fetchFailed ota ret attempt = some after) :
    after.content = ota.content := by
  rcases fetchFailed_cases failed with ⟨-, -, same⟩ | ⟨-, err, same⟩
  · rw [same]
    calc
      (ofcInit (ofcDeinit ota) true).content = (ofcDeinit ota).content :=
        ofcInit_content _ _
      _ = ota.content := ofcDeinit_content ota
  · rw [same]
    rfl

/-! ## One round of fetching -/

/-- The bytes of the first attempt that does not fail, and whether the attempt
before it failed otherwise than by a lost connection. -/
def arrivalFrom (stumbled : Bool) : List Attempt → Option (Bool × List UInt8)
  | [] => none
  | attempt :: attempts =>
      match attempt.result with
      | .received bytes _ => some (stumbled, bytes)
      | .failed ret _ => arrivalFrom (ret ≠ .errHttpConnError) attempts

/-- What arrives in one round of the download loop. -/
def Turn.arrival {μ : Type} (turn : Turn μ) : Option (Bool × List UInt8) :=
  match arrivalFrom false (List.ofFn turn.attempts) with
  | some (stumbled, byte :: bytes) => some (stumbled, byte :: bytes)
  | _ => none

/-- The state in which the retry loop goes on after a failure. -/
def phaseOf (stumbled : Bool) : OtaState :=
  if stumbled then .fetched else .fetching

/-- A failure leaves the state of a finished download, except where the
connection was lost. -/
theorem fetchFailed_state {ota after : OtaStruct} {stumbled : Bool}
    (phase : ota.state = phaseOf stumbled) {ret : IoTError}
    {attempt : Attempt} (failed : fetchFailed ota ret attempt = some after) :
    after.state = phaseOf (ret ≠ .errHttpConnError) := by
  have connected : ota.state ≠ .disconnected := by
    rw [phase]
    cases stumbled <;> decide
  rcases fetchFailed_cases failed with ⟨lost, -, same⟩ | ⟨other, err, same⟩
  · rw [same, lost]
    rfl
  · have kept : ret ≠ .errHttpConnError := fun lost => other ⟨lost, connected⟩
    rw [same, decide_eq_true kept]
    rfl

/-- The retry loop ends with the bytes of the first attempt that does not fail,
and in the state the last failure has left. -/
theorem fetchRetry_eq {ota after : OtaStruct} {stumbled : Bool}
    (phase : ota.state = phaseOf stumbled) {firstReport : ReportOutcome}
    {last result : FetchResult} {attempts : List Attempt}
    (ended : fetchRetry ota firstReport last attempts =
      some (result, after)) :
    after.content = ota.content ∧
      match arrivalFrom stumbled attempts with
      | some (stumbled, bytes) =>
          after.state = phaseOf stumbled ∧ ∃ fits, result = .received bytes fits
      | none => attempts = [] ∧ result = last ∨
          ∃ ret negative, result = .failed ret negative := by
  induction attempts generalizing ota stumbled last with
  | nil =>
      cases ended
      exact ⟨rfl, .inl ⟨rfl, rfl⟩⟩
  | cons attempt attempts inductionHypothesis =>
      unfold fetchRetry at ended
      unfold arrivalFrom
      dsimp only at ended ⊢
      cases outcome : attempt.result with
      | received bytes fits =>
          rw [outcome] at ended
          dsimp only at ended ⊢
          obtain ⟨rfl, rfl⟩ := Prod.mk.inj (Option.some.inj ended)
          split
          · exact ⟨by simp, by simpa using phase, fits, rfl⟩
          · exact ⟨by simp, by simpa using phase, fits, rfl⟩
      | failed ret negative =>
          rw [outcome] at ended
          obtain ⟨middle, failed, later⟩ := Option.bind_eq_some_iff.mp ended
          have phaseRead : (readChFetch ota).state = phaseOf stumbled := by
            rw [readChFetch_state, phase]
          obtain ⟨content, rest⟩ :=
            inductionHypothesis (fetchFailed_state phaseRead failed) later
          rw [fetchFailed_content failed, readChFetch_content] at content
          refine ⟨content, ?_⟩
          dsimp only at rest ⊢
          split at rest
          · exact rest
          · rcases rest with ⟨-, same⟩ | still
            · exact .inr ⟨ret, negative, same⟩
            · exact .inr still

/-- The transfer with further bytes. -/
def Content.arrived (content : Content) (bytes : List UInt8) : Content :=
  { content with
    sizeFetched := content.sizeFetched + UInt32.ofNat bytes.length
    md5 := Md5.utilsMd5Update content.md5 bytes }

section Rounds

variable {μ : Type}

@[simp] theorem countFetched_content (ota : OtaStruct)
    (bytes : List UInt8) :
    (countFetched ota bytes).content = ota.content.arrived bytes := rfl

@[simp] theorem reportFetched_content (ota : OtaStruct) (turn : Turn μ) :
    (reportFetched ota turn).content = ota.content := by
  unfold reportFetched
  dsimp only
  split
  · rw [iotOtaReportProgress_content]
  · rfl

@[simp] theorem reportFetched_state (ota : OtaStruct) (turn : Turn μ) :
    (reportFetched ota turn).state = ota.state := by
  unfold reportFetched
  dsimp only
  split
  · rw [iotOtaReportProgress_state]
  · rfl

@[simp] theorem fetchArrived_content (ota : OtaStruct) (turn : Turn μ)
    (bytes : List UInt8) :
    (fetchArrived ota turn bytes).content = ota.content.arrived bytes := by
  have content : (reportFetched (countFetched ota bytes) turn).content =
      ota.content.arrived bytes := by
    rw [reportFetched_content, countFetched_content]
  unfold fetchArrived
  dsimp only
  split
  · exact content
  · exact content

/-- The round that brings the bytes to the announced number finishes. -/
theorem fetchArrived_state (ota : OtaStruct) (turn : Turn μ)
    (bytes : List UInt8) :
    (fetchArrived ota turn bytes).state =
      if (ota.content.arrived bytes).sizeFile ≤
          (ota.content.arrived bytes).sizeFetched then .fetched
      else ota.state := by
  have content : (reportFetched (countFetched ota bytes) turn).content =
      ota.content.arrived bytes := by
    rw [reportFetched_content, countFetched_content]
  have state : (reportFetched (countFetched ota bytes) turn).state =
      ota.state := reportFetched_state _ _
  rw [← content, ← state]
  exact apply_ite OtaStruct.state _ _ _

/-- A round is the last one: its bytes came after a failed attempt, or they
bring the number fetched to the announced one. -/
def LastRound (content : Content) (stumbled : Bool) (bytes : List UInt8) :
    Prop :=
  stumbled = true ∨
    (content.arrived bytes).sizeFile ≤ (content.arrived bytes).sizeFetched

instance (content : Content) (stumbled : Bool) (bytes : List UInt8) :
    Decidable (LastRound content stumbled bytes) :=
  inferInstanceAs (Decidable (_ ∨ _))

/-- One round of fetching: what arrives, and in which state it leaves the
handle. -/
theorem iotOtaFetchYield_eq {ota after : OtaStruct}
    (fetching : ota.state = .fetching) {turn : Turn μ}
    {received : Option (List UInt8)}
    (fetched : iotOtaFetchYield ota turn = some (received, after)) :
    match turn.arrival with
    | none => received = none
    | some (stumbled, bytes) =>
        received = some bytes ∧
          after.content = ota.content.arrived bytes ∧
            after.state =
              if LastRound ota.content stumbled bytes then .fetched
              else .fetching := by
  have phase : ota.state = phaseOf false := fetching
  have nonempty : List.ofFn turn.attempts ≠ [] := by
    rw [List.ofFn_succ]
    exact List.cons_ne_nil _ _
  unfold iotOtaFetchYield at fetched
  rw [if_neg (not_not_intro fetching)] at fetched
  obtain ⟨⟨result, last⟩, ended, same⟩ := Option.map_eq_some_iff.mp fetched
  obtain ⟨content, outcome⟩ := fetchRetry_eq phase ended
  unfold Turn.arrival
  cases arrives : arrivalFrom false (List.ofFn turn.attempts) with
  | none =>
      rw [arrives] at outcome
      rcases outcome with ⟨empty, -⟩ | ⟨ret, negative, failed⟩
      · exact absurd empty nonempty
      · rw [failed] at same
        exact (Prod.mk.inj same).1.symm
  | some arrival =>
      obtain ⟨stumbled, bytes⟩ := arrival
      rw [arrives] at outcome
      obtain ⟨state, fits, arrived⟩ := outcome
      rw [arrived, fetchEnded] at same
      cases bytes with
      | nil => exact (Prod.mk.inj same).1.symm
      | cons byte bytes =>
          rw [if_neg (List.cons_ne_nil _ _)] at same
          obtain ⟨rfl, rfl⟩ := Prod.mk.inj same
          refine ⟨rfl, ?_, ?_⟩
          · rw [fetchArrived_content, content]
          · rw [fetchArrived_state, content, state]
            cases stumbled with
            | false => simp [LastRound, phaseOf]
            | true => simp [LastRound, phaseOf]

end Rounds

/-! ## Messages -/

/-- What a message can do to the download in whose course it is handled: end
it, or leave the bytes fetched alone, and everything while it is fetching. -/
inductive Passes (ota after : OtaStruct) : Prop
  | settled : Settled after → Passes ota after
  | kept :
      after.state = ota.state →
      after.sizeFetched = ota.sizeFetched →
      after.md5 = ota.md5 →
      (ota.state = .fetching → after.content = ota.content) →
      Passes ota after

namespace Passes

theorem refl (ota : OtaStruct) : Passes ota ota :=
  .kept rfl rfl rfl fun _ => rfl

theorem of_content {ota after : OtaStruct} (state : after.state = ota.state)
    (content : after.content = ota.content) : Passes ota after :=
  .kept state (congrArg Content.sizeFetched content)
    (congrArg Content.md5 content) fun _ => content

theorem settled_of_settled {ota after : OtaStruct} (passes : Passes ota after)
    (settled : Settled ota) : Settled after := by
  cases passes with
  | settled ended => exact ended
  | kept state => rwa [Settled, state]

theorem trans {ota middle after : OtaStruct} (first : Passes ota middle)
    (second : Passes middle after) : Passes ota after := by
  cases first with
  | settled ended => exact .settled (second.settled_of_settled ended)
  | kept state size md5 content =>
      cases second with
      | settled ended => exact .settled ended
      | kept state' size' md5' content' =>
          refine .kept (state'.trans state) (size'.trans size)
            (md5'.trans md5) ?_
          intro fetching
          exact (content' (state.trans fetching)).trans (content fetching)

end Passes

theorem readChFetch_passes (ota : OtaStruct) : Passes ota (readChFetch ota) :=
  .of_content (readChFetch_state ota) (readChFetch_content ota)

/-- A message is queued at the end, or not at all. -/
theorem otaPushUploadMsg_cases {ota after : OtaStruct} {msgStr : List UInt8}
    {entryAllocated pushAllocated : Bool}
    (pushed : otaPushUploadMsg ota msgStr entryAllocated pushAllocated =
      some after) :
    after = ota ∨
      after =
        { ota with
          msgList := ota.msgList ++ [msgStr]
          queued := ota.queued ++ [msgStr] } := by
  unfold otaPushUploadMsg at pushed
  split at pushed
  · cases pushed
  · split at pushed
    · exact .inr (Option.some.inj pushed).symm
    · exact .inl (Option.some.inj pushed).symm

theorem otaPushUploadMsg_passes {ota after : OtaStruct} {msgStr : List UInt8}
    {entryAllocated pushAllocated : Bool}
    (pushed : otaPushUploadMsg ota msgStr entryAllocated pushAllocated =
      some after) : Passes ota after := by
  rcases otaPushUploadMsg_cases pushed with same | same
  · rw [same]
    exact .refl ota
  · rw [same]
    exact .of_content rfl rfl

/-- A message that cancels closes the client, or it names another firmware. -/
theorem cancelUpdate_cases {ota after : OtaStruct} {msgStr : List UInt8}
    {copies : Copies} (handled : cancelUpdate ota msgStr copies = some after) :
    after = ota ∨
      after =
        { httpClientClose (readChFetch ota) with state := .disconnected } := by
  unfold cancelUpdate at handled
  split at handled
  · exact .inl (Option.some.inj handled).symm
  · obtain ⟨module, -, compared⟩ := Option.bind_eq_some_iff.mp handled
    split at compared
    · obtain ⟨version, -, ended⟩ := Option.bind_eq_some_iff.mp compared
      split at ended
      · exact .inr (Option.some.inj ended).symm
      · exact .inl (Option.some.inj ended).symm
    · exact .inl (Option.some.inj compared).symm

theorem cancelUpdate_passes {ota after : OtaStruct} {msgStr : List UInt8}
    {copies : Copies} (handled : cancelUpdate ota msgStr copies = some after) :
    Passes ota after := by
  rcases cancelUpdate_cases handled with same | closed
  · rw [same]
    exact .refl ota
  · rw [closed]
    exact .settled (.inr rfl)

/-- The parameters of a message say nothing about the bytes fetched. -/
theorem otaLibGetParams_kept (ota : OtaStruct) (msgStr : List UInt8)
    (copies : Copies) (downloadName : Option (List UInt8)) :
    let after := (otaLibGetParams ota msgStr copies downloadName).2
    after.state = ota.state ∧ after.sizeFetched = ota.sizeFetched ∧
      after.md5 = ota.md5 := by
  unfold otaLibGetParams
  dsimp only
  repeat' split
  all_goals exact ⟨rfl, rfl, rfl⟩

section Nesting

variable {μ : Type} {callback : OtaStruct → List UInt8 → μ → Option OtaStruct}

/-- Every message handled so passes through the download it is nested in. -/
def Keeps (callback : OtaStruct → List UInt8 → μ → Option OtaStruct) : Prop :=
  ∀ ota msg env after, callback ota msg env = some after → Passes ota after

/-- The messages of a whole yield pass. -/
theorem iotOtaYield_passes (keeps : Keeps callback) {ota after : OtaStruct}
    {messages : List (List UInt8 × μ)}
    (handled : iotOtaYield callback ota messages = some after) :
    Passes ota after := by
  unfold iotOtaYield at handled
  induction messages generalizing ota with
  | nil =>
      cases handled
      exact .refl _
  | cons message messages inductionHypothesis =>
      rw [List.foldlM_cons] at handled
      obtain ⟨middle, first, rest⟩ := Option.bind_eq_some_iff.mp handled
      exact (keeps _ _ _ _ first).trans (inductionHypothesis rest)

/-- A download that returns has cleared the handle. -/
theorem iotOtaFwDownload_cleared {ota : OtaStruct} {env : Download μ}
    {result : DownloadResult}
    (returns : iotOtaFwDownload callback ota env = some result) :
    ∃ before, result.ota = iotOtaClear before := by
  unfold iotOtaFwDownload at returns
  dsimp only at returns
  split at returns
  · split at returns
    · cases returns
    · cases returns
      exact ⟨_, rfl⟩
    · obtain ⟨ended, -, rfl⟩ := Option.map_eq_some_iff.mp returns
      exact ⟨_, rfl⟩
  · cases returns
    exact ⟨_, rfl⟩

theorem otaPopUploadMsg_passes (keeps : Keeps callback) {ota after : OtaStruct}
    {next : Option μ} (handled : otaPopUploadMsg callback ota next = some after) :
    Passes ota after := by
  unfold otaPopUploadMsg at handled
  split at handled
  · cases handled
    exact .refl ota
  · rename_i msg msgList queue
    obtain ⟨env, -, called⟩ := Option.bind_eq_some_iff.mp handled
    have taken : Passes ota
        { ota with msgList, popped := ota.popped ++ [msg] } :=
      .of_content rfl rfl
    exact taken.trans (keeps _ _ _ _ called)

/-- What becomes of an update message. -/
inductive UpdateOutcome (callback : OtaStruct → List UInt8 → μ → Option OtaStruct)
    (ota : OtaStruct) (msgStr : List UInt8) (env : Processing μ)
    (after : OtaStruct) : Prop
  | queued :
      ota.state = .fetching →
      otaPushUploadMsg ota msgStr env.entryAllocated env.pushAllocated =
        some after →
      UpdateOutcome callback ota msgStr env after
  | refused :
      ota.state ≠ .fetching →
      otaLibGetParams ota msgStr env.copies env.downloadName = (false, after) →
      UpdateOutcome callback ota msgStr env after
  | unopened (parsed : OtaStruct) :
      ota.state ≠ .fetching →
      otaLibGetParams ota msgStr env.copies env.downloadName = (true, parsed) →
      env.ofcAllocated = false →
      after = ofcInit parsed false →
      UpdateOutcome callback ota msgStr env after
  | unconnected (parsed : OtaStruct) :
      ota.state ≠ .fetching →
      otaLibGetParams ota msgStr env.copies env.downloadName = (true, parsed) →
      env.ofcAllocated = true →
      env.connected = false →
      after = { ofcInit parsed true with state := .disconnected } →
      UpdateOutcome callback ota msgStr env after
  | downloaded (parsed : OtaStruct) (result : DownloadResult)
      (ended : OtaStruct) :
      ota.state ≠ .fetching →
      otaLibGetParams ota msgStr env.copies env.downloadName = (true, parsed) →
      env.ofcAllocated = true →
      env.connected = true →
      iotOtaFwDownload callback { ofcInit parsed true with state := .fetching }
        env.download = some result →
      ended = (if result.ret = .successRet then result.ota
        else { result.ota with state := .disconnected }) →
      otaPopUploadMsg callback ended env.next = some after →
      UpdateOutcome callback ota msgStr env after

/-- The outcomes of an update message are all there are. -/
theorem updateFirmware_outcome {ota after : OtaStruct} {msgStr : List UInt8}
    {env : Processing μ}
    (handled : updateFirmware callback ota msgStr env = some after) :
    UpdateOutcome callback ota msgStr env after := by
  unfold updateFirmware at handled
  split at handled
  · rename_i fetching
    exact .queued fetching handled
  · rename_i idle
    split at handled
    · rename_i refused params
      cases handled
      exact .refused idle params
    · rename_i parsed params
      dsimp only at handled
      cases opens : env.ofcAllocated with
      | false =>
          rw [opens] at handled
          cases handled
          exact .unopened parsed idle params opens rfl
      | true =>
          have opened : (ofcInit parsed true).chFetch ≠ none :=
            Option.some_ne_none _
          rw [opens, if_neg opened] at handled
          cases connects : env.connected with
          | false =>
              rw [connects] at handled
              cases handled
              exact .unconnected parsed idle params opens connects rfl
          | true =>
              rw [connects, if_pos rfl] at handled
              split at handled
              · cases handled
              · rename_i result returns
                exact .downloaded parsed result _ idle params opens connects
                  returns rfl handled

/-- What becomes of a message. -/
inductive MessageOutcome
    (callback : OtaStruct → List UInt8 → μ → Option OtaStruct)
    (ota : OtaStruct) (msg : List UInt8) (env : Processing μ)
    (after : OtaStruct) : Prop
  /-- The message cannot be copied or names no method. -/
  | unread :
      env.msgStrAllocated = false ∨
        otaLibGetMsgType (cString msg) env.copies = none →
      after = ota →
      MessageOutcome callback ota msg env after
  /-- The method asks for nothing that can be done. -/
  | ignored :
      otaLibGetMsgType (cString msg) env.copies ≠ some updateFirmwareMethod →
      after = readChFetch ota →
      MessageOutcome callback ota msg env after
  | updates :
      env.msgStrAllocated = true →
      otaLibGetMsgType (cString msg) env.copies = some updateFirmwareMethod →
      UpdateOutcome callback (readChFetch ota) (cString msg) env after →
      MessageOutcome callback ota msg env after
  | cancels :
      otaLibGetMsgType (cString msg) env.copies = some cancelUpdateMethod →
      ota.chFetch ≠ none →
      cancelUpdate (readChFetch ota) (cString msg) env.copies = some after →
      MessageOutcome callback ota msg env after

@[simp] theorem readChFetch_chFetch (ota : OtaStruct) :
    (readChFetch ota).chFetch = ota.chFetch := by
  unfold readChFetch
  split
  · rfl
  · split <;> rfl

theorem cancelUpdateMethod_ne : cancelUpdateMethod ≠ updateFirmwareMethod := by
  decide +kernel

/-- The outcomes of a message are all there are. -/
theorem handleMessage_outcome {ota after : OtaStruct} {msg : List UInt8}
    {env : Processing μ}
    (handled : handleMessage callback ota msg env = some after) :
    MessageOutcome callback ota msg env after := by
  unfold handleMessage at handled
  split at handled
  · rename_i copied
    dsimp only at handled
    split at handled
    · rename_i unnamed
      cases handled
      exact .unread (.inr unnamed) rfl
    · rename_i method named
      rw [readChFetch_chFetch] at handled
      split at handled
      · rename_i canceled
        cases handled
        refine .ignored ?_ rfl
        rw [named, canceled.2]
        exact fun same => cancelUpdateMethod_ne (Option.some.inj same)
      · rename_i cancelable
        split at handled
        · rename_i update
          rw [update] at named
          exact .updates copied named (updateFirmware_outcome handled)
        · rename_i other
          split at handled
          · rename_i cancel
            rw [cancel] at named
            exact .cancels named (fun none => cancelable ⟨none, cancel⟩) handled
          · cases handled
            refine .ignored ?_ rfl
            rw [named]
            exact fun same => other (Option.some.inj same)
  · rename_i uncopied
    cases handled
    exact .unread (.inl (Bool.eq_false_iff.mpr uncopied)) rfl

/-- A download that returns, whatever it returns, leaves an idle handle. -/
theorem ended_settled {ota ended : OtaStruct} {env : Download μ}
    {result : DownloadResult}
    (returns : iotOtaFwDownload callback ota env = some result)
    (ends : ended = if result.ret = .successRet then result.ota
      else { result.ota with state := .disconnected }) :
    Settled ended := by
  obtain ⟨before, cleared⟩ := iotOtaFwDownload_cleared returns
  rw [ends, cleared]
  split
  · exact .inl rfl
  · exact .inr rfl

theorem UpdateOutcome.passes (keeps : Keeps callback) {ota after : OtaStruct}
    {msgStr : List UInt8} {env : Processing μ}
    (outcome : UpdateOutcome callback ota msgStr env after) :
    Passes ota after := by
  have parsing (parsed : OtaStruct) (accepted : Bool)
      (idle : ota.state ≠ .fetching)
      (params : otaLibGetParams ota msgStr env.copies env.downloadName =
        (accepted, parsed)) : Passes ota parsed := by
    have kept := otaLibGetParams_kept ota msgStr env.copies env.downloadName
    rw [params] at kept
    obtain ⟨state, size, md5⟩ := kept
    exact .kept state size md5 fun fetching => absurd fetching idle
  cases outcome with
  | queued fetching pushed => exact otaPushUploadMsg_passes pushed
  | refused idle params => exact parsing after false idle params
  | unopened parsed idle params opens same =>
      rw [same]
      exact (parsing parsed true idle params).trans
        (.of_content (ofcInit_state _ _) (ofcInit_content _ _))
  | unconnected parsed idle params opens connects same =>
      rw [same]
      exact .settled (.inr rfl)
  | downloaded parsed result ended idle params opens connects returns ends
      pops =>
      have settled := ended_settled returns ends
      exact .settled
        ((otaPopUploadMsg_passes keeps pops).settled_of_settled settled)

theorem handleMessage_keeps (keeps : Keeps callback) :
    Keeps (handleMessage callback) := by
  intro ota msg env after handled
  have read := readChFetch_passes ota
  cases handleMessage_outcome handled with
  | unread _ same =>
      rw [same]
      exact .refl ota
  | ignored _ same =>
      rw [same]
      exact read
  | updates _ _ outcome => exact read.trans (outcome.passes keeps)
  | cancels _ _ canceled => exact read.trans (cancelUpdate_passes canceled)

end Nesting

/-- Messages pass through a download however deep they are nested. -/
theorem otaCallback_keeps (depth : Nat) : Keeps (otaCallback depth) := by
  induction depth with
  | zero => exact fun _ _ env => nomatch env
  | succ depth inductionHypothesis =>
      exact handleMessage_keeps inductionHypothesis

end Ota
end UIoT
