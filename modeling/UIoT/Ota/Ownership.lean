import UIoT.Ota.Phases

/-!
# Ownership of the download channel

The handles `ofc_init` returns and what becomes of them until
`IOT_OTA_Destroy`: which runs release each of them once, and read `ch_fetch`
only while its handle lives.
-/

namespace UIoT
namespace Ota

open Json (cString)

/-- Every handle is released once, no NULL is passed to `ofc_deinit` or
`http_client_close`, and no handle is read after its release. -/
structure Owned (channels : ChannelLog) : Prop where
  once : ∀ handle < channels.opened, channels.released.count (some handle) = 1
  noNullRelease : none ∉ channels.released
  noNullClose : none ∉ channels.closed
  fresh : channels.staleReads = []

/-! ## Runs -/

/-- What can happen to a handle between `IOT_OTA_Init` and
`IOT_OTA_Destroy`. -/
inductive Action
  /-- A message, with those nested in it. -/
  | message (depth : Nat) (msg : List UInt8) (env : Handling (depth + 1))
  /-- `IOT_OTA_fw_download`, called by the application. -/
  | download (depth : Nat) (env : Download (Handling depth))
  /-- `IOT_OTA_Clear`, called by the application. -/
  | clear

/-- One action, where it returns. -/
def Action.perform (ota : OtaStruct) : Action → Option OtaStruct
  | .message depth msg env => otaCallback (depth + 1) ota msg env
  | .download depth env =>
      (iotOtaFwDownload (otaCallback depth) ota env).map DownloadResult.ota
  | .clear => some (iotOtaClear ota)

/-- Actions one after the other. -/
def run (ota : OtaStruct) (actions : List Action) : Option OtaStruct :=
  actions.foldlM Action.perform ota

/-- How far an action gets with the download channel of an idle handle. -/
inductive Effect
  /-- It does not reach `ofc_init`. -/
  | inert
  /-- `ofc_init` returns NULL. -/
  | openFailed
  /-- `ofc_connect` fails on a new handle. -/
  | connectFailed
  /-- It comes to `IOT_OTA_Clear`. -/
  | clears
  deriving DecidableEq, Repr

/-- The effect of an update message: it is inert unless it has all its
parameters and they can be copied. -/
def Processing.updateEffect {μ : Type} (env : Processing μ)
    (msgStr : List UInt8) : Effect :=
  if (otaLibGetParams iotOtaInit msgStr env.copies none).1 then
    if !env.ofcAllocated then .openFailed
    else if !env.connected then .connectFailed
    else .clears
  else .inert

/-- The effect of a message: it is inert unless it asks for an update. -/
def Processing.effect {μ : Type} (env : Processing μ) (msg : List UInt8) :
    Effect :=
  if env.msgStrAllocated ∧
      otaLibGetMsgType (cString msg) env.copies =
        some updateFirmwareMethod then
    env.updateEffect (cString msg)
  else .inert

/-- The effect of an action. -/
def Action.effect : Action → Effect
  | .message _ msg env => Processing.effect env msg
  | .download _ _ => .clears
  | .clear => .clears

/-- The handle of exactly one update is opened and cannot be connected; no
update after it gets as far as opening one, and nothing is cleared. -/
def SingleUnconnected (effects : List Effect) : Prop :=
  ∃ count, effects.filter (fun effect => effect ≠ .inert) =
    List.replicate count .openFailed ++ [.connectFailed]

/-! ## Handles gone astray -/

/-- A violation on record. -/
def Violated (channels : ChannelLog) : Prop :=
  none ∈ channels.released ∨ channels.staleReads ≠ []

/-- A handle that is neither released nor referred to any more. -/
def Leaked (ota : OtaStruct) : Prop :=
  ∃ handle < ota.channels.opened,
    some handle ∉ ota.channels.released ∧ ota.chFetch ≠ some handle

/-- `ch_fetch` refers to a handle that has been released. -/
def Dangling (ota : OtaStruct) : Prop :=
  ota.chFetch ≠ none ∧ ota.chFetch ∈ ota.channels.released

/-- There is no way back to a run that keeps track of its handles. -/
def Lost (ota : OtaStruct) : Prop :=
  ota.state ≠ .uninited ∧
    (Violated ota.channels ∨ Leaked ota ∨ Dangling ota)

/-- The part of `Lost` that survives a new value of `ch_fetch`. -/
def Astray (ota : OtaStruct) : Prop :=
  ota.state ≠ .uninited ∧ (Violated ota.channels ∨ Leaked ota)

theorem Astray.lost {ota : OtaStruct} (astray : Astray ota) : Lost ota :=
  ⟨astray.1, astray.2.elim .inl fun leaked => .inr (.inl leaked)⟩

/-- A handle whose channel, pointer and state are the same is as lost. -/
theorem Lost.of_same {ota after : OtaStruct} (lost : Lost ota)
    (state : after.state ≠ .uninited) (chFetch : after.chFetch = ota.chFetch)
    (channels : after.channels = ota.channels) : Lost after := by
  refine ⟨state, ?_⟩
  unfold Leaked Dangling
  rw [chFetch, channels]
  exact lost.2

theorem Astray.of_same {ota after : OtaStruct} (astray : Astray ota)
    (state : after.state ≠ .uninited) (chFetch : after.chFetch = ota.chFetch)
    (channels : after.channels = ota.channels) : Astray after := by
  refine ⟨state, ?_⟩
  unfold Leaked
  rw [chFetch, channels]
  exact astray.2

/-- A read of a dangling `ch_fetch` is on record from then on. -/
theorem Lost.read {ota : OtaStruct} (lost : Lost ota) :
    Astray (readChFetch ota) := by
  obtain ⟨state, strays⟩ := lost
  refine ⟨by rwa [readChFetch_state], ?_⟩
  unfold readChFetch
  cases pointer : ota.chFetch with
  | none =>
      rcases strays with violated | leaked | dangling
      · exact .inl violated
      · exact .inr leaked
      · exact absurd pointer dangling.1
  | some handle =>
      dsimp only
      split
      · exact .inl (.inr (by simp))
      · rename_i alive
        rcases strays with violated | leaked | dangling
        · exact .inl violated
        · exact .inr leaked
        · rw [Dangling, pointer] at dangling
          exact absurd dangling.2 alive

/-- A new value of `ch_fetch` mends nothing. -/
theorem Astray.opened {ota : OtaStruct} (astray : Astray ota)
    (allocated : Bool) : Astray (ofcInit ota allocated) := by
  obtain ⟨state, strays⟩ := astray
  refine ⟨by rwa [ofcInit_state], ?_⟩
  rcases strays with violated | ⟨handle, opened, unreleased, unreferred⟩
  · cases allocated with
    | false => exact .inl violated
    | true => exact .inl violated
  · cases allocated with
    | false => exact .inr ⟨handle, opened, unreleased, nofun⟩
    | true =>
        refine .inr ⟨handle, Nat.lt_succ_of_lt opened, unreleased, ?_⟩
        intro same
        have number : ota.channels.opened = handle := Option.some.inj same
        omega

/-- Whatever `IOT_OTA_Clear` finds, it leaves a handle that is lost. -/
theorem iotOtaClear_lost (ota : OtaStruct) : Lost (iotOtaClear ota) := by
  refine ⟨nofun, ?_⟩
  have released : ota.chFetch ∈ (iotOtaClear ota).channels.released := by
    change ota.chFetch ∈ (readChFetch ota).channels.released ++
      [(readChFetch ota).chFetch]
    rw [readChFetch_chFetch]
    exact List.mem_append_right _ (List.mem_singleton_self _)
  have pointer : (iotOtaClear ota).chFetch = ota.chFetch :=
    readChFetch_chFetch ota
  cases handle : ota.chFetch with
  | none =>
      rw [handle] at released
      exact .inl (.inl released)
  | some number =>
      refine .inr (.inr ⟨?_, ?_⟩)
      · rw [pointer, handle]
        exact Option.some_ne_none number
      · rw [pointer]
        exact released

/-! ## Messages on a lost handle -/

/-- The parameters of a message have no bearing on the channel. -/
theorem otaLibGetParams_channel (ota : OtaStruct) (msgStr : List UInt8)
    (copies : Copies) (downloadName : Option (List UInt8)) :
    let after := (otaLibGetParams ota msgStr copies downloadName).2
    after.chFetch = ota.chFetch ∧ after.channels = ota.channels := by
  unfold otaLibGetParams
  dsimp only
  repeat' split
  all_goals exact ⟨rfl, rfl⟩

/-- Whether the parameters are complete depends on the message and what of it
can be copied only. -/
theorem otaLibGetParams_accepts (ota : OtaStruct) (msgStr : List UInt8)
    (copies : Copies) (downloadName : Option (List UInt8)) :
    (otaLibGetParams ota msgStr copies downloadName).1 =
      (otaLibGetParams iotOtaInit msgStr copies none).1 := by
  unfold otaLibGetParams
  dsimp only
  repeat' split
  all_goals rfl

section Nesting

variable {μ : Type} {callback : OtaStruct → List UInt8 → μ → Option OtaStruct}

/-- Messages handled so leave a lost handle lost. -/
def Loses (callback : OtaStruct → List UInt8 → μ → Option OtaStruct) : Prop :=
  ∀ ota msg env after, callback ota msg env = some after → Lost ota → Lost after

theorem otaPopUploadMsg_lost (loses : Loses callback) {ota after : OtaStruct}
    {next : Option μ} (lost : Lost ota)
    (handled : otaPopUploadMsg callback ota next = some after) :
    Lost after := by
  unfold otaPopUploadMsg at handled
  split at handled
  · cases handled
    exact lost
  · obtain ⟨env, -, called⟩ := Option.bind_eq_some_iff.mp handled
    exact loses _ _ _ _ called (lost.of_same lost.1 rfl rfl)

/-- The download of an update leaves a lost handle. -/
theorem ended_lost {ota ended : OtaStruct} {env : Download μ}
    {result : DownloadResult}
    (returns : iotOtaFwDownload callback ota env = some result)
    (ends : ended = if result.ret = .successRet then result.ota
      else { result.ota with state := .disconnected }) :
    Lost ended := by
  obtain ⟨before, cleared⟩ := iotOtaFwDownload_cleared returns
  rw [ends, cleared]
  split
  · exact iotOtaClear_lost before
  · exact (iotOtaClear_lost before).of_same nofun rfl rfl

theorem UpdateOutcome.lost (loses : Loses callback) {ota after : OtaStruct}
    {msgStr : List UInt8} {env : Processing μ} (astray : Astray ota)
    (outcome : UpdateOutcome callback ota msgStr env after) : Lost after := by
  have parsing (parsed : OtaStruct) (accepted : Bool)
      (params : otaLibGetParams ota msgStr env.copies env.downloadName =
        (accepted, parsed)) : Astray parsed := by
    have kept := otaLibGetParams_kept ota msgStr env.copies env.downloadName
    have channel :=
      otaLibGetParams_channel ota msgStr env.copies env.downloadName
    rw [params] at kept channel
    exact astray.of_same (by rw [kept.1]; exact astray.1) channel.1 channel.2
  cases outcome with
  | queued fetching pushed =>
      rcases otaPushUploadMsg_cases pushed with same | same
      · rw [same]
        exact astray.lost
      · rw [same]
        exact astray.lost.of_same astray.1 rfl rfl
  | refused idle params => exact (parsing after false params).lost
  | unopened parsed idle params opens same =>
      rw [same]
      exact ((parsing parsed true params).opened false).lost
  | unconnected parsed idle params opens connects same =>
      rw [same]
      exact ((parsing parsed true params).opened true).lost.of_same nofun rfl
        rfl
  | downloaded parsed result ended idle params opens connects returns ends
      pops =>
      exact otaPopUploadMsg_lost loses (ended_lost returns ends) pops

theorem cancelUpdate_lost {ota after : OtaStruct} (astray : Astray ota)
    {msgStr : List UInt8} {copies : Copies}
    (handled : cancelUpdate ota msgStr copies = some after) : Lost after := by
  rcases cancelUpdate_cases handled with same | closes
  · rw [same]
    exact astray.lost
  · have closed : Astray (httpClientClose (readChFetch ota)) :=
      ⟨astray.lost.read.1, astray.lost.read.2⟩
    rw [closes]
    exact closed.lost.of_same nofun rfl rfl

theorem handleMessage_loses (loses : Loses callback) :
    Loses (handleMessage callback) := by
  intro ota msg env after handled lost
  cases handleMessage_outcome handled with
  | unread _ same =>
      rw [same]
      exact lost
  | ignored _ same =>
      rw [same]
      exact lost.read.lost
  | updates _ _ outcome => exact outcome.lost loses lost.read
  | cancels _ _ canceled => exact cancelUpdate_lost lost.read canceled

end Nesting

theorem otaCallback_loses (depth : Nat) : Loses (otaCallback depth) := by
  induction depth with
  | zero => exact fun _ _ env => nomatch env
  | succ depth inductionHypothesis =>
      exact handleMessage_loses inductionHypothesis

/-- No action mends a lost handle. -/
theorem Action.perform_lost {ota after : OtaStruct} {action : Action}
    (lost : Lost ota) (performed : action.perform ota = some after) :
    Lost after := by
  cases action with
  | message depth msg env =>
      exact otaCallback_loses (depth + 1) _ _ _ _ performed lost
  | download depth env =>
      obtain ⟨result, returns, same⟩ := Option.map_eq_some_iff.mp performed
      obtain ⟨before, cleared⟩ := iotOtaFwDownload_cleared returns
      rw [← same, cleared]
      exact iotOtaClear_lost before
  | clear =>
      cases performed
      exact iotOtaClear_lost ota

/-- A lost handle is found out at the latest when it is destroyed. -/
theorem Lost.not_owned {ota : OtaStruct} (lost : Lost ota) :
    ¬Owned (iotOtaDestroy ota).channels := by
  intro owned
  have astray := lost.read
  rw [iotOtaDestroy, if_neg lost.1] at owned
  obtain ⟨-, (null | stale) | ⟨handle, opened, unreleased, unreferred⟩⟩ := astray
  · exact owned.noNullRelease (List.mem_append_left _ null)
  · exact stale owned.fresh
  · have once := owned.once handle opened
    have present : some handle ∈ (ofcDeinit ota).channels.released := by
      rw [← List.count_pos_iff, once]
      exact Nat.one_pos
    change some handle ∈ (readChFetch ota).channels.released ++
      [(readChFetch ota).chFetch] at present
    rcases List.mem_append.mp present with released | last
    · exact unreleased released
    · exact unreferred (List.mem_singleton.mp last).symm

/-! ## Idle handles -/

/-- A handle between two downloads, with nothing amiss on record. -/
structure Tidy (ota : OtaStruct) : Prop where
  settled : Settled ota
  released : ota.channels.released = []
  noNullClose : none ∉ ota.channels.closed
  fresh : ota.channels.staleReads = []

theorem Settled.initialised {ota : OtaStruct} (settled : Settled ota) :
    ota.state ≠ .uninited := by
  rcases settled with state | state <;> rw [state] <;> decide

theorem Settled.not_fetching {ota : OtaStruct} (settled : Settled ota) :
    ota.state ≠ .fetching := by
  rcases settled with state | state <;> rw [state] <;> decide

theorem Tidy.of_same {ota after : OtaStruct} (tidy : Tidy ota)
    (settled : Settled after)
    (released : after.channels.released = ota.channels.released)
    (closed : after.channels.closed = ota.channels.closed)
    (stale : after.channels.staleReads = ota.channels.staleReads) :
    Tidy after := by
  refine ⟨settled, released.trans tidy.released, ?_, stale.trans tidy.fresh⟩
  rw [closed]
  exact tidy.noNullClose

/-- Nothing is stale before the first release. -/
theorem Tidy.read {ota : OtaStruct} (tidy : Tidy ota) :
    readChFetch ota = ota := by
  unfold readChFetch
  split
  · rfl
  · rw [tidy.released]
    exact if_neg List.not_mem_nil

/-- How an effect moves an idle handle. -/
def Moves (ota after : OtaStruct) : Effect → Prop
  | .inert => Tidy after ∧ after.chFetch = ota.chFetch ∧
      after.channels.opened = ota.channels.opened
  | .openFailed => Tidy after ∧ after.chFetch = none ∧
      after.channels.opened = ota.channels.opened
  | .connectFailed => Tidy after ∧ after.chFetch = some ota.channels.opened ∧
      after.channels.opened = ota.channels.opened + 1
  | .clears => Lost after

section Nesting

variable {μ : Type} {callback : OtaStruct → List UInt8 → μ → Option OtaStruct}

theorem cancelUpdate_moves {ota after : OtaStruct} (tidy : Tidy ota)
    (present : ota.chFetch ≠ none) {msgStr : List UInt8} {copies : Copies}
    (handled : cancelUpdate ota msgStr copies = some after) :
    Moves ota after .inert := by
  rcases cancelUpdate_cases handled with same | closes
  · rw [same]
    exact ⟨tidy, rfl, rfl⟩
  · rw [closes, tidy.read]
    refine ⟨⟨.inr rfl, tidy.released, ?_, tidy.fresh⟩, rfl, rfl⟩
    intro null
    rcases List.mem_append.mp null with before | last
    · exact tidy.noNullClose before
    · exact present (List.mem_singleton.mp last).symm

theorem effect_of_unread {msg : List UInt8} {env : Processing μ}
    (unread : env.msgStrAllocated = false ∨
      otaLibGetMsgType (cString msg) env.copies = none) :
    env.effect msg = .inert := by
  apply if_neg
  rintro ⟨copied, update⟩
  rcases unread with uncopied | unnamed
  · rw [uncopied] at copied
    cases copied
  · rw [unnamed] at update
    cases update

theorem effect_of_other {msg : List UInt8} (env : Processing μ)
    (other : otaLibGetMsgType (cString msg) env.copies ≠
      some updateFirmwareMethod) :
    env.effect msg = .inert :=
  if_neg fun update => other update.2

theorem effect_of_cancel {msg : List UInt8} (env : Processing μ)
    (cancel : otaLibGetMsgType (cString msg) env.copies =
      some cancelUpdateMethod) :
    env.effect msg = .inert := by
  apply effect_of_other
  rw [cancel]
  exact fun same => cancelUpdateMethod_ne (Option.some.inj same)

theorem effect_of_update {msg : List UInt8} {env : Processing μ}
    (copied : env.msgStrAllocated = true)
    (update : otaLibGetMsgType (cString msg) env.copies =
      some updateFirmwareMethod) :
    env.effect msg = env.updateEffect (cString msg) :=
  if_pos ⟨copied, update⟩

/-- An update on an idle handle gets as far as its outcomes let it. -/
theorem UpdateOutcome.moves (loses : Loses callback) {ota after : OtaStruct}
    (tidy : Tidy ota) {msgStr : List UInt8} {env : Processing μ}
    (outcome : UpdateOutcome callback ota msgStr env after) :
    Moves ota after (env.updateEffect msgStr) := by
  have accepts :=
    otaLibGetParams_accepts ota msgStr env.copies env.downloadName
  unfold Processing.updateEffect
  have parsing (parsed : OtaStruct) (accepted : Bool)
      (params : otaLibGetParams ota msgStr env.copies env.downloadName =
        (accepted, parsed)) :
      Tidy parsed ∧ parsed.chFetch = ota.chFetch ∧
        parsed.channels = ota.channels := by
    have kept := otaLibGetParams_kept ota msgStr env.copies env.downloadName
    have channel :=
      otaLibGetParams_channel ota msgStr env.copies env.downloadName
    rw [params] at kept channel
    obtain ⟨pointer, channels⟩ := channel
    have settled : Settled parsed := by
      rw [Settled, kept.1]
      exact tidy.settled
    exact ⟨tidy.of_same settled (congrArg ChannelLog.released channels)
      (congrArg ChannelLog.closed channels)
      (congrArg ChannelLog.staleReads channels), pointer, channels⟩
  cases outcome with
  | queued fetching => exact absurd fetching tidy.settled.not_fetching
  | refused idle params =>
      obtain ⟨parsedTidy, pointer, channels⟩ := parsing after false params
      rw [params] at accepts
      rw [← accepts]
      exact ⟨parsedTidy, pointer, congrArg ChannelLog.opened channels⟩
  | unopened parsed idle params opens same =>
      obtain ⟨parsedTidy, pointer, channels⟩ := parsing parsed true params
      rw [params] at accepts
      rw [← accepts, opens, same]
      exact ⟨parsedTidy.of_same parsedTidy.settled rfl rfl rfl, rfl,
        congrArg ChannelLog.opened channels⟩
  | unconnected parsed idle params opens connects same =>
      obtain ⟨parsedTidy, pointer, channels⟩ := parsing parsed true params
      rw [params] at accepts
      rw [← accepts, opens, connects, same]
      refine ⟨parsedTidy.of_same (.inr rfl) rfl rfl rfl, ?_, ?_⟩
      · exact congrArg (fun log : ChannelLog => some log.opened) channels
      · exact congrArg (fun log : ChannelLog => log.opened + 1) channels
  | downloaded parsed result ended idle params opens connects returns ends
      pops =>
      rw [params] at accepts
      rw [← accepts, opens, connects]
      exact otaPopUploadMsg_lost loses (ended_lost returns ends) pops

/-- A message on an idle handle gets as far as its effect says. -/
theorem handleMessage_moves (loses : Loses callback) {ota after : OtaStruct}
    (tidy : Tidy ota) {msg : List UInt8} {env : Processing μ}
    (handled : handleMessage callback ota msg env = some after) :
    Moves ota after (env.effect msg) := by
  cases handleMessage_outcome handled with
  | unread unread same =>
      rw [effect_of_unread unread, same]
      exact ⟨tidy, rfl, rfl⟩
  | ignored other same =>
      rw [effect_of_other env other, same, tidy.read]
      exact ⟨tidy, rfl, rfl⟩
  | updates copied update outcome =>
      rw [tidy.read] at outcome
      rw [effect_of_update copied update]
      exact outcome.moves loses tidy
  | cancels cancel present canceled =>
      rw [tidy.read] at canceled
      rw [effect_of_cancel env cancel]
      exact cancelUpdate_moves tidy present canceled

end Nesting

/-- An action on an idle handle gets as far as its effect says. -/
theorem Action.perform_moves {ota after : OtaStruct} (tidy : Tidy ota)
    {action : Action} (performed : action.perform ota = some after) :
    Moves ota after action.effect := by
  cases action with
  | message depth msg env =>
      exact handleMessage_moves (otaCallback_loses depth) tidy performed
  | download depth env =>
      obtain ⟨result, returns, same⟩ := Option.map_eq_some_iff.mp performed
      obtain ⟨before, cleared⟩ := iotOtaFwDownload_cleared returns
      rw [← same, cleared]
      exact iotOtaClear_lost before
  | clear =>
      cases performed
      exact iotOtaClear_lost ota

/-! ## Whole runs -/

/-- A tidy handle that does not refer to the first of its handles is lost. -/
theorem Tidy.lost {ota : OtaStruct} (tidy : Tidy ota)
    (opened : 0 < ota.channels.opened) (other : ota.chFetch ≠ some 0) :
    Lost ota := by
  refine ⟨tidy.settled.initialised, .inr (.inl ⟨0, opened, ?_, other⟩)⟩
  rw [tidy.released]
  exact List.not_mem_nil

theorem run_cons {ota after : OtaStruct} {action : Action}
    {actions : List Action} (returns : run ota (action :: actions) = some after) :
    ∃ middle, action.perform ota = some middle ∧
      run middle actions = some after := by
  unfold run at returns
  rw [List.foldlM_cons] at returns
  exact Option.bind_eq_some_iff.mp returns

/-- Once lost, always lost. -/
theorem run_lost {ota after : OtaStruct} (lost : Lost ota)
    {actions : List Action} (returns : run ota actions = some after) :
    Lost after := by
  induction actions generalizing ota with
  | nil =>
      obtain rfl : ota = after := Option.some.inj returns
      exact lost
  | cons action actions inductionHypothesis =>
      obtain ⟨middle, performed, rest⟩ := run_cons returns
      exact inductionHypothesis (Action.perform_lost lost performed) rest

/-- What destroying a tidy handle leaves on record. -/
theorem Tidy.destroyed {ota : OtaStruct} (tidy : Tidy ota) :
    (iotOtaDestroy ota).channels =
      { ota.channels with
        released := [ota.chFetch]
        closed := ota.channels.closed ++ [ota.chFetch] } := by
  rw [iotOtaDestroy, if_neg tidy.settled.initialised]
  unfold ofcDeinit
  rw [tidy.read]
  dsimp only [httpClientClose]
  rw [tidy.released]
  rfl

/-- The effects of a run without its inert actions. -/
def effective (actions : List Action) : List Effect :=
  (actions.map Action.effect).filter fun effect => effect ≠ .inert

theorem effective_cons_inert {action : Action} (actions : List Action)
    (inert : action.effect = .inert) :
    effective (action :: actions) = effective actions := by
  rw [effective, List.map_cons, inert]
  rfl

theorem effective_cons {action : Action} (actions : List Action)
    (reaches : action.effect ≠ .inert) :
    effective (action :: actions) = action.effect :: effective actions := by
  have kept : decide (action.effect ≠ .inert) = true := decide_eq_true reaches
  exact List.filter_cons_of_pos kept

/-- A handle with an unconnected channel keeps it only as long as nothing
touches it. -/
theorem run_holding {ota after : OtaStruct} (tidy : Tidy ota)
    (pointer : ota.chFetch = some 0) (opened : ota.channels.opened = 1)
    {actions : List Action} (returns : run ota actions = some after) :
    Owned (iotOtaDestroy after).channels ↔ effective actions = [] := by
  induction actions generalizing ota with
  | nil =>
      obtain rfl : ota = after := Option.some.inj returns
      rw [tidy.destroyed, pointer]
      refine ⟨fun _ => rfl, fun _ => ⟨?_, nofun, ?_, tidy.fresh⟩⟩
      · intro handle below
        have first : handle = 0 := by
          have bound : handle < ota.channels.opened := below
          omega
        rw [first]
        rfl
      · intro null
        rcases List.mem_append.mp null with before | last
        · exact tidy.noNullClose before
        · cases List.mem_singleton.mp last
  | cons action actions inductionHypothesis =>
      obtain ⟨middle, performed, rest⟩ := run_cons returns
      have moves := Action.perform_moves tidy performed
      by_cases inert : action.effect = .inert
      · rw [inert] at moves
        rw [effective_cons_inert actions inert]
        exact inductionHypothesis moves.1 (moves.2.1.trans pointer)
          (moves.2.2.trans opened) rest
      · have lost : Lost middle := by
          cases effect : action.effect with
          | inert => exact absurd effect inert
          | openFailed =>
              rw [effect] at moves
              obtain ⟨middleTidy, none, count⟩ := moves
              exact middleTidy.lost (by omega) (by simp [none])
          | connectFailed =>
              rw [effect] at moves
              obtain ⟨middleTidy, next, count⟩ := moves
              exact middleTidy.lost (by omega) (by simp [next, opened])
          | clears =>
              rw [effect] at moves
              exact moves
        rw [effective_cons actions inert]
        constructor
        · intro owned
          exact absurd owned (run_lost lost rest).not_owned
        · nofun

/-- A handle without a channel has to get exactly one. -/
theorem run_empty {ota after : OtaStruct} (tidy : Tidy ota)
    (pointer : ota.chFetch = none) (opened : ota.channels.opened = 0)
    {actions : List Action} (returns : run ota actions = some after) :
    Owned (iotOtaDestroy after).channels ↔
      SingleUnconnected (actions.map Action.effect) := by
  change _ ↔ ∃ count, effective actions =
    List.replicate count .openFailed ++ [.connectFailed]
  induction actions generalizing ota with
  | nil =>
      obtain rfl : ota = after := Option.some.inj returns
      rw [tidy.destroyed, pointer]
      constructor
      · intro owned
        exact absurd (List.mem_singleton_self _) owned.noNullRelease
      · rintro ⟨count, same⟩
        simp [effective] at same
  | cons action actions inductionHypothesis =>
      obtain ⟨middle, performed, rest⟩ := run_cons returns
      have moves := Action.perform_moves tidy performed
      cases effect : action.effect with
      | inert =>
          rw [effect] at moves
          rw [effective_cons_inert actions effect]
          exact inductionHypothesis moves.1 (moves.2.1.trans pointer)
            (moves.2.2.trans opened) rest
      | openFailed =>
          have reaches : action.effect ≠ .inert := by
            rw [effect]
            decide
          rw [effect] at moves
          rw [inductionHypothesis moves.1 moves.2.1 (moves.2.2.trans opened)
            rest, effective_cons actions reaches, effect]
          constructor
          · rintro ⟨count, same⟩
            exact ⟨count + 1, by rw [same]; rfl⟩
          · rintro ⟨count, same⟩
            cases count with
            | zero => cases same
            | succ count => exact ⟨count, (List.cons.inj same).2⟩
      | connectFailed =>
          have reaches : action.effect ≠ .inert := by
            rw [effect]
            decide
          rw [effect, Moves, opened] at moves
          rw [run_holding moves.1 moves.2.1 moves.2.2 rest,
            effective_cons actions reaches, effect]
          constructor
          · intro nothing
            exact ⟨0, by rw [nothing]; rfl⟩
          · rintro ⟨count, same⟩
            cases count with
            | zero => exact (List.cons.inj same).2
            | succ count => cases same
      | clears =>
          have reaches : action.effect ≠ .inert := by
            rw [effect]
            decide
          rw [effect] at moves
          rw [effective_cons actions reaches, effect]
          constructor
          · intro owned
            exact absurd owned (run_lost moves rest).not_owned
          · rintro ⟨count, same⟩
            cases count with
            | zero => cases same
            | succ count => cases same

/-- A run from `IOT_OTA_Init` to `IOT_OTA_Destroy` keeps track of its handles
exactly where it opens a single one, which it cannot connect, and clears
nothing. -/
theorem run_owned_iff {actions : List Action} {after : OtaStruct}
    (returns : run iotOtaInit actions = some after) :
    Owned (iotOtaDestroy after).channels ↔
      SingleUnconnected (actions.map Action.effect) :=
  run_empty ⟨.inl rfl, rfl, List.not_mem_nil, rfl⟩ rfl rfl returns

/-- An update message with all its parameters. -/
def updateMessage : List UInt8 :=
  ascii "\x7b\"Method\":\"update_firmware\",\"Payload\":\x7b\"Module\":\"m\"," ++
    ascii "\"Version\":\"1\",\"URL\":\"u\",\"MD5\":\"d\",\"Size\":1\x7d\x7d"

/-- What an update meets that can or cannot be connected, and finds no place to
store what it downloads. -/
def updateHandling (connected : Bool) : Handling 1 where
  msgStrAllocated := true
  copies := .all
  entryAllocated := true
  pushAllocated := true
  downloadName := none
  ofcAllocated := true
  connected := connected
  download :=
    { downloadInit := false
      bufferAllocated := true
      turns := []
      firmwareValid := false
      failAllocated := true
      successReport := .sent
      downloadEnd := true }
  next := none

/-- The update as an action. -/
def updateAction (connected : Bool) : Action :=
  .message 0 updateMessage (updateHandling connected)

/-- After an update that cannot be connected, its handle is released once. -/
theorem run_owned_unconnected :
    ∃ after, run iotOtaInit [updateAction false] = some after ∧
      Owned (iotOtaDestroy after).channels := by
  have returns : (run iotOtaInit [updateAction false]).isSome = true := by
    decide +kernel
  obtain ⟨after, returns⟩ := Option.isSome_iff_exists.mp returns
  have effects : [updateAction false].map Action.effect = [.connectFailed] := by
    decide +kernel
  refine ⟨after, returns, (run_owned_iff returns).mpr ⟨0, ?_⟩⟩
  rw [effects]
  rfl

/-- After an update whose download fails, its handle is released once by
`IOT_OTA_Clear` and once more by `IOT_OTA_Destroy`. -/
theorem run_released_twice :
    ∃ after, run iotOtaInit [updateAction true] = some after ∧
      (iotOtaDestroy after).channels.released = [some 0, some 0] ∧
      ¬Owned (iotOtaDestroy after).channels := by
  have outcome : (run iotOtaInit [updateAction true]).map
      (fun after => ((iotOtaDestroy after).channels.opened,
        (iotOtaDestroy after).channels.released)) =
        some (1, [some 0, some 0]) := by
    decide +kernel
  obtain ⟨after, returns, values⟩ := Option.map_eq_some_iff.mp outcome
  obtain ⟨opened, released⟩ := Prod.mk.inj values
  refine ⟨after, returns, released, ?_⟩
  intro owned
  have once := owned.once 0 (by rw [opened]; decide)
  rw [released] at once
  cases once

end Ota
end UIoT
