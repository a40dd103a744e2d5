import UIoT.Mqtt.ConnectionTerms

/-!
# Manual disconnects

`uiot_mqtt_connect`, `uiot_mqtt_attempt_reconnect` and `uiot_mqtt_yield` block
and call handlers back, while handlers and other threads call the client again.
A session keeps where each of the blocking calls stands, and an event moves one
of them on or makes another call; what a handler calls takes effect at the end
of the move that calls the handler.  After a manual disconnect, and while
reconnecting is switched off, no yield opens a connection, unless the user
disconnects or switches reconnecting off behind the back of a yield.
-/

namespace UIoT
namespace Mqtt

/-! ## Connecting in moves -/

/-- Where `uiot_mqtt_connect` stands once it has sent CONNECT or has failed
to. -/
inductive ConnectPoint
  | waiting (readPacketType : UInt8)
  | answered
  | returned (ret : IoTError)
  deriving DecidableEq

/-- `_mqtt_connect` up to the wait for CONNACK. -/
def openConnection (c : Client) (options : MQTTConnectParams)
    (env : ConnectEnv) : Client × ConnectPoint :=
  match sendConnect c options env with
  | (c, .successRet) => (c, .waiting 0)
  | (c, ret) => (c, .returned ret)

/-- A move of `uiot_mqtt_connect`: one turn of the loop of `wait_for_read`, or
the handling of CONNACK. -/
def ConnectPoint.advance (c : Client) (timedOut : Bool) (env : CycleEnv) :
    ConnectPoint → Client × ConnectPoint
  | .waiting readPacketType =>
      if timedOut then
        (c, .returned .errMqttRequestTimeout)
      else
        let (c, ret, readPacketType) := cycleForRead c readPacketType env
        if ret = .successRet ∧ readPacketType ≠ MessageTypes.connack.code then
          (c, .waiting readPacketType)
        else if ret = .successRet then
          (c, .answered)
        else
          (c, .returned ret)
  | .answered =>
      let (c, ret) := acceptConnection c
      (c, .returned ret)
  | .returned ret => (c, .returned ret)

/-- What `uiot_mqtt_attempt_reconnect` does once `uiot_mqtt_connect` has
returned. -/
def afterConnect (c : Client) (ret : IoTError)
    (requests : Fin maxSubTopics → RequestEnv) : Client × IoTError :=
  if !c.isConnected then
    (c, ret)
  else
    match uiotMqttResubscribe c requests with
    | (c, .successRet) => (c, .mqttReconnected)
    | (c, ret) => (c, ret)

/-! ## Yielding in moves -/

/-- Where `uiot_mqtt_yield` stands: in front of a pass, in
`uiot_mqtt_attempt_reconnect` or behind it, behind `cycle_for_read`, behind one
or both sweeps, in front of `_handle_disconnect` or of its last statement, or
at the end of the pass. -/
inductive YieldPoint
  | top
  | connecting (point : ConnectPoint)
  | attempted (ret : IoTError)
  | cycled (ret : IoTError)
  | pubSwept
  | subSwept
  | givingUp
  | givenUp
  | finished (ret : IoTError)
  deriving DecidableEq

/-- `_mqtt_keep_alive` up to its calls of `_handle_disconnect`, which `none`
stands for. -/
def keepAlivePing (c : Client) (env : YieldEnv) : Client × Option IoTError :=
  if c.options.keepAliveInterval = 0 then
    (c, some .successRet)
  else if !c.pingTimer.hasExpired c.clock then
    (c, some .successRet)
  else if c.isPingOutstanding.toNat ≥ mqttPingRetryTimes then
    (c, none)
  else
    let c := c.lock .writeBuf
    match serializePacketWithZeroPayload c.writeBuf uiotMqttTxBufLen
        .pingreq with
    | .error ret => (c.unlock .writeBuf, some ret)
    | .ok (writeBuf, len) =>
        match sendPing len env.pings (List.finRange 4)
            { c with writeBuf } with
        | (c, .successRet) =>
            ({ c.unlock .writeBuf with
                isPingOutstanding := c.isPingOutstanding + 1
                pingTimer := .countdown c.clock
                  (min 5 (c.options.keepAliveInterval.toNat / 2)) },
              some .successRet)
        | (c, _) => (c.unlock .writeBuf, none)

/-- A move of `uiot_mqtt_yield`, and where it stands then; `none` once it has
returned. -/
def YieldPoint.advance (c : Client) (timedOut : Bool) (env : YieldEnv) :
    YieldPoint → Client × Option YieldPoint
  | .top =>
      if timedOut then
        (c, none)
      else if !c.isConnected then
        if c.currentReconnectWaitInterval > maxReconnectWaitInterval then
          (c, none)
        else if !c.reconnectDelayTimer.hasExpired c.clock then
          (c, some .top)
        else
          let (c, point) := openConnection c c.options env.reconnect.connect
          (c, some (.connecting point))
      else
        let (c, ret, _) := cycleForRead c 0 env.cycle
        (c, some (.cycled ret))
  | .connecting (.returned ret) =>
      let (c, ret) := afterConnect c ret env.reconnect.requests
      (c, some (.attempted ret))
  | .connecting point =>
      let (c, point) := point.advance c timedOut env.cycle
      (c, some (.connecting point))
  | .attempted ret => ((afterAttempt c ret).1, some .top)
  | .cycled ret =>
      if ret = .successRet then
        (uiotMqttPubInfoProc c env.pubIteratorAllocated, some .pubSwept)
      else if ret = .errSslReadTimeout ∨ ret = .errSslReadFailed ∨
          ret = .errTcpPeerShutdown ∨ ret = .errTcpReadFailed then
        (c, some .givingUp)
      else if ret = .failureRet then
        (c, some (.finished .successRet))
      else
        (c, some (.finished ret))
  | .pubSwept =>
      (uiotMqttSubInfoProc c env.subIteratorAllocated, some .subSwept)
  | .subSwept =>
      match keepAlivePing c env with
      | (c, some ret) => (c, some (.finished ret))
      | (c, none) => (c, some .givingUp)
  | .givingUp =>
      if !c.isConnected then
        (c, some (.finished .errMqttNoConn))
      else
        ((uiotMqttDisconnect c env.disconnectWrites).1.raise .disconnect,
          some .givenUp)
  | .givenUp =>
      ({ c with wasManuallyDisconnected := false },
        some (.finished .errMqttNoConn))
  | .finished ret =>
      match endPass c ret with
      | (c, _, true) => (c, some .top)
      | (c, _, false) => (c, none)

/-! ## Sessions -/

/-- A call of `uiot_mqtt_connect`, by `uiot_mqtt_attempt_reconnect` if it is
to subscribe again. -/
structure ConnectCall where
  point : ConnectPoint
  resubscribes : Bool
  deriving DecidableEq

/-- The client with the blocking calls of its user, and whether the last word
of the user was to disconnect. -/
structure Session where
  client : Client
  connects : List ConnectCall
  yields : List YieldPoint
  withdrawn : Bool

/-- A client that no call is under way of. -/
def Session.start (client : Client) : Session := ⟨client, [], [], false⟩

/-- What happens in a session: calls, and moves of the blocking calls. -/
inductive Event
  | connect (options : MQTTConnectParams) (env : ConnectEnv)
  | attemptReconnect (env : ConnectEnv)
  | publish (topicName : CString) (params : PublishParams) (env : RequestEnv)
  | subscribe (topicFilter : CString) (params : SubscribeParams)
      (env : RequestEnv)
  | unsubscribe (topicFilter : CString) (env : RequestEnv)
  | disconnect (writes : List WriteOutcome)
  | setAutoreconnect (value : Bool)
  | yield (timeoutMs : Nat)
  | moveConnect (index : Nat) (timedOut : Bool) (env : CycleEnv)
      (requests : Fin maxSubTopics → RequestEnv)
  | moveYield (index : Nat) (timedOut : Bool) (env : YieldEnv)
  | elapse (duration : Nat)

/-- `uiot_mqtt_connect`, called by the user. -/
def Session.connect (s : Session) (options : MQTTConnectParams)
    (resubscribes : Bool) (env : ConnectEnv) : Session :=
  if s.client.isConnected then
    { s with withdrawn := false }
  else
    let (client, point) := openConnection s.client options env
    { s with
      client
      connects := s.connects ++ [⟨point, resubscribes⟩]
      withdrawn := false }

/-- `uiot_mqtt_yield` up to its loop. -/
def Session.yield (s : Session) (timeoutMs : Nat) : Session :=
  if timeoutMs = 0 then
    s
  else if !s.client.isConnected ∧ s.client.wasManuallyDisconnected then
    s
  else if !s.client.isConnected ∧ s.client.options.autoConnectEnable = 0 then
    s
  else
    { s with yields := s.yields ++ [.top] }

/-- A move of one of the calls of `uiot_mqtt_connect`. -/
def Session.moveConnect (s : Session) (index : Nat) (timedOut : Bool)
    (env : CycleEnv) (requests : Fin maxSubTopics → RequestEnv) : Session :=
  match s.connects[index]? with
  | none => s
  | some ⟨.returned ret, resubscribes⟩ =>
      { s with
        client :=
          if resubscribes then (afterConnect s.client ret requests).1
          else s.client
        connects := s.connects.eraseIdx index }
  | some ⟨point, resubscribes⟩ =>
      let (client, point) := point.advance s.client timedOut env
      { s with client, connects := s.connects.set index ⟨point, resubscribes⟩ }

/-- A move of one of the calls of `uiot_mqtt_yield`. -/
def Session.moveYield (s : Session) (index : Nat) (timedOut : Bool)
    (env : YieldEnv) : Session :=
  match s.yields[index]? with
  | none => s
  | some point =>
      match point.advance s.client timedOut env with
      | (client, some next) =>
          { s with client, yields := s.yields.set index next }
      | (client, none) => { s with client, yields := s.yields.eraseIdx index }

/-- What an event does to the session. -/
def Session.step (s : Session) : Event → Session
  | .connect options env => s.connect options false env
  | .attemptReconnect env => s.connect s.client.options true env
  | .publish topicName params env =>
      { s with client := (uiotMqttPublish s.client topicName params env).1 }
  | .subscribe topicFilter params env =>
      { s with client := (uiotMqttSubscribe s.client topicFilter params env).1 }
  | .unsubscribe topicFilter env =>
      { s with client := (uiotMqttUnsubscribe s.client topicFilter env).1 }
  | .disconnect writes =>
      { s with
        client := (uiotMqttDisconnect s.client writes).1
        withdrawn := true }
  | .setAutoreconnect value =>
      { s with
        client := uiotMqttSetAutoreconnect s.client value
        withdrawn := s.withdrawn && !value }
  | .yield timeoutMs => s.yield timeoutMs
  | .moveConnect index timedOut env requests =>
      s.moveConnect index timedOut env requests
  | .moveYield index timedOut env => s.moveYield index timedOut env
  | .elapse duration => { s with client := s.client.tick duration }

/-- A yield opens a connection, or tries to. -/
def Event.Opens (s : Session) : Event → Prop
  | .moveYield index timedOut env =>
      s.yields[index]? = some .top ∧
        ∃ point, (YieldPoint.top.advance s.client timedOut env).2 =
          some (.connecting point)
  | _ => False

/-- The user has not disconnected the client, and reconnecting is on. -/
def Session.MayOpen (s : Session) : Prop :=
  s.withdrawn = false ∧ s.client.options.autoConnectEnable ≠ 0

/-- Nothing the user withdraws is under way: disconnecting finds no call under
way and a client that is connected or will not reconnect; reconnecting is
switched off, and a yield begun without it, only where no yield may be
reconnecting. -/
def Event.Orderly (s : Session) : Event → Prop
  | .connect options _ => options.autoConnectEnable = 0 → s.yields = []
  | .disconnect _ =>
      s.connects = [] ∧ s.yields = [] ∧
        (s.client.isConnected = true ∨
          s.client.wasManuallyDisconnected = true ∨
          s.client.options.autoConnectEnable = 0)
  | .setAutoreconnect value =>
      value = false →
        s.yields = [] ∨
          s.client.isConnected = true ∧ s.yields.length = 1
  | .yield _ => s.client.options.autoConnectEnable = 0 → s.yields = []
  | _ => True

instance (s : Session) : (event : Event) → Decidable (event.Orderly s)
  | .connect options _ =>
      inferInstanceAs
        (Decidable (options.autoConnectEnable = 0 → s.yields = []))
  | .disconnect _ => inferInstanceAs (Decidable (_ ∧ _ ∧ _))
  | .setAutoreconnect value =>
      inferInstanceAs (Decidable (value = false → _ ∨ _))
  | .yield _ =>
      inferInstanceAs
        (Decidable (s.client.options.autoConnectEnable = 0 → s.yields = []))
  | .attemptReconnect .. | .publish .. | .subscribe .. | .unsubscribe ..
  | .moveConnect .. | .moveYield .. | .elapse .. =>
      inferInstanceAs (Decidable True)

/-! ## Uninterrupted calls -/

/-- `uiot_mqtt_attempt_reconnect` connects and subscribes again. -/
theorem uiotMqttAttemptReconnect_eq {c : Client} (env : ReconnectEnv)
    (disconnected : c.isConnected = false) :
    uiotMqttAttemptReconnect c env =
      afterConnect (mqttConnect c c.options env.connect).1
        (mqttConnect c c.options env.connect).2 env.requests := by
  unfold uiotMqttAttemptReconnect uiotMqttConnect
  rw [disconnected, if_neg (by decide), if_neg (by decide)]
  rfl

/-- `_mqtt_keep_alive` pings, or gives the connection up. -/
theorem mqttKeepAlive_eq (c : Client) (env : YieldEnv) :
    mqttKeepAlive c env =
      match keepAlivePing c env with
      | (c, some ret) => (c, ret)
      | (c, none) => handleDisconnect c env.disconnectWrites := by
  unfold mqttKeepAlive keepAlivePing
  split
  · rfl
  split
  · rfl
  split
  · rfl
  dsimp only
  cases serializePacketWithZeroPayload (c.lock .writeBuf).writeBuf
      uiotMqttTxBufLen .pingreq with
  | error ret => rfl
  | ok answer =>
      obtain ⟨writeBuf, len⟩ := answer
      dsimp only
      generalize sendPing len env.pings (List.finRange 4)
        { c.lock .writeBuf with writeBuf } = sent
      obtain ⟨next, ret⟩ := sent
      cases ret <;> rfl

/-- A move of the first yield, after some time. -/
structure YieldMove where
  elapsed : Nat
  timedOut : Bool
  env : YieldEnv

/-- What a move of the first yield does to the session. -/
def Session.yieldMove (s : Session) (move : YieldMove) : Session :=
  (s.step (.elapse move.elapsed)).step (.moveYield 0 move.timedOut move.env)

/-- The session with this client and at most one yield. -/
def Session.yielding (s : Session) (state : Client × Option YieldPoint) :
    Session :=
  { s with client := state.1, yields := state.2.toList }

theorem Session.yieldMove_yielding (s : Session) (c : Client)
    (point : YieldPoint) (move : YieldMove) :
    (s.yielding (c, some point)).yieldMove move =
      s.yielding (point.advance (c.tick move.elapsed) move.timedOut
        move.env) := by
  unfold yieldMove
  simp only [step, moveYield, yielding, Option.toList_some,
    List.getElem?_cons_zero]
  generalize point.advance (c.tick move.elapsed) move.timedOut move.env = moved
  obtain ⟨client, _ | next⟩ := moved <;> rfl

open Machine (Reaches)

/-- A move of a yield that takes no time. -/
theorem reaches_advance (s : Session) (c : Client) (point : YieldPoint)
    (timedOut : Bool) (env : YieldEnv) :
    Reaches Session.yieldMove (s.yielding (c, some point))
      (s.yielding (point.advance c timedOut env)) := by
  have moved : Reaches Session.yieldMove _ _ :=
    .single (s.yielding (c, some point)) ⟨0, timedOut, env⟩
  rwa [Session.yieldMove_yielding] at moved

/-- The wait for CONNACK, in moves. -/
theorem reaches_wait (s : Session) (env : YieldEnv) (cycles : List CycleEnv)
    (readPacketType : UInt8) (c : Client) :
    let waited := waitForRead MessageTypes.connack.code cycles readPacketType c
    Reaches Session.yieldMove
      (s.yielding (c, some (.connecting (.waiting readPacketType))))
      (s.yielding (waited.1, some (.connecting
        (if waited.2 = .successRet then .answered
          else .returned waited.2)))) := by
  induction cycles generalizing readPacketType c with
  | nil =>
      exact reaches_advance s c (.connecting (.waiting readPacketType)) true env
  | cons cycle cycles inductionHypothesis =>
      have moved := reaches_advance s c
        (.connecting (.waiting readPacketType)) false { env with cycle }
      simp only [YieldPoint.advance, ConnectPoint.advance, Bool.false_eq_true,
        if_false] at moved
      unfold waitForRead
      dsimp only
      split
      · rename_i waits
        rw [if_pos waits] at moved
        exact moved.trans (inductionHypothesis ..)
      · rename_i waits
        rw [if_neg waits] at moved
        split <;> rename_i success
        · rw [if_pos success] at moved
          exact moved
        · rw [if_neg success] at moved
          exact moved

/-- A connection attempt, in moves. -/
theorem reaches_mqttConnect (s : Session) (c : Client)
    (options : MQTTConnectParams) (env : YieldEnv) (connect : ConnectEnv) :
    let opened := openConnection c options connect
    let connected := mqttConnect c options connect
    Reaches Session.yieldMove
      (s.yielding (opened.1, some (.connecting opened.2)))
      (s.yielding
        (connected.1, some (.connecting (.returned connected.2)))) := by
  unfold openConnection mqttConnect
  generalize sendConnect c options connect = sent
  obtain ⟨next, ret⟩ := sent
  have waits := reaches_wait s env connect.cycles 0 next
  cases ret with
  | successRet =>
      dsimp only at waits ⊢
      generalize waitForRead MessageTypes.connack.code connect.cycles 0 next =
        waited at waits ⊢
      obtain ⟨answered, ret⟩ := waited
      have accepts := reaches_advance s answered (.connecting .answered) false
        env
      cases ret with
      | successRet => exact waits.trans accepts
      | _ => exact waits
  | _ => exact .refl _

/-- Where a yield stands behind a pass. -/
def YieldPoint.behind (pass : Client × IoTError × Bool) :
    Client × Option YieldPoint :=
  match pass with
  | (c, _, true) => (c, some .top)
  | (c, _, false) => (c, none)

/-- The end of a pass, in moves. -/
theorem reaches_finished (s : Session) (c : Client) (ret : IoTError)
    (env : YieldEnv) :
    Reaches Session.yieldMove (s.yielding (c, some (.finished ret)))
      (s.yielding (YieldPoint.behind (endPass c ret))) :=
  reaches_advance s c (.finished ret) false env

/-- The loss of the connection, in moves. -/
theorem reaches_givingUp (s : Session) (c : Client) (env : YieldEnv) :
    let lost := handleDisconnect c env.disconnectWrites
    Reaches Session.yieldMove (s.yielding (c, some .givingUp))
      (s.yielding (lost.1, some (.finished lost.2))) := by
  have gives := reaches_advance s c .givingUp false env
  unfold handleDisconnect
  rw [YieldPoint.advance] at gives
  split
  · rename_i disconnected
    rw [if_pos disconnected] at gives
    exact gives
  · rename_i connected
    rw [if_neg connected] at gives
    exact gives.trans (reaches_advance s _ .givenUp false env)

/-- What follows a cycle, in moves. -/
theorem reaches_cycled (s : Session) (c : Client) (ret : IoTError)
    (env : YieldEnv) :
    let after := afterCycle c ret env
    Reaches Session.yieldMove (s.yielding (c, some (.cycled ret)))
      (s.yielding (after.1, some (.finished after.2))) := by
  have moved := reaches_advance s c (.cycled ret) false env
  unfold afterCycle
  rw [YieldPoint.advance] at moved
  split
  · rename_i success
    rw [if_pos success] at moved
    have sweeps := moved.trans (reaches_advance s _ .pubSwept false env)
    dsimp only [YieldPoint.advance] at sweeps ⊢
    refine sweeps.trans ?_
    generalize uiotMqttSubInfoProc
      (uiotMqttPubInfoProc c env.pubIteratorAllocated)
      env.subIteratorAllocated = swept
    have pings := reaches_advance s swept .subSwept false env
    rw [YieldPoint.advance] at pings
    rw [mqttKeepAlive_eq]
    generalize keepAlivePing swept env = pinged at pings ⊢
    obtain ⟨next, _ | ret⟩ := pinged
    · exact pings.trans (reaches_givingUp s next env)
    · exact pings
  rename_i failed
  rw [if_neg failed] at moved
  split
  · rename_i lost
    rw [if_pos lost] at moved
    exact moved.trans (reaches_givingUp s c env)
  rename_i kept
  rw [if_neg kept] at moved
  split
  · rename_i nothing
    rwa [if_pos nothing] at moved
  · rename_i something
    rwa [if_neg something] at moved

/-- A reconnect, in moves. -/
theorem reaches_reconnect (s : Session) {c : Client} (env : YieldEnv)
    (disconnected : c.isConnected = false) :
    let opened := openConnection c c.options env.reconnect.connect
    let attempt := uiotMqttAttemptReconnect c env.reconnect
    Reaches Session.yieldMove
      (s.yielding (opened.1, some (.connecting opened.2)))
      (s.yielding ((afterAttempt attempt.1 attempt.2).1, some .top)) := by
  rw [uiotMqttAttemptReconnect_eq env.reconnect disconnected]
  have connects := reaches_mqttConnect s c c.options env env.reconnect.connect
  dsimp only at connects ⊢
  refine connects.trans ?_
  generalize mqttConnect c c.options env.reconnect.connect = attempt
  obtain ⟨next, ret⟩ := attempt
  have returns := reaches_advance s next (.connecting (.returned ret)) false env
  exact returns.trans (reaches_advance s _ (.attempted _) false env)

/-- A pass through the loop, in moves. -/
theorem reaches_pass (s : Session) (c : Client) (env : YieldEnv) :
    Reaches Session.yieldMove (s.yielding (c, some .top))
      (s.yielding (YieldPoint.behind (yieldPass c env))) := by
  have starts : Reaches Session.yieldMove _ _ :=
    .single (s.yielding (c, some .top)) ⟨env.elapsed, false, env⟩
  rw [Session.yieldMove_yielding] at starts
  refine starts.trans ?_
  unfold yieldPass
  dsimp only
  generalize c.tick env.elapsed = ticked
  rw [YieldPoint.advance, if_neg (by decide)]
  split
  · rename_i disconnected
    split
    · exact .refl _
    unfold handleReconnect
    split
    · exact .refl _
    · exact reaches_reconnect s env (by simpa using disconnected)
  · generalize cycleForRead ticked 0 env.cycle = cycled
    obtain ⟨next, ret, packetType⟩ := cycled
    have follows := reaches_cycled s next ret env
    generalize afterCycle next ret env = after at follows ⊢
    exact follows.trans (reaches_finished s after.1 after.2 env)

theorem reaches_loop (s : Session) (envs : List YieldEnv) (c : Client)
    (ret : IoTError) :
    Reaches Session.yieldMove (s.yielding (c, some .top))
      (s.yielding ((yieldLoop envs c ret).1, none)) := by
  induction envs generalizing c ret with
  | nil => exact reaches_advance s c .top true (quietPass 0)
  | cons env envs inductionHypothesis =>
      have passes := reaches_pass s c env
      unfold yieldLoop
      generalize yieldPass c env = pass at passes ⊢
      obtain ⟨next, nextRet, _ | _⟩ := pass
      · exact passes
      · exact passes.trans (inductionHypothesis next nextRet)

/-- A yield that nothing interrupts is `uiot_mqtt_yield`. -/
theorem reaches_uiotMqttYield (s : Session) (alone : s.yields = [])
    (timeoutMs : Nat) (envs : List YieldEnv) :
    Reaches Session.yieldMove (s.step (.yield timeoutMs))
      { s with client := (uiotMqttYield s.client timeoutMs envs).1 } := by
  unfold Session.step Session.yield uiotMqttYield
  dsimp only
  split
  · exact .refl s
  split
  · exact .refl s
  split
  · exact .refl s
  · have loops := reaches_loop s envs s.client .successRet
    simpa only [Session.yielding, Option.toList_some, Option.toList_none,
      alone, List.nil_append] using loops

/-! ## What a move keeps -/

theorem openConnection_terms (c : Client) (options : MQTTConnectParams)
    (env : ConnectEnv) :
    (openConnection c options env).1.terms = { c.terms with options } := by
  have sent := sendConnect_terms c options env
  unfold openConnection
  split <;> rename_i send <;> rw [send] at sent <;> exact sent

theorem afterConnect_terms (c : Client) (ret : IoTError)
    (requests : Fin maxSubTopics → RequestEnv) :
    (afterConnect c ret requests).1.terms = c.terms := by
  have requested := uiotMqttResubscribe_terms c requests
  unfold afterConnect
  split
  · rfl
  split <;> rename_i request <;> rw [request] at requested <;> exact requested

/-- A move of a connection attempt leaves the terms alone or finds the
connection accepted. -/
theorem ConnectPoint.advance_terms (c : Client) (timedOut : Bool)
    (env : CycleEnv) (point : ConnectPoint) :
    (point.advance c timedOut env).1.terms = c.terms ∨
      (point.advance c timedOut env).1.terms = ⟨true, false, c.options⟩ := by
  cases point with
  | waiting readPacketType =>
      have cycled := cycleForRead_terms c readPacketType env
      refine .inl ?_
      rw [advance]
      split
      · rfl
      dsimp only
      split
      · exact cycled
      split <;> exact cycled
  | answered => exact acceptConnection_terms c
  | returned ret => exact .inl rfl

theorem keepAlivePing_terms (c : Client) (env : YieldEnv) :
    (keepAlivePing c env).1.terms = c.terms := by
  unfold keepAlivePing
  split
  · rfl
  split
  · rfl
  split
  · rfl
  dsimp only
  split
  · rfl
  rename_i memory len answered
  have sent := sendPing_terms len env.pings (List.finRange 4)
    { c.lock .writeBuf with writeBuf := memory }
  split <;> rename_i send <;> rw [send] at sent <;> exact sent

/-- A move of a yield never writes the options. -/
theorem YieldPoint.advance_options (c : Client) (timedOut : Bool)
    (env : YieldEnv) (point : YieldPoint) :
    (point.advance c timedOut env).1.options = c.options := by
  cases point with
  | top =>
      have opened := openConnection_terms c c.options env.reconnect.connect
      rw [advance]
      split
      · rfl
      split
      · split
        · rfl
        split
        · rfl
        · exact Client.options_eq opened
      · exact Client.options_eq (cycleForRead_terms ..)
  | connecting point =>
      have moved := ConnectPoint.advance_terms c timedOut env.cycle point
      cases point with
      | returned ret => exact Client.options_eq (afterConnect_terms ..)
      | waiting readPacketType =>
          rcases moved with kept | accepted
          · exact Client.options_eq kept
          · exact congrArg ConnectionTerms.options accepted
      | answered =>
          rcases moved with kept | accepted
          · exact Client.options_eq kept
          · exact congrArg ConnectionTerms.options accepted
  | attempted ret => exact Client.options_eq (afterAttempt_terms ..)
  | cycled ret =>
      rw [advance]
      split
      · exact Client.options_eq (uiotMqttPubInfoProc_terms ..)
      split
      · rfl
      split <;> rfl
  | pubSwept => exact Client.options_eq (uiotMqttSubInfoProc_terms ..)
  | subSwept =>
      have pinged := keepAlivePing_terms c env
      rw [advance]
      split <;> rename_i ping <;> rw [ping] at pinged <;>
        exact Client.options_eq pinged
  | givingUp =>
      rw [advance]
      split
      · rfl
      · exact congrArg ConnectionTerms.options (uiotMqttDisconnect_terms ..)
  | givenUp => rfl
  | finished ret =>
      have ended := endPass_terms c ret
      rw [advance]
      split <;> rename_i pass <;> rw [pass] at ended <;>
        exact Client.options_eq ended

/-! ## Sessions that stay closed -/

/-- A yield that finds the client connected when it next looks, or ends before,
as long as reconnecting is switched off. -/
def YieldPoint.Stays (c : Client) : YieldPoint → Prop
  | .givingUp => True
  | .givenUp => True
  | .finished ret => ret = .successRet → c.isConnected = true
  | _ => c.isConnected = true

theorem YieldPoint.stays_of_connected {c : Client}
    (connected : c.isConnected = true) (point : YieldPoint) :
    point.Stays c := by
  cases point with
  | finished ret => exact fun _ => connected
  | givingUp => trivial
  | givenUp => trivial
  | _ => exact connected

theorem YieldPoint.Stays.mono {c after : Client} {point : YieldPoint}
    (stays : point.Stays c)
    (kept : c.isConnected = true → after.isConnected = true) :
    point.Stays after := by
  cases point with
  | finished ret => exact fun success => kept (stays success)
  | givingUp => trivial
  | givenUp => trivial
  | _ => exact kept stays

/-- While reconnecting is switched off, a move of a yield that stays leads to
one that stays. -/
theorem YieldPoint.Stays.advance {c : Client} {point next : YieldPoint}
    {timedOut : Bool} {env : YieldEnv} (stays : point.Stays c)
    (off : c.options.autoConnectEnable = 0)
    (moved : (point.advance c timedOut env).2 = some next) :
    next.Stays (point.advance c timedOut env).1 := by
  have connected_of : ∀ {after : Client}, after.terms = c.terms →
      c.isConnected = true → ∀ point : YieldPoint, point.Stays after :=
    fun kept connected => stays_of_connected
      ((Client.isConnected_eq kept).trans connected)
  cases point with
  | top =>
      have connected : c.isConnected = true := stays
      have cycled := cycleForRead_terms c 0 env.cycle
      rw [YieldPoint.advance] at moved ⊢
      simp only [connected, Bool.not_true, Bool.false_eq_true, if_false]
        at moved ⊢
      split
      · rename_i expired
        rw [if_pos expired] at moved
        cases moved
      · exact connected_of cycled connected next
  | connecting point =>
      have connected : c.isConnected = true := stays
      have stepped := ConnectPoint.advance_terms c timedOut env.cycle point
      have joined : (point.advance c timedOut env.cycle).1.isConnected =
          true := by
        rcases stepped with kept | accepted
        · exact (Client.isConnected_eq kept).trans connected
        · exact congrArg ConnectionTerms.isConnected accepted
      cases point with
      | returned ret =>
          exact connected_of (afterConnect_terms ..) connected next
      | waiting readPacketType => exact stays_of_connected joined next
      | answered => exact stays_of_connected joined next
  | attempted ret => exact connected_of (afterAttempt_terms ..) stays next
  | cycled ret =>
      have connected : c.isConnected = true := stays
      rw [YieldPoint.advance]
      split
      · exact connected_of (uiotMqttPubInfoProc_terms ..) connected next
      split
      · exact stays_of_connected connected next
      split <;> exact stays_of_connected connected next
  | pubSwept => exact connected_of (uiotMqttSubInfoProc_terms ..) stays next
  | subSwept =>
      have connected : c.isConnected = true := stays
      have pinged := keepAlivePing_terms c env
      rw [YieldPoint.advance]
      split <;> rename_i ping <;> rw [ping] at pinged <;>
        exact connected_of pinged connected next
  | givingUp =>
      rw [YieldPoint.advance] at moved ⊢
      split at moved
      · obtain rfl := Option.some.inj moved
        exact fun success => by cases success
      · obtain rfl := Option.some.inj moved
        trivial
  | givenUp =>
      obtain rfl := Option.some.inj moved
      exact fun success => by cases success
  | finished ret =>
      have ended := endPass_terms c ret
      have off_ne : c.options.autoConnectEnable ≠ 1 := by
        rw [off]
        decide
      rw [YieldPoint.advance] at moved ⊢
      by_cases success : ret = .successRet
      · split <;> rename_i pass <;> rw [pass] at ended <;>
          exact connected_of ended (stays success) next
      · have ends : (endPass c ret).2.2 = false := by
          unfold endPass
          split
          · dsimp only
            rw [if_neg off_ne]
          · rfl
        split at moved
        · rename_i pass
          rw [pass] at ends
          cases ends
        · cases moved

/-- What an orderly session keeps: once the user has disconnected, nothing is
under way and nothing will begin; while reconnecting is switched off, there is
at most one yield, and it stays. -/
structure Session.Closed (s : Session) : Prop where
  withdrawn : s.withdrawn = true →
    s.connects = [] ∧ s.yields = [] ∧ s.client.isConnected = false ∧
      (s.client.wasManuallyDisconnected = true ∨
        s.client.options.autoConnectEnable = 0)
  alone : s.client.options.autoConnectEnable = 0 → s.yields.length ≤ 1
  stays : s.client.options.autoConnectEnable = 0 →
    ∀ point ∈ s.yields, point.Stays s.client

namespace Session.Closed

variable {s : Session}

theorem start (c : Client) : (Session.start c).Closed where
  withdrawn := fun withdrawn => by cases withdrawn
  alone := fun _ => Nat.zero_le 1
  stays := fun _ _ mem => by cases mem

/-- Only a client that may connect again is connected by a yield. -/
theorem mayOpen (closed : s.Closed) (event : Event)
    (opens : event.Opens s) : s.MayOpen := by
  cases event with
  | moveYield index timedOut env =>
      obtain ⟨at_top, point, opened⟩ := opens
      have mem : YieldPoint.top ∈ s.yields := List.mem_of_getElem? at_top
      refine ⟨?_, fun off => ?_⟩
      · cases withdrawn : s.withdrawn with
        | false => rfl
        | true =>
            rw [(closed.withdrawn withdrawn).2.1] at mem
            cases mem
      · have connected : s.client.isConnected = true :=
          closed.stays off .top mem
        rw [YieldPoint.advance] at opened
        simp only [connected, Bool.not_true, Bool.false_eq_true, if_false]
          at opened
        split at opened <;> cases opened
  | _ => exact opens.elim

/-- Nothing under way notices what leaves the terms alone. -/
theorem of_terms (closed : s.Closed) {client : Client}
    (kept : client.terms = s.client.terms) : { s with client }.Closed := by
  have isConnected := Client.isConnected_eq kept
  have manual := Client.wasManuallyDisconnected_eq kept
  have options := Client.options_eq kept
  refine ⟨fun withdrawn => ?_, fun off => ?_, fun off point mem => ?_⟩
  · obtain ⟨connects, yields, lost, final⟩ := closed.withdrawn withdrawn
    refine ⟨connects, yields, isConnected.trans lost, ?_⟩
    dsimp only
    rwa [manual, options]
  · exact closed.alone (by rwa [← options])
  · exact (closed.stays (by rwa [← options]) point mem).mono fun connected =>
      isConnected.trans connected

/-- The user calls one of the functions that connect. -/
theorem connect (closed : s.Closed) {options : MQTTConnectParams}
    (orderly : options.autoConnectEnable = 0 →
      s.yields = [] ∨ s.client.options.autoConnectEnable = 0)
    (resubscribes : Bool) (env : ConnectEnv) :
    (s.connect options resubscribes env).Closed := by
  unfold Session.connect
  split
  · exact ⟨fun withdrawn => by (cases withdrawn), closed.alone, closed.stays⟩
  · rename_i disconnected
    have opened := openConnection_terms s.client options env
    have taken : (openConnection s.client options env).1.options = options :=
      congrArg ConnectionTerms.options opened
    have isConnected : (openConnection s.client options env).1.isConnected =
        s.client.isConnected := congrArg ConnectionTerms.isConnected opened
    refine ⟨fun withdrawn => by (cases withdrawn), fun off => ?_,
      fun off point mem => ?_⟩
    · rcases orderly (taken ▸ off) with idle | off
      · simp [idle]
      · exact closed.alone off
    · rcases orderly (taken ▸ off) with idle | off
      · rw [show s.yields = [] from idle] at mem
        cases mem
      · exact (closed.stays off point mem).mono fun connected =>
          isConnected.trans connected

/-- The user calls `uiot_mqtt_yield`. -/
theorem yield (closed : s.Closed)
    (orderly : s.client.options.autoConnectEnable = 0 → s.yields = [])
    (timeoutMs : Nat) : (s.yield timeoutMs).Closed := by
  unfold Session.yield
  split
  · exact closed
  split
  · exact closed
  rename_i notManual
  split
  · exact closed
  rename_i notOff
  refine ⟨fun withdrawn => ?_, fun off => ?_, fun off point mem => ?_⟩
  · obtain ⟨-, -, lost, manual | off⟩ := closed.withdrawn withdrawn
    · exact absurd ⟨by simp [lost], manual⟩ notManual
    · exact absurd ⟨by simp [lost], off⟩ notOff
  · simp [orderly off]
  · have connected : s.client.isConnected = true := by
      by_contra lost
      exact notOff ⟨by simpa using lost, off⟩
    exact YieldPoint.stays_of_connected connected point

/-- A move of a connection attempt of the user. -/
theorem moveConnect (closed : s.Closed) (index : Nat) (timedOut : Bool)
    (env : CycleEnv) (requests : Fin maxSubTopics → RequestEnv) :
    (s.moveConnect index timedOut env requests).Closed := by
  unfold Session.moveConnect
  cases found : s.connects[index]? with
  | none => exact closed
  | some call =>
      have engaged : s.withdrawn = false := by
        cases withdrawn : s.withdrawn with
        | false => rfl
        | true =>
            rw [(closed.withdrawn withdrawn).1] at found
            cases found
      have joins : ∀ {client : Client} (connects : List ConnectCall),
          (client.terms = s.client.terms ∨
            client.terms = ⟨true, false, s.client.options⟩) →
          Session.Closed { s with client, connects } := by
        intro client connects stepped
        have options : client.options = s.client.options := by
          rcases stepped with kept | accepted
          · exact Client.options_eq kept
          · exact congrArg ConnectionTerms.options accepted
        refine ⟨fun withdrawn => ?_, fun off => ?_, fun off point mem => ?_⟩
        · exact absurd (engaged.symm.trans withdrawn) (by decide)
        · exact closed.alone (by rwa [← options])
        · refine (closed.stays (by rwa [← options]) point mem).mono
            fun connected => ?_
          rcases stepped with kept | accepted
          · exact (Client.isConnected_eq kept).trans connected
          · exact congrArg ConnectionTerms.isConnected accepted
      obtain ⟨point, resubscribes⟩ := call
      cases point with
      | returned ret =>
          refine joins _ (.inl ?_)
          split
          · exact afterConnect_terms ..
          · rfl
      | waiting readPacketType =>
          have stepped := ConnectPoint.advance_terms s.client timedOut env
            (.waiting readPacketType)
          exact joins _ stepped
      | answered =>
          have stepped := ConnectPoint.advance_terms s.client timedOut env
            .answered
          exact joins _ stepped

/-- A move of a yield. -/
theorem moveYield (closed : s.Closed) (index : Nat) (timedOut : Bool)
    (env : YieldEnv) : (s.moveYield index timedOut env).Closed := by
  unfold Session.moveYield
  cases found : s.yields[index]? with
  | none => exact closed
  | some point =>
      have mem : point ∈ s.yields := List.mem_of_getElem? found
      have engaged : s.withdrawn = true → False := fun withdrawn => by
        rw [(closed.withdrawn withdrawn).2.1] at mem
        cases mem
      have options := YieldPoint.advance_options s.client timedOut env point
      have stays : s.client.options.autoConnectEnable = 0 → ∀ next,
          (point.advance s.client timedOut env).2 = some next →
            next.Stays (point.advance s.client timedOut env).1 :=
        fun off _ => (closed.stays off point mem).advance off
      -- with reconnecting switched off, this yield is the only one
      have single : s.client.options.autoConnectEnable = 0 →
          s.yields = [point] ∧ index = 0 := by
        intro off
        have alone := closed.alone off
        generalize s.yields = yields at found mem alone
        match yields, index, found with
        | [only], 0, found => exact ⟨by rw [Option.some.inj found], rfl⟩
        | first :: second :: rest, _, _ => simp at alone
      dsimp only
      generalize point.advance s.client timedOut env = moved
        at options stays ⊢
      obtain ⟨client, _ | next⟩ := moved
      · refine ⟨fun withdrawn => (engaged withdrawn).elim, fun off => ?_,
          fun off other otherMem => ?_⟩
        · obtain ⟨only, rfl⟩ := single (by rwa [← options])
          simp [only]
        · obtain ⟨only, rfl⟩ := single (by rwa [← options])
          simp [only] at otherMem
      · refine ⟨fun withdrawn => (engaged withdrawn).elim, fun off => ?_,
          fun off other otherMem => ?_⟩
        · obtain ⟨only, rfl⟩ := single (by rwa [← options])
          simp [only]
        · have unchanged : s.client.options.autoConnectEnable = 0 := by
            rwa [← options]
          obtain ⟨only, rfl⟩ := single unchanged
          have same : other = next := by simpa [only] using otherMem
          exact same ▸ stays unchanged next rfl

/-- An orderly event keeps the session closed. -/
theorem step (closed : s.Closed) (event : Event)
    (orderly : event.Orderly s) : (s.step event).Closed := by
  cases event with
  | connect options env =>
      exact closed.connect (fun off => .inl (orderly off)) false env
  | attemptReconnect env => exact closed.connect .inr true env
  | publish topicName params env =>
      exact closed.of_terms (uiotMqttPublish_terms ..)
  | subscribe topicFilter params env =>
      exact closed.of_terms (uiotMqttSubscribe_terms ..)
  | unsubscribe topicFilter env =>
      exact closed.of_terms (uiotMqttUnsubscribe_terms ..)
  | disconnect writes =>
      obtain ⟨connects, yields, final⟩ := orderly
      have terms := uiotMqttDisconnect_terms s.client writes
      have isConnected := congrArg ConnectionTerms.isConnected terms
      have manual := congrArg ConnectionTerms.wasManuallyDisconnected terms
      have options := congrArg ConnectionTerms.options terms
      refine ⟨fun _ => ⟨connects, yields, isConnected, ?_⟩, fun _ => ?_,
        fun _ point mem => ?_⟩
      · rcases final with connected | already | off
        · exact .inl (manual.trans (by simp [connected]))
        · exact .inl (manual.trans (by simp [already]))
        · exact .inr ((congrArg MQTTConnectParams.autoConnectEnable
            options).trans off)
      · exact yields ▸ Nat.zero_le 1
      · exact absurd (yields ▸ mem : point ∈ []) List.not_mem_nil
  | setAutoreconnect value =>
      cases value with
      | true =>
          let next := s.step (.setAutoreconnect true)
          have on : next.client.options.autoConnectEnable = 1 := rfl
          refine ⟨fun withdrawn => ?_, fun off => ?_, fun off => ?_⟩
          · simp [Session.step] at withdrawn
          · exact absurd (on.symm.trans off) (by decide)
          · exact absurd (on.symm.trans off) (by decide)
      | false =>
          refine ⟨fun withdrawn => ?_, fun _ => ?_, fun _ point mem => ?_⟩
          · have before : s.withdrawn = true := by
              simpa [Session.step] using withdrawn
            obtain ⟨connects, yields, lost, -⟩ := closed.withdrawn before
            exact ⟨connects, yields, lost, .inr rfl⟩
          · rcases orderly rfl with idle | ⟨-, single⟩
            · exact idle ▸ Nat.zero_le 1
            · exact single.le
          · rcases orderly rfl with idle | ⟨connected, -⟩
            · exact absurd (idle ▸ mem : point ∈ []) List.not_mem_nil
            · exact YieldPoint.stays_of_connected connected point
  | yield timeoutMs => exact closed.yield orderly timeoutMs
  | moveConnect index timedOut env requests =>
      exact closed.moveConnect index timedOut env requests
  | moveYield index timedOut env => exact closed.moveYield index timedOut env
  | elapse duration => exact closed.of_terms rfl

end Session.Closed

/-! ## Manual disconnects are final -/

/-- In an orderly session no yield opens a connection once the user has
disconnected or while reconnecting is switched off. -/
theorem run_staysClosed (c : Client) (events : List Event)
    (orderly : Machine.Along Session.step (fun s event => event.Orderly s)
      (.start c) events) :
    Machine.Along Session.step (fun s event => event.Opens s → s.MayOpen)
      (.start c) events :=
  orderly.imp_of_invariant Session.Closed
    (fun _ event closed _ => closed.mayOpen event)
    (fun _ event closed => closed.step event) (Session.Closed.start c)

/-- A turn of a connection attempt in which a packet may arrive. -/
def connectTurn (packet : List UInt8) : Event :=
  .moveConnect 0 false (arriving packet) fun _ => unhindered

/-- A turn of a yield in which a packet may arrive. -/
def yieldTurn (packet : List UInt8) : Event :=
  .moveYield 0 false (passWith 0 (arriving packet) unhindered)

/-- A session in which the user connects and yields. -/
def connectedSession : List Event :=
  [.connect plainOptions acceptedConnect, connectTurn [0x20, 2, 0, 0],
    connectTurn [], connectTurn [], .yield 1000]

/-- The case of a session that loses its connection and opens it again. -/
theorem run_staysClosed_reconnecting :
    Machine.Along Session.step (fun s event => event.Opens s → s.MayOpen)
      (.start (uiotMqttInit ⟨2000, true⟩ 0))
      (connectedSession ++
        [.moveYield 0 false lostPass, yieldTurn [], yieldTurn [], yieldTurn [],
          yieldTurn [], .elapse 2000000, yieldTurn []]) :=
  run_staysClosed _ _ (by decide +kernel)

/-- A session in which the handler of a message disconnects. -/
def disconnectedInHandler : List Event :=
  connectedSession ++
    [yieldTurn [0x30, 3, 0, 1, 97], .disconnect [.accepted uiotMqttTxBufLen],
      yieldTurn [], yieldTurn [], yieldTurn [], yieldTurn []]

/-- The yield that called the handler opens a connection again. -/
theorem disconnectInHandler_isNotFinal :
    ¬∀ c events, Machine.Along Session.step
      (fun s event => event.Opens s → s.MayOpen) (.start c) events := by
  intro all
  let before := Machine.run Session.step
    (.start (uiotMqttInit ⟨2000, true⟩ 0)) disconnectedInHandler
  have along := all (uiotMqttInit ⟨2000, true⟩ 0)
    (disconnectedInHandler ++ [yieldTurn []])
  rw [Machine.Along.append_iff, Machine.Along.cons_iff] at along
  have opens : (yieldTurn []).Opens before :=
    ⟨by decide +kernel, .waiting 0, by decide +kernel⟩
  have withdrawn : before.withdrawn = true := by decide +kernel
  exact absurd (withdrawn.symm.trans (along.2.1 opens).1) (by decide)

end Mqtt
end UIoT
