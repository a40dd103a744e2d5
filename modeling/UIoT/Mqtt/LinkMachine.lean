import UIoT.Mqtt.ManualDisconnect

/-!
# The connection as a machine

What an event of a session does to the state of the connection: one operation,
picked by where the moving call stands.  Of the rest of the session only the
packet that arrives and the outcome of a ping matter to it.
-/

namespace UIoT
namespace Mqtt

/-! ## Operations -/

/-- What can happen to the state of a connection. -/
inductive LinkOp
  | idle
  | configure (options : MQTTConnectParams)
  | elapse (duration : Nat)
  | receive (type : MessageTypes) (duration : Nat)
  | accept
  | lose
  | forgive
  | ping
  | fail
  | lost
  deriving DecidableEq

namespace Link

/-- A PINGREQ was sent: one more is outstanding, and the wait for its answer
begins. -/
def ping (link : Link) : Link :=
  { link with
    isPingOutstanding := link.isPingOutstanding + 1
    pingTimer := .countdown link.clock
      (min 5 (link.options.keepAliveInterval.toNat / 2)) }

/-- The wait that follows a failed attempt, in milliseconds. -/
def nextWait (link : Link) : Nat :=
  let doubled := link.currentReconnectWaitInterval * 2 % 2 ^ 32
  if maxReconnectWaitInterval < doubled then maxReconnectWaitInterval
  else doubled

/-- An attempt to connect again has failed. -/
def fail (link : Link) : Link :=
  { link with
    currentReconnectWaitInterval := link.nextWait
    reconnectDelayTimer := .countdownMs link.clock link.nextWait }

/-- A pass of a yield has ended without a connection. -/
def lost (link : Link) : Link :=
  let link :=
    { link with
      counterNetworkDisconnected :=
        (link.counterNetworkDisconnected + 1) % 2 ^ 32 }
  if link.options.autoConnectEnable = 1 then
    { link with
      currentReconnectWaitInterval := minReconnectWaitInterval
      reconnectDelayTimer := .countdownMs link.clock minReconnectWaitInterval }
  else
    link

/-- What an operation does. -/
def apply (link : Link) : LinkOp → Link
  | .idle => link
  | .configure options => { link with options }
  | .elapse duration => { link with clock := link.clock + duration }
  | .receive type duration =>
      { link with clock := link.clock + duration }.note type
  | .accept => link.accept
  | .lose =>
      { link with isConnected := false, wasManuallyDisconnected := true }
  | .forgive => { link with wasManuallyDisconnected := false }
  | .ping => link.ping
  | .fail => link.fail
  | .lost => link.lost

end Link

/-! ## The operation of an event -/

/-- What a cycle does. -/
def cycleOp (c : Client) (env : CycleEnv) : LinkOp :=
  match cycleType c env with
  | none => .elapse env.elapsed
  | some type => .receive type env.elapsed

/-- The PINGREQ of `_mqtt_keep_alive` can be sent. -/
def pingSent (c : Client) (env : YieldEnv) : Bool :=
  let c := c.lock .writeBuf
  match serializePacketWithZeroPayload c.writeBuf uiotMqttTxBufLen .pingreq with
  | .error _ => false
  | .ok (writeBuf, len) =>
      (sendPing len env.pings (List.finRange 4) { c with writeBuf }).2 =
        .successRet

/-- The keep-alive timer has expired, and not so many pings are outstanding that
the connection is given up. -/
def pingDue (c : Client) : Bool :=
  c.options.keepAliveInterval ≠ 0 && c.pingTimer.hasExpired c.clock &&
    c.isPingOutstanding.toNat < mqttPingRetryTimes

/-- The CONNACK in the read buffer accepts the connection. -/
def connackAccepts (c : Client) : Bool :=
  match (deserializeConnackPacket c.readBuf uiotMqttRxBufLen).2 with
  | .error _ => false
  | .ok rc => rc = .mqttConnectionAccepted

/-- What a move of a connection attempt does. -/
def ConnectPoint.linkOp (c : Client) (timedOut : Bool) (env : CycleEnv) :
    ConnectPoint → LinkOp
  | .waiting _ => if timedOut then .idle else cycleOp c env
  | .answered => if connackAccepts c then .accept else .idle
  | .returned _ => .idle

/-- What a move of a yield does. -/
def YieldPoint.linkOp (c : Client) (timedOut : Bool)
    (env : YieldEnv) : YieldPoint → LinkOp
  | .top =>
      if timedOut ∨ c.isConnected = false then .idle else cycleOp c env.cycle
  | .connecting point => point.linkOp c timedOut env.cycle
  | .attempted ret => if ret = .mqttReconnected then .idle else .fail
  | .subSwept => if pingDue c && pingSent c env then .ping else .idle
  | .givingUp => if c.isConnected then .lose else .idle
  | .givenUp => .forgive
  | .finished ret => if ret = .errMqttNoConn then .lost else .idle
  | .cycled _ | .pubSwept => .idle

theorem cycleForRead_apply (c : Client) (packetType : UInt8)
    (env : CycleEnv) :
    (cycleForRead c packetType env).1.link = c.link.apply (cycleOp c env) := by
  rw [cycleForRead_link, cycleOp]
  cases cycleType c env <;> rfl

theorem openConnection_link (c : Client) (options : MQTTConnectParams)
    (env : ConnectEnv) :
    (openConnection c options env).1.link = { c.link with options } := by
  have sent := sendConnect_link c options env
  unfold openConnection
  split <;> rename_i send <;> rw [send] at sent <;> exact sent

theorem afterConnect_link (c : Client) (ret : IoTError)
    (requests : Fin maxSubTopics → RequestEnv) :
    (afterConnect c ret requests).1.link = c.link := by
  have requested := uiotMqttResubscribe_link c requests
  unfold afterConnect
  split
  · rfl
  split <;> rename_i request <;> rw [request] at requested <;> exact requested

theorem acceptConnection_apply (c : Client) :
    (acceptConnection c).1.link =
      c.link.apply (if connackAccepts c then .accept else .idle) := by
  unfold acceptConnection connackAccepts
  cases (deserializeConnackPacket c.readBuf uiotMqttRxBufLen).2 with
  | error ret => rfl
  | ok rc =>
      by_cases accepted : rc = .mqttConnectionAccepted
      · simp only [accepted, ne_eq, not_true, if_false, decide_true, if_true]
        rfl
      · simp only [accepted, ne_eq, not_false_iff, if_true, decide_false,
          Bool.false_eq_true, if_false]
        rfl

theorem ConnectPoint.advance_link (c : Client) (timedOut : Bool)
    (env : CycleEnv) (point : ConnectPoint) :
    (point.advance c timedOut env).1.link =
      c.link.apply (point.linkOp c timedOut env) := by
  cases point with
  | waiting readPacketType =>
      have cycled := cycleForRead_apply c readPacketType env
      rw [advance, linkOp]
      split
      · rfl
      dsimp only
      split
      · exact cycled
      split <;> exact cycled
  | answered => exact acceptConnection_apply c
  | returned ret => rfl

theorem pingSent_of_error {c : Client} {ret : IoTError}
    (refused : serializePacketWithZeroPayload (c.lock .writeBuf).writeBuf
      uiotMqttTxBufLen .pingreq = .error ret) (env : YieldEnv) :
    pingSent c env = false := by
  unfold pingSent
  dsimp only
  rw [refused]

theorem pingSent_of_ok {c : Client} {writeBuf : Memory} {len : Nat}
    (answer : serializePacketWithZeroPayload (c.lock .writeBuf).writeBuf
      uiotMqttTxBufLen .pingreq = .ok (writeBuf, len)) (env : YieldEnv) :
    pingSent c env = decide ((sendPing len env.pings (List.finRange 4)
      { c.lock .writeBuf with writeBuf }).2 = .successRet) := by
  unfold pingSent
  dsimp only
  rw [answer]

/-- A ping is sent or nothing happens to the connection. -/
theorem keepAlivePing_link (c : Client) (env : YieldEnv) :
    (keepAlivePing c env).1.link =
      c.link.apply (if pingDue c && pingSent c env then .ping else .idle) := by
  unfold keepAlivePing pingDue
  by_cases kept : c.options.keepAliveInterval = 0
  · rw [if_pos kept]
    simp [kept, Link.apply]
  rw [if_neg kept]
  cases expired : c.pingTimer.hasExpired c.clock with
  | false => simp [Link.apply]
  | true =>
      by_cases few : c.isPingOutstanding.toNat ≥ mqttPingRetryTimes
      · rw [if_neg (by decide), if_pos few]
        simp [Nat.not_lt.mpr few, Link.apply]
      rw [if_neg (by decide), if_neg few]
      have due : (decide (c.options.keepAliveInterval ≠ 0) && true &&
          decide (c.isPingOutstanding.toNat < mqttPingRetryTimes)) = true := by
        simp [kept, Nat.not_le.mp few]
      rw [due, Bool.true_and]
      dsimp only
      split
      · rename_i ret refused
        rw [pingSent_of_error refused]
        rfl
      rename_i writeBuf len answer
      have sent := sendPing_link len env.pings (List.finRange 4)
        { c.lock .writeBuf with writeBuf }
      rw [pingSent_of_ok answer]
      split
      · rename_i next send
        rw [send] at sent
        have same : next.link = c.link := sent
        rw [send, if_pos (decide_eq_true rfl), Link.apply, ← same]
        rfl
      · rename_i next ret failed send
        rw [send] at sent
        have other : ret ≠ .successRet := failed
        rw [send, if_neg (by simpa using other)]
        exact sent

theorem endPass_link (c : Client) (ret : IoTError) :
    (endPass c ret).1.link =
      c.link.apply (if ret = .errMqttNoConn then .lost else .idle) := by
  unfold endPass
  split
  · dsimp only
    split
    · rename_i on
      rw [Link.apply, Link.lost]
      exact (if_pos on).symm
    · rename_i off
      rw [Link.apply, Link.lost]
      exact (if_neg off).symm
  split <;> rfl

theorem afterAttempt_link (c : Client) (ret : IoTError) :
    (afterAttempt c ret).1.link =
      c.link.apply (if ret = .mqttReconnected then .idle else .fail) := by
  unfold afterAttempt
  split <;> rfl

theorem YieldPoint.advance_link (c : Client) (timedOut : Bool)
    (env : YieldEnv) (point : YieldPoint) :
    (point.advance c timedOut env).1.link =
      c.link.apply (point.linkOp c timedOut env) := by
  cases point with
  | top =>
      have opened := openConnection_link c c.options env.reconnect.connect
      have cycled := cycleForRead_apply c 0 env.cycle
      rw [advance, linkOp]
      cases timedOut with
      | true => rfl
      | false =>
          cases c.isConnected with
          | false =>
              have idle : (if false = true ∨ false = false then LinkOp.idle
                  else cycleOp c env.cycle) = .idle := if_pos (.inr rfl)
              rw [idle, if_neg (by decide), if_pos (by decide)]
              split
              · rfl
              split
              · rfl
              · exact opened
          | true => exact cycled
  | connecting point =>
      have moved := ConnectPoint.advance_link c timedOut env.cycle point
      cases point with
      | returned ret => exact afterConnect_link ..
      | waiting readPacketType => exact moved
      | answered => exact moved
  | attempted ret => exact afterAttempt_link c ret
  | cycled ret =>
      rw [advance, linkOp]
      split
      · exact uiotMqttPubInfoProc_link ..
      split
      · rfl
      split <;> rfl
  | pubSwept => exact uiotMqttSubInfoProc_link ..
  | subSwept =>
      have pinged := keepAlivePing_link c env
      rw [advance]
      split <;> rename_i ping <;> rw [ping] at pinged <;> exact pinged
  | givingUp =>
      have ended := uiotMqttDisconnect_link c env.disconnectWrites
      rw [advance, linkOp]
      cases connected : c.isConnected with
      | false => rfl
      | true =>
          rw [connected] at ended
          exact ended
  | givenUp => rfl
  | finished ret =>
      have ended := endPass_link c ret
      rw [advance]
      split <;> rename_i pass <;> rw [pass] at ended <;> exact ended

/-! ## Events -/

/-- What an event does to the connection. -/
def Event.linkOp (s : Session) : Event → LinkOp
  | .connect options _ =>
      if s.client.isConnected then .idle else .configure options
  | .disconnect _ => if s.client.isConnected then .lose else .idle
  | .setAutoreconnect value =>
      .configure
        { s.client.options with autoConnectEnable := if value then 1 else 0 }
  | .moveConnect index timedOut env _ =>
      match s.connects[index]? with
      | none => .idle
      | some call => call.point.linkOp s.client timedOut env
  | .moveYield index timedOut env =>
      match s.yields[index]? with
      | none => .idle
      | some point => point.linkOp s.client timedOut env
  | .elapse duration => .elapse duration
  | .attemptReconnect _ | .publish .. | .subscribe .. | .unsubscribe ..
  | .yield _ => .idle

theorem connect_link (s : Session) (options : MQTTConnectParams)
    (resubscribes : Bool) (env : ConnectEnv) :
    (s.connect options resubscribes env).client.link =
      s.client.link.apply
        (if s.client.isConnected then .idle else .configure options) := by
  unfold Session.connect
  split
  · rfl
  · exact openConnection_link ..

theorem moveConnect_link (s : Session) (index : Nat) (timedOut : Bool)
    (env : CycleEnv) (requests : Fin maxSubTopics → RequestEnv) :
    (s.moveConnect index timedOut env requests).client.link =
      s.client.link.apply
        ((Event.moveConnect index timedOut env requests).linkOp s) := by
  unfold Session.moveConnect Event.linkOp
  dsimp only
  cases s.connects[index]? with
  | none => rfl
  | some call =>
      obtain ⟨point, resubscribes⟩ := call
      have moved := ConnectPoint.advance_link s.client timedOut env point
      cases point with
      | returned ret =>
          cases resubscribes with
          | true => exact afterConnect_link ..
          | false => rfl
      | waiting readPacketType => exact moved
      | answered => exact moved

theorem moveYield_link (s : Session) (index : Nat) (timedOut : Bool)
    (env : YieldEnv) :
    (s.moveYield index timedOut env).client.link =
      s.client.link.apply
        ((Event.moveYield index timedOut env).linkOp s) := by
  unfold Session.moveYield Event.linkOp
  dsimp only
  cases s.yields[index]? with
  | none => rfl
  | some point =>
      have moved := YieldPoint.advance_link s.client timedOut env point
      dsimp only
      split <;> rename_i advanced <;> rw [advanced] at moved <;> exact moved

/-- The session refines the machine of its connection. -/
theorem Session.step_link (s : Session) (event : Event) :
    (s.step event).client.link = s.client.link.apply (event.linkOp s) := by
  cases event with
  | connect options env => exact connect_link s options false env
  | attemptReconnect env =>
      refine (connect_link s s.client.options true env).trans ?_
      split <;> rfl
  | publish topicName params env => exact uiotMqttPublish_link ..
  | subscribe topicFilter params env => exact uiotMqttSubscribe_link ..
  | unsubscribe topicFilter env => exact uiotMqttUnsubscribe_link ..
  | disconnect writes =>
      refine (uiotMqttDisconnect_link ..).trans ?_
      rw [Event.linkOp]
      split <;> rfl
  | setAutoreconnect value => rfl
  | yield timeoutMs =>
      change (s.yield timeoutMs).client.link = s.client.link
      unfold Session.yield
      split_ifs <;> rfl
  | moveConnect index timedOut env requests => exact moveConnect_link ..
  | moveYield index timedOut env => exact moveYield_link ..
  | elapse duration => rfl

end Mqtt
end UIoT
