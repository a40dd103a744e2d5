import UIoT.Mqtt.Sessions

/-!
# Functions as runs of actions

The actions of a client, at the grain at which its functions are put together:
a request, a packet, a sweep, a packet of its own.  Every function is a run of
actions, and every action is a step, so what holds along all runs of actions
holds along the calls of a session.
-/

namespace UIoT
namespace Mqtt

/-- The actions of a client. -/
inductive Action
  | publish (topicName : CString) (params : PublishParams) (env : RequestEnv)
  | subscribe (topicFilter : CString) (params : SubscribeParams)
      (env : RequestEnv)
  | unsubscribe (topicFilter : CString) (env : RequestEnv)
  | cycle (env : CycleEnv)
  | pubInfoProc (iteratorAllocated : Bool)
  | subInfoProc (iteratorAllocated : Bool)
  | keepAlive (env : YieldEnv)
  | handleDisconnect (writes : List WriteOutcome)
  | endPass (ret : IoTError)
  | sendConnect (options : MQTTConnectParams) (env : ConnectEnv)
  | acceptConnection
  | afterAttempt (ret : IoTError)
  | disconnect (writes : List WriteOutcome)
  | setAutoreconnect (value : Bool)
  | elapse (duration : Nat)

/-- What an action does to the client. -/
def Client.act (c : Client) : Action → Client
  | .publish topicName params env => (uiotMqttPublish c topicName params env).1
  | .subscribe topicFilter params env =>
      (uiotMqttSubscribe c topicFilter params env).1
  | .unsubscribe topicFilter env => (uiotMqttUnsubscribe c topicFilter env).1
  | .cycle env => (cycleForRead c 0 env).1
  | .pubInfoProc iteratorAllocated => uiotMqttPubInfoProc c iteratorAllocated
  | .subInfoProc iteratorAllocated => uiotMqttSubInfoProc c iteratorAllocated
  | .keepAlive env => (mqttKeepAlive c env).1
  | .handleDisconnect writes => (Mqtt.handleDisconnect c writes).1
  | .endPass ret => (Mqtt.endPass c ret).1
  | .sendConnect options env => (Mqtt.sendConnect c options env).1
  | .acceptConnection => (Mqtt.acceptConnection c).1
  | .afterAttempt ret => (Mqtt.afterAttempt c ret).1
  | .disconnect writes => (uiotMqttDisconnect c writes).1
  | .setAutoreconnect value => uiotMqttSetAutoreconnect c value
  | .elapse duration => c.tick duration

/-- The step of the books that an action is. -/
def Action.op : Action → Op
  | .publish topicName params env => .publish topicName params env
  | .subscribe topicFilter params env => .subscribe topicFilter params env
  | .unsubscribe topicFilter env => .unsubscribe topicFilter env
  | .cycle env => .cycle env
  | .pubInfoProc iteratorAllocated => .pubInfoProc iteratorAllocated
  | .subInfoProc iteratorAllocated => .subInfoProc iteratorAllocated
  | .keepAlive env =>
      .other (fun c => (mqttKeepAlive c env).1) fun c => mqttKeepAlive_kept c env
  | .handleDisconnect writes =>
      .other (fun c => (Mqtt.handleDisconnect c writes).1)
        fun c => handleDisconnect_kept c writes
  | .endPass ret =>
      .other (fun c => (Mqtt.endPass c ret).1) fun c => .of_eq (endPass_books c ret)
  | .sendConnect options env =>
      .other (fun c => (Mqtt.sendConnect c options env).1)
        fun c => .of_eq (sendConnect_books c options env)
  | .acceptConnection =>
      .other (fun c => (Mqtt.acceptConnection c).1) acceptConnection_kept
  | .afterAttempt ret =>
      .other (fun c => (Mqtt.afterAttempt c ret).1)
        fun c => afterAttempt_kept c ret
  | .disconnect writes =>
      .other (fun c => (uiotMqttDisconnect c writes).1)
        fun c => .of_eq (uiotMqttDisconnect_books c writes)
  | .setAutoreconnect value =>
      .other (uiotMqttSetAutoreconnect · value) fun _ => .refl _
  | .elapse duration => .other (·.tick duration) fun _ => .refl _

/-- An action is a step. -/
theorem Client.act_eq_step (c : Client) (action : Action) :
    c.act action = c.step action.op := by
  cases action <;> rfl

/-- A run of actions is a run of steps. -/
theorem run_act_eq (c : Client) (actions : List Action) :
    Machine.run Client.act c actions =
      Machine.run Client.step c (actions.map Action.op) := by
  induction actions generalizing c with
  | nil => rfl
  | cons action actions inductionHypothesis =>
      rw [Machine.run_cons, List.map_cons, Machine.run_cons,
        inductionHypothesis, Client.act_eq_step]

/-! ## Functions as runs -/

open Machine (Reaches)

/-- The client a cycle leaves does not depend on the packet type read last. -/
theorem cycleForRead_fst (c : Client) (first second : UInt8) (env : CycleEnv) :
    (cycleForRead c first env).1 = (cycleForRead c second env).1 := by
  unfold cycleForRead
  split <;> rfl

theorem reaches_subscribe (c : Client) (topicFilter : CString)
    (params : SubscribeParams) (env : RequestEnv) :
    Reaches Client.act c (uiotMqttSubscribe c topicFilter params env).1 :=
  Reaches.single c (Action.subscribe topicFilter params env)

/-- `cycle_for_read` is one step. -/
theorem reaches_cycle (c : Client) (packetType : UInt8) (env : CycleEnv) :
    Reaches Client.act c (cycleForRead c packetType env).1 := by
  rw [cycleForRead_fst c packetType 0]
  exact Reaches.single c (Action.cycle env)

theorem reaches_resubscribeLoop (envs : Fin maxSubTopics → RequestEnv)
    (slots : List (Fin maxSubTopics)) (c : Client) :
    Reaches Client.act c (resubscribeLoop envs slots c).1 := by
  induction slots generalizing c with
  | nil => exact .refl c
  | cons i slots inductionHypothesis =>
      unfold resubscribeLoop
      dsimp only
      split
      · exact inductionHypothesis c
      rename_i topic _
      have first := reaches_subscribe c topic.text
        ⟨(c.subHandles i).qos, (c.subHandles i).messageHandler,
          (c.subHandles i).messageHandlerData⟩ (envs i)
      split
      · rename_i requested
        rw [requested] at first
        exact first
      · rename_i requested
        rw [requested] at first
        exact first.trans (inductionHypothesis _)

/-- `uiot_mqtt_resubscribe` is a run of subscriptions. -/
theorem reaches_resubscribe (c : Client)
    (envs : Fin maxSubTopics → RequestEnv) :
    Reaches Client.act c (uiotMqttResubscribe c envs).1 := by
  unfold uiotMqttResubscribe
  split
  · exact .refl c
  · exact reaches_resubscribeLoop ..

/-- `wait_for_read` is a run of cycles. -/
theorem reaches_waitForRead (packetType : UInt8) (cycles : List CycleEnv)
    (readPacketType : UInt8) (c : Client) :
    Reaches Client.act c
      (waitForRead packetType cycles readPacketType c).1 := by
  induction cycles generalizing readPacketType c with
  | nil => exact .refl c
  | cons env cycles inductionHypothesis =>
      have first := reaches_cycle c readPacketType env
      unfold waitForRead
      dsimp only
      split
      · exact first.trans (inductionHypothesis ..)
      · exact first

/-- `uiot_mqtt_connect` sends its packet, reads others and may accept. -/
theorem reaches_connect (c : Client) (options : MQTTConnectParams)
    (env : ConnectEnv) :
    Reaches Client.act c (uiotMqttConnect c options env).1 := by
  have sends : Reaches Client.act c _ := .single c (.sendConnect options env)
  rw [Client.act] at sends
  unfold uiotMqttConnect
  split
  · exact .refl c
  unfold mqttConnect
  split
  · rename_i connected sent
    rw [sent] at sends
    have waits := reaches_waitForRead MessageTypes.connack.code env.cycles 0
      connected
    have accepts : ∀ c, Reaches Client.act c (acceptConnection c).1 :=
      fun c => .single c Action.acceptConnection
    split
    · rename_i waited
      rw [waited] at waits
      exact (sends.trans waits).trans (accepts _)
    · rename_i waited
      rw [waited] at waits
      exact sends.trans waits
  · rename_i sent
    rw [sent] at sends
    exact sends

/-- `uiot_mqtt_attempt_reconnect` connects and subscribes again. -/
theorem reaches_attemptReconnect (c : Client) (env : ReconnectEnv) :
    Reaches Client.act c (uiotMqttAttemptReconnect c env).1 := by
  have connects := reaches_connect c c.options env.connect
  unfold uiotMqttAttemptReconnect
  split
  · exact .refl c
  dsimp only
  split
  · exact connects
  have resubscribes := reaches_resubscribe
    (uiotMqttConnect c c.options env.connect).1 env.requests
  split
  · rename_i requested
    rw [requested] at resubscribes
    exact connects.trans resubscribes
  · rename_i requested
    rw [requested] at resubscribes
    exact connects.trans resubscribes

theorem reaches_handleReconnect (c : Client) (env : ReconnectEnv) :
    Reaches Client.act c (handleReconnect c env).1 := by
  unfold handleReconnect
  split
  · exact .refl c
  · exact (reaches_attemptReconnect c env).trans
      (.single _ (Action.afterAttempt (uiotMqttAttemptReconnect c env).2))

theorem reaches_afterCycle (c : Client) (ret : IoTError) (env : YieldEnv) :
    Reaches Client.act c (afterCycle c ret env).1 := by
  have disconnects : Reaches Client.act c _ :=
    .single c (.handleDisconnect env.disconnectWrites)
  unfold afterCycle
  split
  · dsimp only
    have sweepsPub : Reaches Client.act c _ :=
      .single c (.pubInfoProc env.pubIteratorAllocated)
    have sweepsSub : Reaches Client.act _ _ :=
      .single (uiotMqttPubInfoProc c env.pubIteratorAllocated)
        (.subInfoProc env.subIteratorAllocated)
    exact (sweepsPub.trans sweepsSub).tail (.keepAlive env)
  split
  · exact disconnects
  split <;> exact .refl c

/-- A pass through the loop of `uiot_mqtt_yield` is a run. -/
theorem reaches_yieldPass (c : Client) (env : YieldEnv) :
    Reaches Client.act c (yieldPass c env).1 := by
  have ticks : Reaches Client.act c _ := .single c (.elapse env.elapsed)
  refine ticks.trans ?_
  unfold yieldPass
  dsimp only
  split
  · split
    · exact .refl _
    · exact reaches_handleReconnect ..
  · have cycles := reaches_cycle (c.tick env.elapsed) 0 env.cycle
    have follows := reaches_afterCycle
      (cycleForRead (c.tick env.elapsed) 0 env.cycle).1
      (cycleForRead (c.tick env.elapsed) 0 env.cycle).2.1 env
    exact (cycles.trans follows).tail (.endPass _)

theorem reaches_yieldLoop (envs : List YieldEnv) (c : Client)
    (ret : IoTError) : Reaches Client.act c (yieldLoop envs c ret).1 := by
  induction envs generalizing c ret with
  | nil => exact .refl c
  | cons env envs inductionHypothesis =>
      have pass := reaches_yieldPass c env
      unfold yieldLoop
      split
      · rename_i passed
        rw [passed] at pass
        exact pass.trans (inductionHypothesis ..)
      · rename_i passed
        rw [passed] at pass
        exact pass

/-- `uiot_mqtt_yield` is a run. -/
theorem reaches_yield (c : Client) (timeoutMs : Nat) (envs : List YieldEnv) :
    Reaches Client.act c (uiotMqttYield c timeoutMs envs).1 := by
  unfold uiotMqttYield
  split
  · exact .refl c
  split
  · exact .refl c
  split
  · exact .refl c
  · exact reaches_yieldLoop ..

/-- Every call of a session is a run. -/
theorem reaches_call (c : Client) (call : Call) :
    Reaches Client.act c (c.call call) := by
  cases call with
  | connect options env => exact reaches_connect c options env
  | publish topicName params env =>
      exact .single c (Action.publish topicName params env)
  | subscribe topicFilter params env =>
      exact .single c (Action.subscribe topicFilter params env)
  | unsubscribe topicFilter env => exact .single c (Action.unsubscribe topicFilter env)
  | disconnect writes => exact .single c (Action.disconnect writes)
  | attemptReconnect env => exact reaches_attemptReconnect c env
  | setAutoreconnect value => exact .single c (Action.setAutoreconnect value)
  | pass env => exact reaches_yieldPass c env
  | elapse duration => exact .single c (Action.elapse duration)

/-- Every session is a run. -/
theorem reaches_calls (c : Client) (calls : List Call) :
    Reaches Client.act c (Machine.run Client.call c calls) := by
  induction calls generalizing c with
  | nil => exact .refl c
  | cons call calls inductionHypothesis =>
      exact (reaches_call c call).trans (inductionHypothesis _)

end Mqtt
end UIoT
