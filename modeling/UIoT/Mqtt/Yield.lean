import UIoT.Mqtt.Connection

/-!
# Yielding

`uiot_mqtt_yield` reads packets, sweeps the waiting lists for answered and
timed-out requests, keeps the connection alive and reconnects when it is lost.
-/

namespace UIoT
namespace Mqtt

/-! ## Sweeping the waiting lists -/

/-- A waiting list of the client, its nodes, and what happens when one of them
has waited too long. -/
structure WaitingList (Info : Type) where
  nodes : Client → List Info
  setNodes : Client → List Info → Client
  address : Info → Nat
  nodeState : Info → MQTTNodeState
  startTime : Info → Timer
  timeOut : Client → Info → Client

namespace WaitingList

variable {Info : Type} (list : WaitingList Info)

/-- `list_remove` -/
def remove (c : Client) (info : Info) : Client :=
  list.setNodes c
    ((list.nodes c).eraseP fun other => list.address other = list.address info)

/-- The loop of a sweep over the nodes, the last one first.  A node is unlinked
once the iterator has left it. -/
def infoLoop : List Info → Client → Client
  | [], c => c
  | info :: infos, c =>
      if list.nodeState info = .invalid then
        infoLoop infos (list.remove c info)
      else if !c.isConnected then
        infoLoop infos c
      else if (list.startTime info).leftMs c.clock > 0 then
        infoLoop infos c
      else
        infoLoop infos (list.remove (list.timeOut c info) info)

/-- A sweep of the list under its mutex. -/
def infoProc (mutex : Lock) (c : Client) (iteratorAllocated : Bool) : Client :=
  if iteratorAllocated then
    (list.infoLoop (list.nodes c).reverse (c.lock mutex)).unlock mutex
  else
    c

end WaitingList

/-- `list_pub_wait_ack` -/
def pubWaitAck : WaitingList UIoTPubInfo where
  nodes := Client.listPubWaitAck
  setNodes c infos := { c with listPubWaitAck := infos }
  address := UIoTPubInfo.address
  nodeState := UIoTPubInfo.nodeState
  startTime := UIoTPubInfo.pubStartTime
  timeOut c info := c.raise (.publishTimeout info.msgId)

/-- The event of a request on `list_sub_wait_ack` that timed out. -/
def UIoTSubInfo.timeoutEvent (info : UIoTSubInfo) : MQTTEvent :=
  if info.type = .subscribe then .subscribeTimeout info.msgId
  else .unsubscribeTimeout info.msgId

/-- `list_sub_wait_ack` -/
def subWaitAck : WaitingList UIoTSubInfo where
  nodes := Client.listSubWaitAck
  setNodes c infos := { c with listSubWaitAck := infos }
  address := UIoTSubInfo.address
  nodeState := UIoTSubInfo.nodeState
  startTime := UIoTSubInfo.subStartTime
  timeOut c info :=
    (c.raise info.timeoutEvent).free info.handler.topicFilter

/-- `uiot_mqtt_pub_info_proc` -/
def uiotMqttPubInfoProc (c : Client) (iteratorAllocated : Bool) : Client :=
  pubWaitAck.infoProc .listPub c iteratorAllocated

/-- `uiot_mqtt_sub_info_proc` -/
def uiotMqttSubInfoProc (c : Client) (iteratorAllocated : Bool) : Client :=
  subWaitAck.infoProc .listSub c iteratorAllocated

/-! ## Keeping the connection -/

/-- What one pass of the loop in `uiot_mqtt_yield` gets from its
surroundings. -/
structure YieldEnv where
  elapsed : Nat
  cycle : CycleEnv
  pubIteratorAllocated : Bool
  subIteratorAllocated : Bool
  pings : Fin 4 → List WriteOutcome
  disconnectWrites : List WriteOutcome
  reconnect : ReconnectEnv

/-- `_handle_disconnect`.  Disconnecting a connected client cannot fail. -/
def handleDisconnect (c : Client) (writes : List WriteOutcome) :
    Client × IoTError :=
  if !c.isConnected then
    (c, .errMqttNoConn)
  else
    let c := (uiotMqttDisconnect c writes).1
    ({ c.raise .disconnect with wasManuallyDisconnected := false },
      .errMqttNoConn)

/-- What `_handle_reconnect` does once the attempt has returned;
`ENABLE_INFINITE_RECONNECT` is set. -/
def afterAttempt (c : Client) (ret : IoTError) : Client × IoTError :=
  if ret = .mqttReconnected then
    (c.raise .reconnect, .mqttReconnected)
  else
    let doubled := c.currentReconnectWaitInterval * 2 % 2 ^ 32
    let interval :=
      if maxReconnectWaitInterval < doubled then maxReconnectWaitInterval
      else doubled
    ({ c with
        currentReconnectWaitInterval := interval
        reconnectDelayTimer := .countdownMs c.clock interval },
      .errMqttAttemptingReconnect)

/-- `_handle_reconnect` -/
def handleReconnect (c : Client) (env : ReconnectEnv) : Client × IoTError :=
  if !c.reconnectDelayTimer.hasExpired c.clock then
    (c, .errMqttAttemptingReconnect)
  else
    let (c, ret) := uiotMqttAttemptReconnect c env
    afterAttempt c ret

/-- The loop of `_mqtt_keep_alive` that sends the PINGREQ, from an attempt
on. -/
def sendPing (len : Nat) (pings : Fin 4 → List WriteOutcome) :
    List (Fin 4) → Client → Client × IoTError
  | [], c => (c, .failureRet)
  | attempt :: attempts, c =>
      match sendMqttPacket c len (pings attempt) with
      | (c, .successRet) => (c, .successRet)
      | (c, _) => sendPing len pings attempts c

/-- `_mqtt_keep_alive` -/
def mqttKeepAlive (c : Client) (env : YieldEnv) : Client × IoTError :=
  if c.options.keepAliveInterval = 0 then
    (c, .successRet)
  else if !c.pingTimer.hasExpired c.clock then
    (c, .successRet)
  else if c.isPingOutstanding.toNat ≥ mqttPingRetryTimes then
    handleDisconnect c env.disconnectWrites
  else
    let c := c.lock .writeBuf
    match serializePacketWithZeroPayload c.writeBuf uiotMqttTxBufLen
        .pingreq with
    | .error ret => (c.unlock .writeBuf, ret)
    | .ok (writeBuf, len) =>
        match sendPing len env.pings (List.finRange 4)
            { c with writeBuf } with
        | (c, .successRet) =>
            ({ c.unlock .writeBuf with
                isPingOutstanding := c.isPingOutstanding + 1
                pingTimer := .countdown c.clock
                  (min 5 (c.options.keepAliveInterval.toNat / 2)) },
              .successRet)
        | (c, _) => handleDisconnect (c.unlock .writeBuf) env.disconnectWrites

/-! ## The loop -/

/-- What follows a cycle in the loop of `uiot_mqtt_yield`. -/
def afterCycle (c : Client) (ret : IoTError) (env : YieldEnv) :
    Client × IoTError :=
  if ret = .successRet then
    let c := uiotMqttPubInfoProc c env.pubIteratorAllocated
    let c := uiotMqttSubInfoProc c env.subIteratorAllocated
    mqttKeepAlive c env
  else if ret = .errSslReadTimeout ∨ ret = .errSslReadFailed ∨
      ret = .errTcpPeerShutdown ∨ ret = .errTcpReadFailed then
    handleDisconnect c env.disconnectWrites
  else if ret = .failureRet then
    (c, .successRet)
  else
    (c, ret)

/-- The end of a pass through the loop of `uiot_mqtt_yield`, and whether the
loop goes on. -/
def endPass (c : Client) (ret : IoTError) : Client × IoTError × Bool :=
  if ret = .errMqttNoConn then
    let c :=
      { c with
        counterNetworkDisconnected :=
          (c.counterNetworkDisconnected + 1) % 2 ^ 32 }
    if c.options.autoConnectEnable = 1 then
      ({ c with
          currentReconnectWaitInterval := minReconnectWaitInterval
          reconnectDelayTimer := .countdownMs c.clock minReconnectWaitInterval },
        .errMqttAttemptingReconnect, true)
    else
      (c, ret, false)
  else if ret = .successRet then
    (c, ret, true)
  else
    (c, ret, false)

/-- One pass through the loop of `uiot_mqtt_yield`. -/
def yieldPass (c : Client) (env : YieldEnv) : Client × IoTError × Bool :=
  let c := c.tick env.elapsed
  if !c.isConnected then
    if c.currentReconnectWaitInterval > maxReconnectWaitInterval then
      (c, .errMqttReconnectTimeout, false)
    else
      let (c, ret) := handleReconnect c env.reconnect
      (c, ret, true)
  else
    let (c, ret, _) := cycleForRead c 0 env.cycle
    let (c, ret) := afterCycle c ret env
    endPass c ret

/-- The loop of `uiot_mqtt_yield`.  The timer expires when the passes end. -/
def yieldLoop : List YieldEnv → Client → IoTError → Client × IoTError
  | [], c, ret => (c, ret)
  | env :: envs, c, _ =>
      match yieldPass c env with
      | (c, ret, true) => yieldLoop envs c ret
      | (c, ret, false) => (c, ret)

/-- `uiot_mqtt_yield` -/
def uiotMqttYield (c : Client) (timeoutMs : Nat) (envs : List YieldEnv) :
    Client × IoTError :=
  if timeoutMs = 0 then
    (c, .errParamInvalid)
  else if !c.isConnected ∧ c.wasManuallyDisconnected then
    (c, .mqttManuallyDisconnected)
  else if !c.isConnected ∧ c.options.autoConnectEnable = 0 then
    (c, .errMqttNoConn)
  else
    yieldLoop envs c .successRet

end Mqtt
end UIoT
