import UIoT.Mqtt.Acks

/-!
# Connecting and disconnecting

A connection attempt opens the network connection, sends CONNECT and handles
whatever packets arrive until a CONNACK does.  A reconnect then subscribes
again to the filters of all occupied slots.
-/

namespace UIoT
namespace Mqtt

/-! ## CONNACK -/

/-- The return code a CONNACK stands for. -/
def connackRc (code : UInt8) : IoTError :=
  if code = 0 then .mqttConnectionAccepted
  else if code = 1 then .errMqttConnackUnacceptableProtocolVersion
  else if code = 2 then .errMqttConnackIdentifierRejected
  else if code = 3 then .errMqttConnackServerUnavailable
  else if code = 4 then .errMqttConnackBadUserdata
  else if code = 5 then .errMqttConnackNotAuthorized
  else .errMqttConnackUnknown

/-- `_deserialize_connack_packet`, answering `connack_rc`.  Nothing reads the
session-present flag. -/
def deserializeConnackPacket (memory : Memory) (bufLen : Nat) :
    Cursor × Except IoTError IoTError :=
  if 4 > bufLen then
    (.start, .error .errMqttBufferTooShort)
  else
    let (header, cursor) := mqttReadChar memory .start
    if MessageTypes.connack.code ≠ headerType header then
      (cursor, .error .failureRet)
    else
      match mqttReadPacketRemLenFormBuf memory cursor with
      | (cursor, .error ret) => (cursor, .error ret)
      | (cursor, .ok decodedLen) =>
          if decodedLen ≠ 2 then
            (cursor, .error .failureRet)
          else
            let (_, cursor) := mqttReadChar memory cursor
            let (code, cursor) := mqttReadChar memory cursor
            (cursor, .ok (connackRc code))

/-- `wait_for_read`, from the packet type read last on.  The timer expires when
the cycles end. -/
def waitForRead (packetType : UInt8) :
    (cycles : List CycleEnv) → (readPacketType : UInt8) → Client →
      Client × IoTError
  | [], _, c => (c, .errMqttRequestTimeout)
  | env :: cycles, readPacketType, c =>
      let (c, ret, readPacketType) := cycleForRead c readPacketType env
      if ret = .successRet ∧ readPacketType ≠ packetType then
        waitForRead packetType cycles readPacketType c
      else
        (c, ret)

/-! ## Connecting -/

/-- What a connection attempt gets from its surroundings: the result of the
network connect, the writes of CONNECT and the cycles until the timer
expires. -/
structure ConnectEnv where
  networkRet : IoTError
  writes : List WriteOutcome
  cycles : List CycleEnv

/-- `_mqtt_connect` up to the CONNECT packet being sent. -/
def sendConnect (c : Client) (options : MQTTConnectParams)
    (env : ConnectEnv) : Client × IoTError :=
  let c := { c with options }
  if env.networkRet ≠ .successRet then
    (c, env.networkRet)
  else
    let c := { c with output := [] }.lock .writeBuf
    match serializeConnectPacket c.writeBuf uiotMqttTxBufLen c.options with
    | .error ret => (c.unlock .writeBuf, ret)
    | .ok (writeBuf, len) =>
        let (c, ret) := sendMqttPacket { c with writeBuf } len env.writes
        (c.unlock .writeBuf, ret)

/-- `_mqtt_connect` from the CONNACK on. -/
def acceptConnection (c : Client) : Client × IoTError :=
  match (deserializeConnackPacket c.readBuf uiotMqttRxBufLen).2 with
  | .error ret => (c, ret)
  | .ok rc =>
      if rc ≠ .mqttConnectionAccepted then
        (c, rc)
      else
        ({ c with
            isConnected := true
            wasManuallyDisconnected := false
            isPingOutstanding := 0
            pingTimer :=
              .countdown c.clock c.options.keepAliveInterval.toNat },
          .successRet)

/-- `_mqtt_connect` -/
def mqttConnect (c : Client) (options : MQTTConnectParams)
    (env : ConnectEnv) : Client × IoTError :=
  match sendConnect c options env with
  | (c, .successRet) =>
      match waitForRead MessageTypes.connack.code env.cycles 0 c with
      | (c, .successRet) => acceptConnection c
      | (c, ret) => (c, ret)
  | (c, ret) => (c, ret)

/-- `uiot_mqtt_connect` -/
def uiotMqttConnect (c : Client) (options : MQTTConnectParams)
    (env : ConnectEnv) : Client × IoTError :=
  if c.isConnected then
    (c, .mqttAlreadyConnected)
  else
    mqttConnect c options env

/-- What a reconnect gets from its surroundings. -/
structure ReconnectEnv where
  connect : ConnectEnv
  requests : Fin maxSubTopics → RequestEnv

/-- `uiot_mqtt_attempt_reconnect` -/
def uiotMqttAttemptReconnect (c : Client) (env : ReconnectEnv) :
    Client × IoTError :=
  if c.isConnected then
    (c, .mqttAlreadyConnected)
  else
    match uiotMqttConnect c c.options env.connect with
    | (c, ret) =>
        if !c.isConnected then
          (c, ret)
        else
          match uiotMqttResubscribe c env.requests with
          | (c, .successRet) => (c, .mqttReconnected)
          | (c, ret) => (c, ret)

/-- `uiot_mqtt_set_autoreconnect` -/
def uiotMqttSetAutoreconnect (c : Client) (value : Bool) : Client :=
  { c with
    options := { c.options with autoConnectEnable := if value then 1 else 0 } }

/-! ## Disconnecting -/

/-- The DISCONNECT packet, sent if it can be. -/
def sendDisconnect (c : Client) (writes : List WriteOutcome) : Client :=
  let c := c.lock .writeBuf
  match serializePacketWithZeroPayload c.writeBuf uiotMqttTxBufLen
      .disconnect with
  | .error _ => c.unlock .writeBuf
  | .ok (writeBuf, len) =>
      (sendMqttPacket { c with writeBuf } len writes).1.unlock .writeBuf

/-- `uiot_mqtt_disconnect` -/
def uiotMqttDisconnect (c : Client) (writes : List WriteOutcome) :
    Client × IoTError :=
  if !c.isConnected then
    (c, .errMqttNoConn)
  else
    ({ sendDisconnect c writes with
        isConnected := false
        wasManuallyDisconnected := true },
      .successRet)

end Mqtt
end UIoT
