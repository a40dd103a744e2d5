import UIoT.Mqtt.PacketFormat

/-!
# Serialisation of outgoing packets

Each serialiser checks that the packet fits, writes it to the start of the
write buffer and answers its length.  Where it refuses a packet it has not
touched the buffer.
-/

namespace UIoT
namespace Mqtt

/-- `mqtt_write_uint_16` -/
def mqttWriteUint16 (anInt : UInt16) : List UInt8 :=
  [(anInt / 256).toUInt8, (anInt % 256).toUInt8]

/-- `mqtt_write_utf8_string` -/
def mqttWriteUtf8String (string : CString) : List UInt8 :=
  mqttWriteUint16 (UInt16.ofNat string.bytes.length) ++ string.bytes

/-- A header byte, the Remaining Length and what follows, written one behind
the other. -/
def packetBytes (header : UInt8) (remLen : Nat) (rest : List UInt8) :
    List UInt8 :=
  header :: (mqttWritePacketRemLen remLen ++ rest)

/-- The buffer after a packet was written to its start, and the `uint32_t`
length of the packet. -/
def serialized (buf : Memory) (bytes : List UInt8) : Memory × Nat :=
  (buf.write 0 bytes, bytes.length % 2 ^ 32)

/-! ## PUBLISH -/

/-- The publish parameters the caller fills in.  `payload` is empty where the
pointer is NULL. -/
structure PublishParams where
  qos : QoS
  retained : UInt8
  id : UInt16
  payload : Option (List UInt8)

/-- `_get_publish_packet_len`, an `uint32_t`. -/
def getPublishPacketLen (qos : QoS) (topicName : CString)
    (payloadLen : Nat) : Nat :=
  let len := 2 + topicName.bytes.length + payloadLen
  (if qos = .qos0 then len else len + 2) % 2 ^ 32

/-- `_serialize_publish_packet` -/
def serializePublishPacket (buf : Memory) (bufLen : Nat) (dup : UInt8)
    (qos : QoS) (retained : UInt8) (packetId : UInt16) (topicName : CString)
    (payload : Option (List UInt8)) : Except IoTError (Memory × Nat) :=
  match payload with
  | none => .error .errParamInvalid
  | some payload =>
      let remLen := getPublishPacketLen qos topicName payload.length
      if getMqttPacketLen remLen > bufLen then
        .error .errMqttBufferTooShort
      else
        match mqttInitPacketHeader .publish qos dup retained with
        | .error ret => .error ret
        | .ok header =>
            let id := if qos = .qos0 then [] else mqttWriteUint16 packetId
            .ok (serialized buf (packetBytes header remLen
              (mqttWriteUtf8String topicName ++ id ++ payload)))

/-- `serialize_pub_ack_packet` -/
def serializePubAckPacket (buf : Memory) (bufLen : Nat)
    (packetType : MessageTypes) (dup : UInt8) (packetId : UInt16) :
    Except IoTError (Memory × Nat) :=
  let requestQoS := if packetType = .pubrel then QoS.qos1 else .qos0
  let header := mqttInitPacketHeader packetType requestQoS dup 0
  if 4 > bufLen then
    .error .errMqttBufferTooShort
  else
    match header with
    | .error ret => .error ret
    | .ok header =>
        .ok (serialized buf (packetBytes header 2 (mqttWriteUint16 packetId)))

/-! ## SUBSCRIBE and UNSUBSCRIBE -/

/-- `*topicFilters + i`: a pointer into the first of the filters.  Past the end
of that filter it finds the text that happens to lie there. -/
def topicFilterAt (behind : Nat → CString) (topicFilters : List CString)
    (index : Nat) : CString :=
  match topicFilters with
  | [] => behind index
  | topicFilter :: _ =>
      if index ≤ topicFilter.bytes.length then topicFilter.drop index
      else behind index

/-- `_get_subscribe_packet_rem_len` -/
def getSubscribePacketRemLen (behind : Nat → CString) (count : Nat)
    (topicFilters : List CString) : Nat :=
  ((List.range count).foldl
    (fun len index =>
      len + (2 + (topicFilterAt behind topicFilters index).bytes.length + 1))
    2) % 2 ^ 32

/-- The entries of a SUBSCRIBE packet. -/
def subscribeEntries (behind : Nat → CString) (count : Nat)
    (topicFilters : List CString) (requestedQoSs : List QoS) : List UInt8 :=
  (List.range count).flatMap fun index =>
    mqttWriteUtf8String (topicFilterAt behind topicFilters index) ++
      [(requestedQoSs.getD index .qos0).bits]

/-- `_serialize_subscribe_packet` -/
def serializeSubscribePacket (behind : Nat → CString) (buf : Memory)
    (bufLen : Nat) (dup : UInt8) (packetId : UInt16) (count : Nat)
    (topicFilters : List CString) (requestedQoSs : List QoS) :
    Except IoTError (Memory × Nat) :=
  let remLen := getSubscribePacketRemLen behind count topicFilters
  if getMqttPacketLen remLen > bufLen then
    .error .errMqttBufferTooShort
  else
    match mqttInitPacketHeader .subscribe .qos1 dup 0 with
    | .error ret => .error ret
    | .ok header =>
        .ok (serialized buf (packetBytes header remLen
          (mqttWriteUint16 packetId ++
            subscribeEntries behind count topicFilters requestedQoSs)))

/-- `_get_unsubscribe_packet_rem_len` -/
def getUnsubscribePacketRemLen (behind : Nat → CString) (count : Nat)
    (topicFilters : List CString) : Nat :=
  ((List.range count).foldl
    (fun len index =>
      len + (2 + (topicFilterAt behind topicFilters index).bytes.length))
    2) % 2 ^ 32

/-- The entries of an UNSUBSCRIBE packet. -/
def unsubscribeEntries (behind : Nat → CString) (count : Nat)
    (topicFilters : List CString) : List UInt8 :=
  (List.range count).flatMap fun index =>
    mqttWriteUtf8String (topicFilterAt behind topicFilters index)

/-- `_serialize_unsubscribe_packet` -/
def serializeUnsubscribePacket (behind : Nat → CString) (buf : Memory)
    (bufLen : Nat) (dup : UInt8) (packetId : UInt16) (count : Nat)
    (topicFilters : List CString) : Except IoTError (Memory × Nat) :=
  let remLen := getUnsubscribePacketRemLen behind count topicFilters
  if getMqttPacketLen remLen > bufLen then
    .error .errMqttBufferTooShort
  else
    match mqttInitPacketHeader .unsubscribe .qos1 dup 0 with
    | .error ret => .error ret
    | .ok header =>
        .ok (serialized buf (packetBytes header remLen
          (mqttWriteUint16 packetId ++
            unsubscribeEntries behind count topicFilters)))

/-! ## CONNECT, PINGREQ and DISCONNECT -/

/-- The part of `MQTTConnectParams` the client uses. -/
structure MQTTConnectParams where
  clientId : Option CString
  username : Option CString
  password : Option CString
  mqttVersion : UInt8
  keepAliveInterval : UInt16
  cleanSession : UInt8
  autoConnectEnable : UInt8
  deriving DecidableEq

/-- The bytes an optional string takes in the payload of a CONNECT. -/
def optionalStringLen : Option CString → Nat
  | none => 0
  | some string => string.bytes.length + 2

/-- `_get_packet_connect_rem_len` -/
def getPacketConnectRemLen (options : MQTTConnectParams)
    (clientId : CString) : Nat :=
  let len :=
    if options.mqttVersion = 3 then 12
    else if options.mqttVersion = 4 then 10
    else 0
  (len + (clientId.bytes.length + 2) + optionalStringLen options.username +
    optionalStringLen options.password) % 2 ^ 32

/-- `"MQTT"` -/
def protocolMqtt : CString := ⟨[77, 81, 84, 84], by decide⟩

/-- `"MQIsdp"` -/
def protocolMqIsdp : CString := ⟨[77, 81, 73, 115, 100, 112], by decide⟩

/-- `MQTT_CONNECT_FLAG_USERNAME`, `MQTT_CONNECT_FLAG_PASSWORD` and
`MQTT_CONNECT_FLAG_CLEAN_SES`, as the connect flags combine them. -/
def connectFlags (options : MQTTConnectParams) : UInt8 :=
  (if options.cleanSession ≠ 0 then 0x02 else 0) |||
    (if options.username.isSome then 0x80 else 0) ||| 0x40

/-- An optional string of the payload. -/
def optionalString : Option CString → List UInt8
  | none => []
  | some string => mqttWriteUtf8String string

/-- `_serialize_connect_packet` -/
def serializeConnectPacket (buf : Memory) (bufLen : Nat)
    (options : MQTTConnectParams) : Except IoTError (Memory × Nat) :=
  match options.clientId with
  | none => .error .errParamInvalid
  | some clientId =>
      if clientId.bytes = [] then
        .error .errParamInvalid
      else
        let remLen := getPacketConnectRemLen options clientId
        if getMqttPacketLen remLen > bufLen then
          .error .errMqttBufferTooShort
        else
          match mqttInitPacketHeader .connect .qos0 0 0 with
          | .error ret => .error ret
          | .ok header =>
              let protocol :=
                if options.mqttVersion = 4 then
                  mqttWriteUtf8String protocolMqtt ++ [4]
                else
                  mqttWriteUtf8String protocolMqIsdp ++ [3]
              .ok (serialized buf (packetBytes header remLen
                (protocol ++ [connectFlags options] ++
                  mqttWriteUint16 options.keepAliveInterval ++
                  mqttWriteUtf8String clientId ++
                  optionalString options.username ++
                  optionalString options.password)))

/-- `serialize_packet_with_zero_payload` -/
def serializePacketWithZeroPayload (buf : Memory) (bufLen : Nat)
    (packetType : MessageTypes) : Except IoTError (Memory × Nat) :=
  if 4 > bufLen then
    .error .errMqttBufferTooShort
  else
    match mqttInitPacketHeader packetType .qos0 0 0 with
    | .error ret => .error ret
    | .ok header => .ok (serialized buf (packetBytes header 0 []))

end Mqtt
end UIoT
