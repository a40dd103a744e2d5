import UIoT.Mqtt.ReadPacket
import UIoT.Mqtt.Requests
import UIoT.Mqtt.TopicMatch

/-!
# Incoming packets

`cycle_for_read` reads one packet and hands it to the handler of its type.  The
acknowledgement handlers mark the waiting nodes that carry the acknowledged
identifier and raise the event of the request.
-/

namespace UIoT
namespace Mqtt

/-! ## Acknowledgement packets -/

/-- The fields of a packet acknowledging by identifier only. -/
structure AckPacket where
  packetType : UInt8
  dup : UInt8
  packetId : UInt16
  deriving DecidableEq, Repr

/-- `deserialize_ack_packet` -/
def deserializeAckPacket (memory : Memory) (bufLen : Nat) :
    Cursor × Except IoTError AckPacket :=
  if 4 > bufLen then
    (.start, .error .errMqttBufferTooShort)
  else
    let (header, cursor) := mqttReadChar memory .start
    match mqttReadPacketRemLenFormBuf memory cursor with
    | (cursor, .error ret) => (cursor, .error ret)
    | (cursor, .ok decodedLen) =>
        if decodedLen < 2 then
          (cursor, .error .failureRet)
        else
          let (packetId, cursor) := mqttReadUint16T memory cursor
          let ack : AckPacket := ⟨headerType header, headerDup header, packetId⟩
          if decodedLen - 2 ≥ 1 then
            let (ackCode, cursor) := mqttReadChar memory cursor
            if ackCode ≠ 0 then (cursor, .error .failureRet)
            else (cursor, .ok ack)
          else
            (cursor, .ok ack)

/-- `deserialize_unsuback_packet` -/
def deserializeUnsubackPacket (memory : Memory) (bufLen : Nat) :
    Cursor × Except IoTError UInt16 :=
  match deserializeAckPacket memory bufLen with
  | (cursor, .error ret) => (cursor, .error ret)
  | (cursor, .ok ack) =>
      if MessageTypes.unsuback.code ≠ ack.packetType then
        (cursor, .error .failureRet)
      else
        (cursor, .ok ack.packetId)

/-- The fields of a SUBACK packet. -/
structure SubackPacket where
  packetId : UInt16
  grantedQoSs : List UInt8
  deriving DecidableEq, Repr

/-- The loop of `deserialize_suback_packet` over the bytes that are left, with
what it has stored in `grantedQoSs` from its start on.  The count is compared
before it is incremented. -/
def grantedLoop (memory : Memory) (maxCount : Nat) :
    (left : Nat) → (cursor : Cursor) → (grantedQoSs : List UInt8) →
      Cursor × List UInt8 × IoTError
  | 0, cursor, grantedQoSs => (cursor, grantedQoSs, .successRet)
  | left + 1, cursor, grantedQoSs =>
      if grantedQoSs.length > maxCount then
        (cursor, grantedQoSs, .failureRet)
      else
        let (granted, cursor) := mqttReadChar memory cursor
        grantedLoop memory maxCount left cursor (grantedQoSs ++ [granted])

/-- What `deserialize_suback_packet` leaves behind: the pointer, what was
stored in `grantedQoSs` whether it succeeds or not, and what it returns. -/
structure SubackResult where
  cursor : Cursor
  grantedQoSs : List UInt8
  ret : Except IoTError SubackPacket

/-- `deserialize_suback_packet` -/
def deserializeSubackPacket (memory : Memory) (bufLen maxCount : Nat) :
    SubackResult :=
  if 5 > bufLen then
    ⟨.start, [], .error .errMqttBufferTooShort⟩
  else
    let (header, cursor) := mqttReadChar memory .start
    if headerType header ≠ MessageTypes.suback.code then
      ⟨cursor, [], .error .failureRet⟩
    else
      match mqttReadPacketRemLenFormBuf memory cursor with
      | (cursor, .error ret) => ⟨cursor, [], .error ret⟩
      | (cursor, .ok decodedLen) =>
          if decodedLen < 2 then
            ⟨cursor, [], .error .failureRet⟩
          else
            let (packetId, cursor) := mqttReadUint16T memory cursor
            match grantedLoop memory maxCount (decodedLen - 2) cursor [] with
            | (cursor, grantedQoSs, .successRet) =>
                ⟨cursor, grantedQoSs, .ok ⟨packetId, grantedQoSs⟩⟩
            | (cursor, grantedQoSs, ret) => ⟨cursor, grantedQoSs, .error ret⟩

/-! ## Marking waiting nodes -/

/-- The publish node, invalid if it carries the identifier. -/
def UIoTPubInfo.mask (msgId : UInt16) (info : UIoTPubInfo) : UIoTPubInfo :=
  if info.msgId = msgId then { info with nodeState := .invalid } else info

/-- The subscribe node, invalid if it carries the identifier. -/
def UIoTSubInfo.mask (msgId : UInt16) (info : UIoTSubInfo) : UIoTSubInfo :=
  if info.msgId = msgId then { info with nodeState := .invalid } else info

/-- `_mask_pubInfo_from` -/
def maskPubInfoFrom (c : Client) (msgId : UInt16)
    (iteratorAllocated : Bool) : Client :=
  let c := c.lock .listPub
  if iteratorAllocated then
    { c with
      listPubWaitAck := c.listPubWaitAck.map (UIoTPubInfo.mask msgId) }.unlock
      .listPub
  else
    c.unlock .listPub

/-- `_mask_sub_info_from`, with what it leaves in `*messageHandler`.  The list
is walked from its tail and every node with the identifier hands its handler
out, whatever its state and type. -/
def maskSubInfoFrom (c : Client) (msgId : UInt16)
    (messageHandler : SubTopicHandle) (iteratorAllocated : Bool) :
    Client × SubTopicHandle :=
  let c := c.lock .listSub
  if iteratorAllocated then
    let carriers :=
      c.listSubWaitAck.reverse.filter fun info => info.msgId = msgId
    ({ c with
        listSubWaitAck := c.listSubWaitAck.map (UIoTSubInfo.mask msgId)
        handedOver := c.handedOver ++ carriers.map UIoTSubInfo.address }.unlock
        .listSub,
      carriers.foldl (fun _ info => info.handler) messageHandler)
  else
    (c.unlock .listSub, messageHandler)

/-! ## Handlers -/

/-- What the handling of a packet gets from its surroundings: the reads, how
long they take, the writes of an answer, whether a list iterator can be
allocated, the contents of an uninitialised `SubTopicHandle`, and the bytes in
front of and behind the array for the topic. -/
structure CycleEnv where
  net : NetIn
  elapsed : Nat
  writes : List WriteOutcome
  iteratorAllocated : Bool
  staleHandle : SubTopicHandle
  beforeTopic : UInt8
  behindTopic : List UInt8

/-- `_handle_puback_packet` -/
def handlePubackPacket (c : Client) (env : CycleEnv) : Client × IoTError :=
  match (deserializeAckPacket c.readBuf uiotMqttRxBufLen).2 with
  | .error ret => (c, ret)
  | .ok ack =>
      let c := maskPubInfoFrom c ack.packetId env.iteratorAllocated
      (c.raise (.publishSuccess ack.packetId), .successRet)

/-- The loop of `_handle_suback_packet` over the slots: whether one of them is
identical to the new handle, and the first free one met so far. -/
def scanHandles (subHandles : Fin maxSubTopics → SubTopicHandle)
    (subHandle : SubTopicHandle) :
    List (Fin maxSubTopics) → Option (Fin maxSubTopics) →
      Bool × Option (Fin maxSubTopics)
  | [], free => (false, free)
  | i :: slots, free =>
      if (subHandles i).topicFilter.isSome then
        if checkHandleIsIdentical (subHandles i) subHandle then (true, free)
        else scanHandles subHandles subHandle slots free
      else
        scanHandles subHandles subHandle slots (free.or (some i))

/-- The part of `_handle_suback_packet` behind the marking of the nodes. -/
def installHandle (c : Client) (packetId : UInt16) (subHandle : SubTopicHandle)
    (subNack : Bool) : Client × IoTError :=
  if subHandle.topicFilter = none then
    (c.unlock .generic, .errMqttSubFailed)
  else if subNack then
    (((c.raise (.subscribeNack packetId)).free subHandle.topicFilter).unlock
      .generic, .errMqttSubFailed)
  else
    match scanHandles c.subHandles subHandle (List.finRange maxSubTopics)
        none with
    | (true, _) =>
        (((c.free subHandle.topicFilter).unlock .generic).raise
          (.subscribeSuccess packetId), .successRet)
    | (false, none) =>
        -- the node is marked already, and no event says so
        (c.unlock .generic, .failureRet)
    | (false, some i) =>
        let c :=
          { c with subHandles := Function.update c.subHandles i subHandle }
        ((c.unlock .generic).raise (.subscribeSuccess packetId), .successRet)

/-- `_handle_suback_packet` -/
def handleSubackPacket (c : Client) (env : CycleEnv) : Client × IoTError :=
  match (deserializeSubackPacket c.readBuf uiotMqttRxBufLen 1).ret with
  | .error ret => (c, ret)
  | .ok suback =>
      let subNack := suback.grantedQoSs.any (· == 0x80)
      let (c, subHandle) := maskSubInfoFrom (c.lock .generic) suback.packetId
        .zero env.iteratorAllocated
      installHandle c suback.packetId subHandle subNack

/-- `_handle_unsuback_packet`.  Nothing initialises the handle before
`_mask_sub_info_from` is to fill it. -/
def handleUnsubackPacket (c : Client) (env : CycleEnv) : Client × IoTError :=
  match (deserializeUnsubackPacket c.readBuf uiotMqttRxBufLen).2 with
  | .error ret => (c, ret)
  | .ok packetId =>
      let (c, messageHandler) :=
        maskSubInfoFrom c packetId env.staleHandle env.iteratorAllocated
      let c := (c.lock .generic).free messageHandler.topicFilter
      ((c.raise (.unsubscribeSuccess packetId)).unlock .generic, .successRet)

/-- The handler `_deliver_message` calls: that of the first slot whose filter
takes the topic and whose handler is set. -/
def findHandler (subHandles : Fin maxSubTopics → SubTopicHandle)
    (before : UInt8) (message : MQTTMessage) : Option (Nat × Nat) :=
  (List.finRange maxSubTopics).findSome? fun i =>
    match (subHandles i).topicFilter with
    | none => none
    | some stored =>
        if isDispatched stored.text before message.topic message.topicLen then
          (subHandles i).messageHandler.map
            (·, (subHandles i).messageHandlerData)
        else
          none

/-- `_deliver_message` -/
def deliverMessage (c : Client) (before : UInt8) (message : MQTTMessage) :
    Client :=
  let c := c.lock .generic
  match findHandler c.subHandles before message with
  | some (messageHandler, messageHandlerData) =>
      (c.unlock .generic).deliver ⟨messageHandler, messageHandlerData, message⟩
  | none => (c.unlock .generic).raise (.publishReceived message)

/-- The bytes of `fix_topic` and of what lies behind it, and the length the
topic is cut to. -/
def fixTopic (readBuf : Memory) (packet : PublishPacket)
    (behind : List UInt8) : List UInt8 × UInt16 :=
  let topicLen : UInt16 :=
    if packet.topicNameLen.toNat > maxSizeOfCloudTopic then
      UInt16.ofNat (maxSizeOfCloudTopic - 1)
    else
      packet.topicNameLen
  (readBuf.slice packet.topicName topicLen.toNat ++
    List.replicate (maxSizeOfCloudTopic - topicLen.toNat) 0 ++ behind, topicLen)

/-- Serialise an answer of two bytes behind the header and send it. -/
def sendAnswer (c : Client) (packetType : MessageTypes) (packetId : UInt16)
    (writes : List WriteOutcome) : Client × IoTError :=
  let c := c.lock .writeBuf
  match serializePubAckPacket c.writeBuf uiotMqttTxBufLen packetType 0
      packetId with
  | .error ret => (c.unlock .writeBuf, ret)
  | .ok (writeBuf, len) =>
      let (c, ret) := sendMqttPacket { c with writeBuf } len writes
      (c.unlock .writeBuf, ret)

/-- `_handle_publish_packet` -/
def handlePublishPacket (c : Client) (env : CycleEnv) : Client × IoTError :=
  match (deserializePublishPacket c.readBuf uiotMqttRxBufLen).2 with
  | .error ret => (c, ret)
  | .ok packet =>
      let (topic, topicLen) := fixTopic c.readBuf packet env.behindTopic
      let c := deliverMessage c env.beforeTopic ⟨packet, topic, topicLen⟩
      match packet.packetId with
      | none => (c, .successRet)
      | some packetId =>
          let answer := if packet.qos = 1 then MessageTypes.puback else .pubrec
          sendAnswer c answer packetId env.writes

/-- `_handle_pubrec_packet` -/
def handlePubrecPacket (c : Client) (env : CycleEnv) : Client × IoTError :=
  match (deserializeAckPacket c.readBuf uiotMqttRxBufLen).2 with
  | .error ret => (c, ret)
  | .ok ack => sendAnswer c .pubrel ack.packetId env.writes

/-- `_handle_pingresp_packet` -/
def handlePingrespPacket (c : Client) : Client :=
  { c with
    isPingOutstanding := 0
    pingTimer := .countdown c.clock c.options.keepAliveInterval.toNat }

/-! ## One cycle -/

/-- The packet types with a case in the switch of `cycle_for_read`. -/
def receivable : List MessageTypes :=
  [.connack, .puback, .suback, .unsuback, .publish, .pubrec, .pubrel, .pubcomp,
    .pingresp]

/-- The case of the switch a packet type falls under. -/
def receivedType (packetType : UInt8) : Option MessageTypes :=
  receivable.find? fun type => type.code == packetType

/-- The first switch of `cycle_for_read`. -/
def handlePacket (c : Client) (type : MessageTypes) (env : CycleEnv) :
    Client × IoTError :=
  match type with
  | .puback => handlePubackPacket c env
  | .suback => handleSubackPacket c env
  | .unsuback => handleUnsubackPacket c env
  | .publish => handlePublishPacket c env
  | .pubrec => handlePubrecPacket c env
  | _ => (c, .successRet)

/-- The second switch of `cycle_for_read`: what counts as a sign of life. -/
def notePacket (c : Client) (type : MessageTypes) : Client :=
  match type with
  | .puback => handlePingrespPacket c
  | .suback => handlePingrespPacket c
  | .unsuback => handlePingrespPacket c
  | .pingresp => handlePingrespPacket c
  | .publish => { c with isPingOutstanding := 0 }
  | _ => c

/-- The client once `_read_mqtt_packet` has returned, and what it returned. -/
def readCycle (c : Client) (env : CycleEnv) :
    Client × Except IoTError UInt8 :=
  let result := readMqttPacket uiotMqttRxBufLen c.readBuf env.net
  ({ c with readBuf := result.readBuf, clock := c.clock + env.elapsed },
    result.ret)

/-- `cycle_for_read`, with what it leaves in `*packet_type`. -/
def cycleForRead (c : Client) (packetType : UInt8) (env : CycleEnv) :
    Client × IoTError × UInt8 :=
  match readCycle c env with
  | (c, .error .errMqttNothingToRead) => (c, .successRet, packetType)
  | (c, .error ret) => (c, ret, packetType)
  | (c, .ok packetType) =>
      match receivedType packetType with
      | none => (c, .errMqttRxMessagePacketTypeInvalid, packetType)
      | some type =>
          let (c, ret) := handlePacket c type env
          (notePacket c type, ret, packetType)

end Mqtt
end UIoT
