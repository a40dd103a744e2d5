import Mathlib.Data.List.Infix
import Mathlib.Logic.Function.Basic
import UIoT.Mqtt.Client

/-!
# Requests

Publishing, subscribing and unsubscribing.  A request that waits for an
acknowledgement takes the next packet identifier, is serialised, put on its
waiting list and sent; where it cannot be sent it is taken off the list again.
-/

namespace UIoT
namespace Mqtt

/-- What a request gets from its surroundings: whether the copy of the topic
filter, the list entry and its node can be allocated, what the writes return,
and the service level in an uninitialised `SubTopicHandle`. -/
structure RequestEnv where
  storedAllocated : Bool
  infoAllocated : Bool
  nodeAllocated : Bool
  writes : List WriteOutcome
  staleQos : QoS

/-- `SubscribeParams` -/
structure SubscribeParams where
  qos : QoS
  onMessageHandler : Option Nat
  userData : Nat

/-! ## Waiting lists -/

/-- `_mask_push_pubInfo_to`, answering the node. -/
def maskPushPubInfoTo (c : Client) (len : Nat) (msgId : UInt16)
    (env : RequestEnv) : Client × Except IoTError Nat :=
  if len > uiotMqttTxBufLen then
    (c, .error .failureRet)
  else if c.listPubWaitAck.length ≥ maxRepubNum then
    (c, .error .failureRet)
  else if !env.infoAllocated then
    (c, .error .failureRet)
  else if !env.nodeAllocated then
    (c, .error .failureRet)
  else
    let node : UIoTPubInfo :=
      { address := c.heapTop
        pubStartTime := .countdownMs c.clock c.commandTimeoutMs
        nodeState := .normal
        msgId }
    ({ c with
        listPubWaitAck := c.listPubWaitAck ++ [node]
        heapTop := c.heapTop + 1 },
      .ok node.address)

/-- `push_sub_info_to`, answering the node. -/
def pushSubInfoTo (c : Client) (msgId : UInt16) (type : MessageTypes)
    (handler : SubTopicHandle) (env : RequestEnv) :
    Client × Except IoTError Nat :=
  if c.listSubWaitAck.length ≥ maxSubTopics then
    (c, .error .errMqttMaxSubscriptionsReached)
  else if !env.infoAllocated then
    (c, .error .failureRet)
  else if !env.nodeAllocated then
    (c, .error .failureRet)
  else
    let node : UIoTSubInfo :=
      { address := c.heapTop
        type
        msgId
        subStartTime := .countdownMs c.clock c.commandTimeoutMs
        nodeState := .normal
        handler }
    ({ c with
        listSubWaitAck := c.listSubWaitAck ++ [node]
        heapTop := c.heapTop + 1 },
      .ok node.address)

/-- `list_remove` on `list_pub_wait_ack` -/
def removePubInfo (c : Client) (node : Nat) : Client :=
  { c with
    listPubWaitAck := c.listPubWaitAck.eraseP fun info => info.address = node }

/-- `list_remove` on `list_sub_wait_ack` -/
def removeSubInfo (c : Client) (node : Nat) : Client :=
  { c with
    listSubWaitAck := c.listSubWaitAck.eraseP fun info => info.address = node }

/-! ## Publishing -/

/-- What `uiot_mqtt_publish` does once the packet is in the write buffer: put
it on the waiting list if it is to be acknowledged, and send it or take it off
again. -/
def publishSerialized (c : Client) (len : Nat) (id : UInt16) (qos : QoS)
    (env : RequestEnv) : Client × Except IoTError UInt16 :=
  if qos = .qos0 then
    match sendMqttPacket c len env.writes with
    | (c, .successRet) => (c.unlock .writeBuf, .ok id)
    | (c, ret) => (c.unlock .writeBuf, .error ret)
  else
    match maskPushPubInfoTo c len id env with
    | (c, .error ret) => (c.unlock .writeBuf, .error ret)
    | (c, .ok node) =>
        match sendMqttPacket c len env.writes with
        | (c, .successRet) => (c.unlock .writeBuf, .ok id)
        | (c, ret) => ((removePubInfo c node).unlock .writeBuf, .error ret)

/-- The part of `uiot_mqtt_publish` behind the checks of its arguments and of
the connection. -/
def publishChecked (c : Client) (topicName : CString)
    (params : PublishParams) (env : RequestEnv) :
    Client × Except IoTError UInt16 :=
  let c := c.lock .writeBuf
  let c := if params.qos = .qos1 then getNextPacketId c else c
  let id := if params.qos = .qos1 then c.nextPacketId else params.id
  match serializePublishPacket c.writeBuf uiotMqttTxBufLen 0 params.qos
      params.retained id topicName params.payload with
  | .error ret => (c.unlock .writeBuf, .error ret)
  | .ok (writeBuf, len) =>
      publishSerialized { c with writeBuf } len id params.qos env

/-- `uiot_mqtt_publish`.  A missing topic is refused as an empty one is. -/
def uiotMqttPublish (c : Client) (topicName : CString)
    (params : PublishParams) (env : RequestEnv) :
    Client × Except IoTError UInt16 :=
  if topicName.bytes = [] then
    (c, .error .errParamInvalid)
  else if topicName.bytes.length > maxSizeOfCloudTopic then
    (c, .error .errMaxTopicLength)
  else if params.qos = .qos2 then
    (c, .error .errMqttQosNotSupport)
  else if !c.isConnected then
    (c, .error .errMqttNoConn)
  else
    publishChecked c topicName params env

/-! ## Subscribing and unsubscribing -/

/-- What `uiot_mqtt_subscribe` and `uiot_mqtt_unsubscribe` do once the filter
is stored and the packet is in the write buffer: put the request on the waiting
list and send it, or take everything back. -/
def requestSerialized (c : Client) (len : Nat) (packetId : UInt16)
    (type : MessageTypes) (handler : SubTopicHandle) (env : RequestEnv) :
    Client × Except IoTError UInt16 :=
  match pushSubInfoTo c packetId type handler env with
  | (c, .error ret) =>
      ((c.unlock .writeBuf).free handler.topicFilter, .error ret)
  | (c, .ok node) =>
      match sendMqttPacket c len env.writes with
      | (c, .successRet) => (c.unlock .writeBuf, .ok packetId)
      | (c, ret) =>
          (((removeSubInfo c node).unlock .writeBuf).free handler.topicFilter,
            .error ret)

/-- The copy of a topic filter on the heap. -/
def storeFilter (c : Client) (topicFilter : CString) : Client × StoredString :=
  ({ c with heapTop := c.heapTop + 1 }, ⟨c.heapTop, topicFilter⟩)

/-- What `uiot_mqtt_subscribe` and `uiot_mqtt_unsubscribe` do with a filter
that has passed their checks: store it, take an identifier, and serialise and
send the request. -/
def requestStored (c : Client) (topicFilter : CString) (type : MessageTypes)
    (serialize : Memory → UInt16 → CString → Except IoTError (Memory × Nat))
    (handler : StoredString → SubTopicHandle) (env : RequestEnv) :
    Client × Except IoTError UInt16 :=
  if !env.storedAllocated then
    (c, .error .failureRet)
  else
    let (c, stored) := storeFilter c topicFilter
    let c := getNextPacketId (c.lock .writeBuf)
    match serialize c.writeBuf c.nextPacketId stored.text with
    | .error ret => ((c.unlock .writeBuf).free stored, .error ret)
    | .ok (writeBuf, len) =>
        requestSerialized { c with writeBuf } len c.nextPacketId type
          (handler stored) env

/-- The SUBSCRIBE packet of one filter. -/
def subscribePacket (qos : QoS) (buf : Memory) (packetId : UInt16)
    (topicFilter : CString) : Except IoTError (Memory × Nat) :=
  serializeSubscribePacket (fun _ => topicFilter) buf uiotMqttTxBufLen 0
    packetId 1 [topicFilter] [qos]

/-- The part of `uiot_mqtt_subscribe` behind the checks of its arguments and of
the connection. -/
def subscribeChecked (c : Client) (topicFilter : CString)
    (params : SubscribeParams) (env : RequestEnv) :
    Client × Except IoTError UInt16 :=
  requestStored c topicFilter .subscribe (subscribePacket params.qos)
    (fun stored =>
      { topicFilter := stored
        messageHandler := params.onMessageHandler
        messageHandlerData := params.userData
        qos := params.qos })
    env

/-- `uiot_mqtt_subscribe`.  A missing filter is refused as an empty one is. -/
def uiotMqttSubscribe (c : Client) (topicFilter : CString)
    (params : SubscribeParams) (env : RequestEnv) :
    Client × Except IoTError UInt16 :=
  if topicFilter.bytes = [] then
    (c, .error .errParamInvalid)
  else if topicFilter.bytes.length > maxSizeOfCloudTopic then
    (c, .error .errMaxTopicLength)
  else if params.qos = .qos2 then
    (c, .error .errMqttQosNotSupport)
  else if !c.isConnected then
    (c, .error .errMqttNoConn)
  else
    subscribeChecked c topicFilter params env

/-- `strstr(text, pattern) != NULL` -/
def strstr (text : CString) (pattern : List UInt8) : Bool :=
  pattern <:+: text.bytes

/-- `"/#"` -/
def belowAll : List UInt8 := [47, 35]

/-- `"/+"` -/
def belowAny : List UInt8 := [47, 43]

/-- The test of the loop in `uiot_mqtt_unsubscribe`: the slot holds the filter,
or the filter contains a wildcard level. -/
def clearsSlot (topicFilter : CString) (handle : SubTopicHandle) : Bool :=
  (match handle.topicFilter with
    | some stored => stored.text == topicFilter
    | none => false) ||
    strstr topicFilter belowAll || strstr topicFilter belowAny

/-- The loop of `uiot_mqtt_unsubscribe`, which frees the filter of every slot
that passes the test and empties the slot. -/
def clearSlots (topicFilter : CString) :
    List (Fin maxSubTopics) → Client → Bool → Client × Bool
  | [], c, suberExists => (c, suberExists)
  | i :: slots, c, suberExists =>
      if clearsSlot topicFilter (c.subHandles i) then
        let c := c.free (c.subHandles i).topicFilter
        clearSlots topicFilter slots
          { c with
            subHandles := Function.update c.subHandles i
              { c.subHandles i with topicFilter := none } }
          true
      else
        clearSlots topicFilter slots c suberExists

/-- The UNSUBSCRIBE packet of one filter. -/
def unsubscribePacket (buf : Memory) (packetId : UInt16)
    (topicFilter : CString) : Except IoTError (Memory × Nat) :=
  serializeUnsubscribePacket (fun _ => topicFilter) buf uiotMqttTxBufLen 0
    packetId 1 [topicFilter]

/-- The part of `uiot_mqtt_unsubscribe` behind the loop over the slots and the
check of the connection.  The service level of the handle stays
uninitialised. -/
def unsubscribeCleared (c : Client) (topicFilter : CString)
    (env : RequestEnv) : Client × Except IoTError UInt16 :=
  requestStored c topicFilter .unsubscribe unsubscribePacket
    (fun stored =>
      { topicFilter := stored
        messageHandler := none
        messageHandlerData := 0
        qos := env.staleQos })
    env

/-- `uiot_mqtt_unsubscribe`.  A missing filter is refused as an empty one
is. -/
def uiotMqttUnsubscribe (c : Client) (topicFilter : CString)
    (env : RequestEnv) : Client × Except IoTError UInt16 :=
  if topicFilter.bytes = [] then
    (c, .error .errParamInvalid)
  else if topicFilter.bytes.length > maxSizeOfCloudTopic then
    (c, .error .errMaxTopicLength)
  else
    -- the slots are emptied before anything else is checked
    match clearSlots topicFilter (List.finRange maxSubTopics) c false with
    | (c, false) => (c, .error .errMqttUnsubFailed)
    | (c, true) =>
        if !c.isConnected then (c, .error .errMqttNoConn)
        else unsubscribeCleared c topicFilter env

/-! ## Subscribing again -/

/-- The loop of `uiot_mqtt_resubscribe`, which stops at the first request that
fails. -/
def resubscribeLoop (envs : Fin maxSubTopics → RequestEnv) :
    List (Fin maxSubTopics) → Client → Client × IoTError
  | [], c => (c, .successRet)
  | i :: slots, c =>
      let handle := c.subHandles i
      match handle.topicFilter with
      | none => resubscribeLoop envs slots c
      | some topic =>
          match uiotMqttSubscribe c topic.text
              ⟨handle.qos, handle.messageHandler, handle.messageHandlerData⟩
              (envs i) with
          | (c, .error ret) => (c, ret)
          | (c, .ok _) => resubscribeLoop envs slots c

theorem resubscribeLoop_empty (envs : Fin maxSubTopics → RequestEnv)
    {i : Fin maxSubTopics} (slots : List (Fin maxSubTopics)) {c : Client}
    (empty : (c.subHandles i).topicFilter = none) :
    resubscribeLoop envs (i :: slots) c = resubscribeLoop envs slots c := by
  rw [resubscribeLoop, empty]

theorem resubscribeLoop_occupied (envs : Fin maxSubTopics → RequestEnv)
    {i : Fin maxSubTopics} (slots : List (Fin maxSubTopics)) {c : Client}
    {topic : StoredString}
    (occupied : (c.subHandles i).topicFilter = some topic) :
    resubscribeLoop envs (i :: slots) c =
      match uiotMqttSubscribe c topic.text
          ⟨(c.subHandles i).qos, (c.subHandles i).messageHandler,
            (c.subHandles i).messageHandlerData⟩ (envs i) with
      | (c, .error ret) => (c, ret)
      | (c, .ok _) => resubscribeLoop envs slots c := by
  rw [resubscribeLoop, occupied]

/-- A slot that is subscribed to again leaves the others to the loop. -/
theorem resubscribeLoop_subscribed (envs : Fin maxSubTopics → RequestEnv)
    {i : Fin maxSubTopics} (slots : List (Fin maxSubTopics)) {c next : Client}
    {topic : StoredString} {packetId : UInt16}
    (occupied : (c.subHandles i).topicFilter = some topic)
    (answer : uiotMqttSubscribe c topic.text
      ⟨(c.subHandles i).qos, (c.subHandles i).messageHandler,
        (c.subHandles i).messageHandlerData⟩ (envs i) =
          (next, .ok packetId)) :
    resubscribeLoop envs (i :: slots) c = resubscribeLoop envs slots next := by
  rw [resubscribeLoop_occupied envs slots occupied, answer]

/-- A refused request ends the loop. -/
theorem resubscribeLoop_refused (envs : Fin maxSubTopics → RequestEnv)
    {i : Fin maxSubTopics} (slots : List (Fin maxSubTopics)) {c next : Client}
    {topic : StoredString} {ret : IoTError}
    (occupied : (c.subHandles i).topicFilter = some topic)
    (answer : uiotMqttSubscribe c topic.text
      ⟨(c.subHandles i).qos, (c.subHandles i).messageHandler,
        (c.subHandles i).messageHandlerData⟩ (envs i) = (next, .error ret)) :
    resubscribeLoop envs (i :: slots) c = (next, ret) := by
  rw [resubscribeLoop_occupied envs slots occupied, answer]

/-- `uiot_mqtt_resubscribe` -/
def uiotMqttResubscribe (c : Client) (envs : Fin maxSubTopics → RequestEnv) :
    Client × IoTError :=
  if !c.isConnected then
    (c, .errMqttNoConn)
  else
    resubscribeLoop envs (List.finRange maxSubTopics) c

end Mqtt
end UIoT
