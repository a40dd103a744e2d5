import UIoT.Json.Parser
import UIoT.Library.Machine
import UIoT.Shadow.Requests

/-!
# Shadow messages

The handlers of the two topics a shadow client subscribes to, and the sweep
over requests whose time has run out.  All of them go through `request_list`
with `_traverse_list`, from its tail on.  A run of a shadow client is a run of
the machine at the end of this module.
-/

namespace UIoT
namespace Shadow

open Json (liteJsonCopyOf liteJsonValueOf cString)
open Mqtt (Timer)

/-! ## Reading messages -/

/-- The white space `sscanf` skips. -/
def isSpace (byte : UInt8) : Bool := byte = 32 || (9 ≤ byte && byte ≤ 13)

/-- `sscanf` with `%u`: the value of the digits behind white space and a sign,
cut off at the largest `unsigned long` and stored in 32 bits. -/
def sscanfUint32 (text : List UInt8) : Option UInt32 :=
  let text := text.dropWhile isSpace
  let (negative, text) :=
    match text with
    | 45 :: text => (true, text)
    | 43 :: text => (false, text)
    | text => (false, text)
  match text.takeWhile fun byte => 48 ≤ byte && byte ≤ 57 with
  | [] => none
  | digits =>
      let value := digits.foldl (fun value byte =>
        value * 10 + (byte.toNat - 48)) 0
      if value ≥ 2 ^ 64 then some (UInt32.ofNat (2 ^ 64 - 1))
      else if negative then some (UInt32.ofNat (2 ^ 64 - value))
      else some (UInt32.ofNat value)

/-- `parse_version_num` -/
def parseVersionNum (pJsonDoc : List UInt8) : Option UInt32 :=
  (liteJsonValueOf (ascii "Version") pJsonDoc).bind sscanfUint32

/-- `parse_shadow_payload_retcode_type` -/
def parseShadowPayloadRetcodeType (pJsonDoc : List UInt8) : Option UInt32 :=
  (liteJsonValueOf (ascii "Payload.RetCode") pJsonDoc).bind sscanfUint32

/-- `parse_shadow_payload_state_desired_state` -/
def parseShadowPayloadStateDesiredState (pJsonDoc : List UInt8) :
    Option (List UInt8) :=
  liteJsonValueOf (ascii "Payload.State.Desired") pJsonDoc

/-- `parse_shadow_state_desired_type` -/
def parseShadowStateDesiredType (pJsonDoc : List UInt8) :
    Option (List UInt8) :=
  liteJsonValueOf (ascii "State.Desired") pJsonDoc

/-- `parse_shadow_method_type` -/
def parseShadowMethodType (pJsonDoc : List UInt8) : Option (List UInt8) :=
  liteJsonValueOf (ascii "Method") pJsonDoc

/-- `find_value_if_key_match` -/
def findValueIfKeyMatch (copied : Bool) (pJsonDoc : List UInt8)
    (property : DeviceProperty) : Option (List UInt8) :=
  match liteJsonCopyOf copied property.key.bytes pJsonDoc with
  | none => none
  | some value =>
      if ascii "null" <+: value ∨ ascii "NULL" <+: value then none
      else some value

/-- `METHOD_REPLY` -/
def methodReply : List UInt8 := ascii "reply"

/-- `METHOD_CONTROL` -/
def methodControl : List UInt8 := ascii "control"

/-- `METHOD_GET_REPLY` -/
def methodGetReply : List UInt8 := ascii "get_reply"

/-! ## Going through the requests -/

/-- A request taken off the list with its outcome, of which its callback is
told if it has one. -/
def finish (s : UIoTShadow) (request : Request) (ack : RequestAck) :
    UIoTShadow :=
  let s :=
    match request.callback with
    | some _ => s.call (.request request ack s.cloudRcvBuf)
    | none => s
  { s with
    requestList :=
      s.requestList.eraseP fun other => other.number = request.number
    completed := s.completed ++ [(request, ack)] }

/-- The outcome a message of the given method has for every request. -/
def ackOf (cloudRcvBuf pType : List UInt8) : RequestAck :=
  if pType = methodGetReply then
    .accepted
  else if pType = methodReply ∨ pType = methodControl then
    match parseShadowPayloadRetcodeType cloudRcvBuf with
    | some resultCode => if resultCode = 0 then .accepted else .rejected
    | none => .rejected
  else
    .none

/-- `_handle_request_callback` -/
def handleRequestCallback (pType : List UInt8) (s : UIoTShadow)
    (request : Request) : UIoTShadow :=
  finish s request (ackOf s.cloudRcvBuf pType)

/-- `_handle_expired_request_callback` -/
def handleExpiredRequestCallback (s : UIoTShadow) (request : Request) :
    UIoTShadow :=
  if request.timer.hasExpired s.mqtt.clock then finish s request .timeout
  else s

/-- `_traverse_list` on the list of requests. -/
def traverseList (s : UIoTShadow) (iteratorAllocated : Bool)
    (traverseHandle : UIoTShadow → Request → UIoTShadow) : UIoTShadow :=
  let s := s.lock .request
  if s.requestList.length = 0 then
    s.unlock .request
  else if !iteratorAllocated then
    s.unlock .request
  else
    (s.requestList.reverse.foldl traverseHandle s).unlock .request

/-- `_handle_expired_request` -/
def handleExpiredRequest (s : UIoTShadow) (iteratorAllocated : Bool) :
    UIoTShadow :=
  traverseList s iteratorAllocated handleExpiredRequestCallback

/-! ## Properties the cloud asks to change -/

/-- What the callback of a property does with a value: the properties it adds
to the request that answers, and the data it leaves. -/
structure PropertyReaction where
  added : List DeviceProperty
  data : Option PropertyData

/-- What a handled message gets from its surroundings: whether the parameters
of the answering request, the iterators and the copy of the value of a property
can be allocated, what the callbacks of the properties do, and the surroundings
of the answering request. -/
structure MessageEnv where
  paramsAllocated : Bool
  propertyIteratorAllocated : Bool
  valueCopied : PropertyHandler → Bool
  traverseIteratorAllocated : Bool
  onProperty : PropertyHandler → List UInt8 → PropertyReaction
  reply : RequestEnv

/-- The parameters of the request that answers, by the method last sent. -/
def replyParams (cloudSendMethod : Method) : RequestParams where
  method :=
    match cloudSendMethod with
    | .update | .get | .updateAndResetVer | .replyControlUpdate =>
        .replyControlUpdate
    | .delete | .deleteAll | .replyControlDelete => .replyControlDelete
  propertyDeltaList := []
  timeoutSec := 1
  requestCallback := none
  userContext := 0

/-- A turn of the loop of `_handle_delta`. -/
def handleProperty (deltaStr : List UInt8) (env : MessageEnv)
    (state : UIoTShadow × Option RequestParams × List PropertyHandler)
    (handler : PropertyHandler) :
    UIoTShadow × Option RequestParams × List PropertyHandler :=
  let (s, params, handlers) := state
  match findValueIfKeyMatch (env.valueCopied handler) deltaStr
      handler.property with
  | none => (s, params, handler :: handlers)
  | some value =>
      let reaction := env.onProperty handler value
      (s.call (.property handler value),
        params.map fun params =>
          { params with
            propertyDeltaList := params.propertyDeltaList ++ reaction.added },
        { handler with
          property := { handler.property with data := reaction.data } } ::
            handlers)

/-- `_handle_delta`.  Where the iterator over the properties cannot be allocated
it returns with the mutex locked and without an answer. -/
def handleDelta (s : UIoTShadow) (deltaStr : List UInt8) (env : MessageEnv) :
    UIoTShadow :=
  let params :=
    if env.paramsAllocated then some (replyParams s.cloudSendMethod) else none
  let s := s.lock .property
  if s.propertyList.length ≠ 0 ∧ !env.propertyIteratorAllocated then
    s
  else
    let (s, params, propertyList) :=
      s.propertyList.reverse.foldl (handleProperty deltaStr env)
        (s, params, [])
    let s := { s with propertyList }.unlock .property
    -- the document is built in an array of `CLOUD_IOT_JSON_RX_BUF_LEN` bytes
    (uiotShadowMakeRequest s (some []) (uiotMqttRxBufLen + 1) params
      env.reply).1

/-- What both handlers do with the desired state of a message. -/
def handleDesired (s : UIoTShadow) (desired : Option (List UInt8))
    (env : MessageEnv) : UIoTShadow :=
  match desired with
  | some desired =>
      if desired.length > 2 then handleDelta s desired env else s
  | none => s

/-! ## Messages -/

/-- `MQTTMessage`: its payload and the length of its topic. -/
structure Message where
  payload : List UInt8
  topicLen : UInt16

/-- The string in `cloud_rcv_buf` after a payload was copied to it. -/
def received (payload : List UInt8) : List UInt8 :=
  cString (payload.take uiotMqttRxBufLen)

/-- `topic_request_result_handler`, once the message is in the buffer and its
method and version are known. -/
def handleResult (s : UIoTShadow) (method : List UInt8) (env : MessageEnv) :
    UIoTShadow :=
  if method = methodReply then
    match parseShadowPayloadRetcodeType s.cloudRcvBuf with
    | none => s
    | some retCode =>
        if retCode ≠ 0 then s
        else
          traverseList s env.traverseIteratorAllocated
            (handleRequestCallback method)
  else if method = methodControl then
    let s := handleDesired s
      (parseShadowPayloadStateDesiredState s.cloudRcvBuf) env
    traverseList s env.traverseIteratorAllocated (handleRequestCallback method)
  else
    s

/-- `topic_request_result_handler` -/
def topicRequestResultHandler (s : UIoTShadow) (message : Message)
    (env : MessageEnv) : UIoTShadow :=
  if message.topicLen ≤ 0 then s
  else if message.payload.length > uiotMqttRxBufLen + 1 then s
  else
    let s := { s with cloudRcvBuf := received message.payload }
    match parseShadowMethodType s.cloudRcvBuf with
    | none => s
    | some method =>
        match parseVersionNum s.cloudRcvBuf with
        | none => s
        | some version => handleResult { s with version } method env

/-- `topic_sync_handler` -/
def topicSyncHandler (s : UIoTShadow) (message : Message) (env : MessageEnv) :
    UIoTShadow :=
  if message.topicLen ≤ 0 then s
  else if message.payload.length > uiotMqttRxBufLen + 1 then s
  else
    let s := { s with cloudRcvBuf := received message.payload }
    match parseVersionNum s.cloudRcvBuf with
    | none => s
    | some version =>
        let s := { s with version }
        let s := handleDesired s (parseShadowStateDesiredType s.cloudRcvBuf) env
        traverseList s env.traverseIteratorAllocated
          (handleRequestCallback methodGetReply)

/-! ## Runs -/

/-- What a shadow client does and what happens to it.  Of a message it is said
which request it answers, if it answers one; this is known to the cloud only. -/
inductive Label
  /-- `uiot_shadow_make_request`, through one of the functions of the SDK. -/
  | request (pJsonDoc : Option (List UInt8)) (sizeOfBuffer : Nat)
      (params : Option RequestParams) (env : RequestEnv)
  /-- A message on the downstream topic. -/
  | downstream (answers : Option Nat) (message : Message) (env : MessageEnv)
  /-- A message on the topic of get-replies. -/
  | getReply (answers : Option Nat) (message : Message) (env : MessageEnv)
  /-- The sweep at the beginning of `IOT_Shadow_Yield`. -/
  | expire (iteratorAllocated : Bool)
  /-- Properties are registered or unregistered, or their data changes. -/
  | properties (propertyList : List PropertyHandler)
  /-- The MQTT client goes on, and time with it. -/
  | elsewhere (mqtt : Mqtt.Client)

/-- A step of a shadow client. -/
def UIoTShadow.step (s : UIoTShadow) : Label → UIoTShadow
  | .request pJsonDoc sizeOfBuffer params env =>
      (uiotShadowMakeRequest s pJsonDoc sizeOfBuffer params env).1
  | .downstream _ message env => topicRequestResultHandler s message env
  | .getReply _ message env => topicSyncHandler s message env
  | .expire iteratorAllocated => handleExpiredRequest s iteratorAllocated
  | .properties propertyList => { s with propertyList }
  | .elsewhere mqtt => { s with mqtt }

end Shadow
end UIoT
