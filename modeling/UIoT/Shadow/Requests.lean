import UIoT.Mqtt.Requests
import UIoT.Shadow.Document

/-!
# Shadow requests

A request is put on `request_list`, its document is built and published, and
the properties it names are brought up to date.  What has happened so far is
recorded: the calls of the user's callbacks with the mutexes held at each, the
requests taken off the list, and the documents the MQTT client took.
-/

namespace UIoT
namespace Shadow

open Mqtt (Timer)

/-! ## The shadow client -/

/-- `MAX_APPENDING_REQUEST_AT_ANY_GIVEN_TIME` -/
def maxAppendingRequestAtAnyGivenTime : Nat := 10

/-- `RequestAck` -/
inductive RequestAck
  | none
  | timeout
  | rejected
  | accepted
  deriving DecidableEq, Repr

/-- `Request` on its list node.  `number` tells which of the calls of
`uiot_shadow_make_request` made it. -/
structure Request where
  number : Nat
  method : Method
  userContext : Nat
  timer : Timer
  callback : Option Nat
  deriving DecidableEq

/-- `PropertyHandler`; registering asks for a callback. -/
structure PropertyHandler where
  property : DeviceProperty
  callback : Nat
  deriving DecidableEq

/-- The mutexes of a shadow client. -/
inductive Mutex
  | request
  | property
  deriving DecidableEq, Repr

/-- A call of a user's callback. -/
inductive Call
  | request (request : Request) (ack : RequestAck) (jsonDocument : List UInt8)
  | property (handler : PropertyHandler) (value : List UInt8)
  deriving DecidableEq

/-- A document the MQTT client took, and its topic. -/
structure Publication where
  topic : CString
  document : CString
  deriving DecidableEq

/-- `UIoT_Shadow` with the variables of its file, followed by the mutexes held,
the number of the next request and the records. -/
structure UIoTShadow where
  mqtt : Mqtt.Client
  productSn : CString
  deviceSn : CString
  version : UInt32
  requestList : List Request
  propertyList : List PropertyHandler
  cloudSendMethod : Method
  cloudRcvBuf : List UInt8
  held : List Mutex
  nextNumber : Nat
  calls : List Call
  callbackLocks : List (List Mutex)
  completed : List (Request × RequestAck)
  published : List Publication

namespace UIoTShadow

/-- `HAL_MutexLock` -/
@[simp] def lock (s : UIoTShadow) (mutex : Mutex) : UIoTShadow :=
  { s with held := mutex :: s.held }

/-- `HAL_MutexUnlock` -/
@[simp] def unlock (s : UIoTShadow) (mutex : Mutex) : UIoTShadow :=
  { s with held := s.held.erase mutex }

/-- Call a user's callback. -/
@[simp] def call (s : UIoTShadow) (call : Call) : UIoTShadow :=
  { s with
    calls := s.calls ++ [call]
    callbackLocks := s.callbackLocks ++ [s.held] }

end UIoTShadow

/-- `uiot_shadow_init` on a new `UIoT_Shadow`, where all its allocations
succeed. -/
def uiotShadowInit (mqtt : Mqtt.Client) (productSn deviceSn : CString) :
    UIoTShadow where
  mqtt
  productSn
  deviceSn
  version := 0
  requestList := []
  propertyList := []
  cloudSendMethod := .get
  cloudRcvBuf := []
  held := []
  nextNumber := 0
  calls := []
  callbackLocks := []
  completed := []
  published := []

/-- What a request gets from its surroundings: whether its entry and node, the
iterators over its properties and over the registered ones, and the iterator of
each search can be allocated, and the surroundings of the publishing. -/
structure RequestEnv where
  requestAllocated : Bool
  nodeAllocated : Bool
  contentIteratorAllocated : Bool
  updateIteratorAllocated : Bool
  findAllocated : DeviceProperty → Bool
  publish : Mqtt.RequestEnv

/-! ## Queueing -/

/-- The list entry of a request. -/
def requestOf (s : UIoTShadow) (params : RequestParams) : Request where
  number := s.nextNumber
  method := params.method
  userContext := params.userContext
  timer := .countdown s.mqtt.clock params.timeoutSec.toNat
  callback := params.requestCallback

/-- `shadow_add_request_to_list` -/
def shadowAddRequestToList (s : UIoTShadow) (params : RequestParams)
    (env : RequestEnv) : UIoTShadow × IoTError :=
  let s := s.lock .request
  if s.requestList.length ≥ maxAppendingRequestAtAnyGivenTime then
    (s.unlock .request, .errMaxAppendingRequest)
  else if !env.requestAllocated then
    (s.unlock .request, .failureRet)
  else if !env.nodeAllocated then
    (s.unlock .request, .failureRet)
  else
    let s := { s with requestList := s.requestList ++ [requestOf s params] }
    (s.unlock .request, .successRet)

/-! ## Publishing -/

/-- The topic a request is published to. -/
def publishTopic (s : UIoTShadow) (method : Method) : List UInt8 :=
  ascii "/$system/" ++ s.productSn.bytes ++ ascii "/" ++ s.deviceSn.bytes ++
    (if method = .get then ascii "/shadow/get" else ascii "/shadow/upstream")

/-- `uiot_shadow_publish_operation_to_cloud` -/
def uiotShadowPublishOperationToCloud (s : UIoTShadow) (method : Method)
    (pJsonDoc : List UInt8) (env : RequestEnv) : UIoTShadow × IoTError :=
  let (topic, size) :=
    halSnprintf [] 0 maxSizeOfCloudTopic (publishTopic s method)
  if size < 0 ∨ size > maxSizeOfCloudTopic - 1 then
    (s, .failureRet)
  else
    let s := { s with cloudSendMethod := method }
    let topic := CString.ofArray topic
    let document := CString.ofArray pJsonDoc
    match Mqtt.uiotMqttPublish s.mqtt topic
        ⟨.qos1, 0, 0, some document.bytes⟩ env.publish with
    | (mqtt, .ok _) =>
        ({ s with mqtt, published := s.published ++ [⟨topic, document⟩] },
          .successRet)
    | (mqtt, .error _) => ({ s with mqtt }, .failureRet)

/-! ## Local properties -/

/-- `shadow_common_update_property` on the registered properties: `list_find`
takes the first of the same key, or none where its iterator cannot be
allocated. -/
def updateFirst (property : DeviceProperty) (method : Method) :
    List PropertyHandler → List PropertyHandler
  | [] => []
  | handler :: handlers =>
      if handler.property.key = property.key then
        let data :=
          match method with
          | .update | .replyControlUpdate | .updateAndResetVer => property.data
          | .delete | .replyControlDelete => none
          | .get | .deleteAll => handler.property.data
        { handler with property := { handler.property with data } } :: handlers
      else
        handler :: updateFirst property method handlers

/-- `shadow_common_update_property`; its answer is not looked at. -/
def shadowCommonUpdateProperty (s : UIoTShadow) (property : DeviceProperty)
    (method : Method) (findAllocated : Bool) : UIoTShadow :=
  let s := s.lock .property
  let s :=
    if findAllocated then
      { s with propertyList := updateFirst property method s.propertyList }
    else s
  s.unlock .property

/-- A registered property without its data. -/
def PropertyHandler.cleared (handler : PropertyHandler) : PropertyHandler :=
  { handler with property := { handler.property with data := none } }

/-- `uiot_shadow_update_property`.  Where the iterator over the registered
properties cannot be allocated the mutex stays locked. -/
def uiotShadowUpdateProperty (s : UIoTShadow) (params : RequestParams)
    (env : RequestEnv) : UIoTShadow × IoTError :=
  if params.method = .deleteAll then
    let s := s.lock .property
    if s.propertyList.length = 0 then
      (s.unlock .property, .successRet)
    else if !env.updateIteratorAllocated then
      (s, .errParamInvalid)
    else
      let s :=
        { s with propertyList := s.propertyList.map PropertyHandler.cleared }
      (s.unlock .property, .successRet)
  else if params.propertyDeltaList.length = 0 then
    (s, .successRet)
  else if !env.updateIteratorAllocated then
    (s, .errParamInvalid)
  else
    (params.propertyDeltaList.reverse.foldl (fun s property =>
      shadowCommonUpdateProperty s property params.method
        (env.findAllocated property)) s, .successRet)

/-! ## Requests -/

/-- The part of `uiot_shadow_make_request` behind the queueing, whose result it
overwrites.  The parameters are destroyed in the end. -/
def makeQueuedRequest (s : UIoTShadow) (pJsonDoc : Option (List UInt8))
    (sizeOfBuffer : Nat) (params : RequestParams) (env : RequestEnv) :
    UIoTShadow × IoTError :=
  match buildDocument pJsonDoc sizeOfBuffer params s.version
      env.contentIteratorAllocated with
  | .error ret => (s, ret)
  | .ok pJsonDoc =>
      let (s, ret) :=
        uiotShadowPublishOperationToCloud s params.method pJsonDoc env
      if ret ≠ .successRet then (s, ret)
      else uiotShadowUpdateProperty s params env

/-- `uiot_shadow_make_request`, for a buffer that is missing or holds some
string. -/
def uiotShadowMakeRequest (s : UIoTShadow) (pJsonDoc : Option (List UInt8))
    (sizeOfBuffer : Nat) (params : Option RequestParams) (env : RequestEnv) :
    UIoTShadow × IoTError :=
  match params with
  | none => (s, .errParamInvalid)
  | some params =>
      let (queued, _) := shadowAddRequestToList s params env
      makeQueuedRequest { queued with nextNumber := s.nextNumber + 1 } pJsonDoc
        sizeOfBuffer params env

end Shadow
end UIoT
