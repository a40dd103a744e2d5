import UIoT.Mqtt.PublishDecode
import UIoT.Mqtt.Serialize

/-!
# The MQTT client

The state of `struct Client` with what its functions do to their surroundings:
the clock they read, the heap they allocate from, the bytes they put on the
connection, the callbacks they invoke and the strings they free.  Everything
the surroundings decide (whether an allocation succeeds, what a read or a write
returns, how much time passes) is an argument of the function that asks.

`write_buf_size` and `read_buf_size` never change after initialisation and
stand here as the constants they are set to.
-/

namespace UIoT
namespace Mqtt

/-! ## Timers -/

/-- `Timer`: an end time in microseconds. -/
structure Timer where
  endTime : Nat
  deriving DecidableEq, Repr

namespace Timer

/-- `init_timer` -/
def init : Timer := ⟨0⟩

/-- `countdown_ms` -/
def countdownMs (clock timeoutMs : Nat) : Timer := ⟨clock + timeoutMs * 1000⟩

/-- `countdown` -/
def countdown (clock timeout : Nat) : Timer := ⟨clock + timeout * 1000000⟩

/-- `has_expired` -/
def hasExpired (timer : Timer) (clock : Nat) : Bool := timer.endTime ≤ clock

/-- `left_ms` -/
def leftMs (timer : Timer) (clock : Nat) : Nat := (timer.endTime - clock) / 1000

end Timer

/-! ## Handlers, nodes and messages -/

/-- A string on the heap. -/
structure StoredString where
  address : Nat
  text : CString
  deriving DecidableEq

/-- `SubTopicHandle`; function pointers and user data are addresses. -/
structure SubTopicHandle where
  topicFilter : Option StoredString
  messageHandler : Option Nat
  messageHandlerData : Nat
  qos : QoS
  deriving DecidableEq

/-- A `SubTopicHandle` of zero bytes. -/
def SubTopicHandle.zero : SubTopicHandle := ⟨none, none, 0, .qos0⟩

/-- `MQTTNodeState` -/
inductive MQTTNodeState
  | normal
  | invalid
  deriving DecidableEq, Repr

/-- `UIoTPubInfo` on its list node, which `address` identifies. -/
structure UIoTPubInfo where
  address : Nat
  pubStartTime : Timer
  nodeState : MQTTNodeState
  msgId : UInt16
  deriving DecidableEq

/-- `UIoTSubInfo` on its list node, which `address` identifies. -/
structure UIoTSubInfo where
  address : Nat
  type : MessageTypes
  msgId : UInt16
  subStartTime : Timer
  nodeState : MQTTNodeState
  handler : SubTopicHandle
  deriving DecidableEq

/-- `MQTTMessage` as a callback gets it: the decoded packet, whose payload
lies in the read buffer, and the bytes from the topic pointer on. -/
structure MQTTMessage where
  packet : PublishPacket
  topic : List UInt8
  topicLen : UInt16
  deriving DecidableEq, Repr

/-- The events the client raises. -/
inductive MQTTEvent
  | disconnect
  | reconnect
  | subscribeSuccess (packetId : UInt16)
  | subscribeTimeout (packetId : UInt16)
  | subscribeNack (packetId : UInt16)
  | unsubscribeSuccess (packetId : UInt16)
  | unsubscribeTimeout (packetId : UInt16)
  | publishSuccess (packetId : UInt16)
  | publishTimeout (packetId : UInt16)
  | publishReceived (message : MQTTMessage)
  deriving DecidableEq, Repr

/-- A call of a topic's message handler. -/
structure Delivery where
  messageHandler : Nat
  messageHandlerData : Nat
  message : MQTTMessage
  deriving DecidableEq, Repr

/-- The mutexes of a client. -/
inductive Lock
  | generic
  | writeBuf
  | listPub
  | listSub
  deriving DecidableEq, Repr

/-! ## The client -/

/-- `struct Client`, followed by the surroundings: the clock in microseconds,
the next free heap address and the mutexes held; then by what has happened so
far: the events raised, the messages handed to topic handlers, the mutexes held
at each of these callbacks, the strings freed, the nodes whose handler
`_mask_sub_info_from` has handed out, and the bytes written to the current
connection. -/
structure Client where
  isConnected : Bool
  wasManuallyDisconnected : Bool
  isPingOutstanding : UInt8
  nextPacketId : UInt16
  commandTimeoutMs : Nat
  currentReconnectWaitInterval : Nat
  counterNetworkDisconnected : Nat
  writeBuf : Memory
  readBuf : Memory
  listPubWaitAck : List UIoTPubInfo
  listSubWaitAck : List UIoTSubInfo
  eventHandler : Bool
  options : MQTTConnectParams
  pingTimer : Timer
  reconnectDelayTimer : Timer
  subHandles : Fin maxSubTopics → SubTopicHandle
  clock : Nat
  heapTop : Nat
  held : List Lock
  events : List MQTTEvent
  deliveries : List Delivery
  callbackLocks : List (List Lock)
  freed : List Nat
  handedOver : List Nat
  output : List UInt8

/-- The part of `MQTTInitParams` that `uiot_mqtt_init` uses. -/
structure MQTTInitParams where
  commandTimeout : Nat
  eventHandler : Bool

/-- `MQTTConnectParams` of zero bytes. -/
def MQTTConnectParams.zero : MQTTConnectParams :=
  ⟨none, none, none, 0, 0, 0, 0⟩

/-- `uiot_mqtt_init` where all its allocations succeed; otherwise there is no
client. -/
def uiotMqttInit (params : MQTTInitParams) (clock : Nat) : Client where
  isConnected := false
  wasManuallyDisconnected := false
  isPingOutstanding := 0
  nextPacketId := 1
  commandTimeoutMs :=
    if params.commandTimeout < minCommandTimeout then minCommandTimeout
    else if params.commandTimeout > maxCommandTimeout then maxCommandTimeout
    else params.commandTimeout
  currentReconnectWaitInterval := 0
  counterNetworkDisconnected := 0
  writeBuf := fun _ => 0
  readBuf := fun _ => 0
  listPubWaitAck := []
  listSubWaitAck := []
  eventHandler := params.eventHandler
  options := .zero
  pingTimer := .init
  reconnectDelayTimer := .init
  subHandles := fun _ => .zero
  clock
  heapTop := 0
  held := []
  events := []
  deliveries := []
  callbackLocks := []
  freed := []
  handedOver := []
  output := []

namespace Client

/-- `HAL_MutexLock` -/
@[simp] def lock (c : Client) (mutex : Lock) : Client :=
  { c with held := mutex :: c.held }

/-- `HAL_MutexUnlock` -/
@[simp] def unlock (c : Client) (mutex : Lock) : Client :=
  { c with held := c.held.erase mutex }

/-- Call the event handler if there is one. -/
@[simp] def raise (c : Client) (event : MQTTEvent) : Client :=
  { c with
    events := if c.eventHandler then c.events ++ [event] else c.events
    callbackLocks :=
      if c.eventHandler then c.callbackLocks ++ [c.held] else c.callbackLocks }

/-- Call a topic's message handler. -/
@[simp] def deliver (c : Client) (delivery : Delivery) : Client :=
  { c with
    deliveries := c.deliveries ++ [delivery]
    callbackLocks := c.callbackLocks ++ [c.held] }

/-- `HAL_Free` of a string; the null pointer is ignored. -/
@[simp] def free (c : Client) (string : Option StoredString) : Client :=
  { c with freed := c.freed ++ (string.map StoredString.address).toList }

/-- Time passes. -/
@[simp] def tick (c : Client) (elapsed : Nat) : Client :=
  { c with clock := c.clock + elapsed }

end Client

/-! ## Identifiers and handles -/

/-- The identifier behind another one. -/
def nextId (id : UInt16) : UInt16 := if id = maxPacketId then 1 else id + 1

/-- `get_next_packet_id`; it also returns the new value of `next_packet_id`. -/
def getNextPacketId (c : Client) : Client :=
  { c with nextPacketId := nextId c.nextPacketId }

/-- `_check_handle_is_identical` on two handles with a filter. -/
def checkHandleIsIdentical (subHandle1 subHandle2 : SubTopicHandle) : Bool :=
  match subHandle1.topicFilter, subHandle2.topicFilter with
  | some filter1, some filter2 =>
      filter1.text.bytes.length == filter2.text.bytes.length &&
        filter1.text.bytes == filter2.text.bytes &&
        subHandle1.messageHandler == subHandle2.messageHandler
  | _, _ => false

/-! ## Sending -/

/-- Outcome of one call of the write primitive: it takes at most so many bytes,
or fails. -/
inductive WriteOutcome
  | accepted (count : Nat)
  | failure
  deriving DecidableEq, Repr

/-- The loop of `send_mqtt_packet`, from `sent` bytes on.  The timer expires
when the outcomes end.  Every call offers `length` bytes, whatever was sent
before. -/
def sendLoop (writeBuf : Memory) (length : Nat) :
    (writes : List WriteOutcome) → (sent : Nat) → (output : List UInt8) →
      Nat × List UInt8
  | [], sent, output => (sent, output)
  | outcome :: writes, sent, output =>
      if sent < length then
        match outcome with
        | .failure => (sent, output)
        | .accepted count =>
            sendLoop writeBuf length writes (sent + min count length)
              (output ++ writeBuf.slice sent (min count length))
      else
        (sent, output)

/-- `send_mqtt_packet` -/
def sendMqttPacket (c : Client) (length : Nat) (writes : List WriteOutcome) :
    Client × IoTError :=
  if length ≥ uiotMqttTxBufLen then
    (c, .errMqttBufferTooShort)
  else
    let (sent, output) := sendLoop c.writeBuf length writes 0 c.output
    ({ c with output },
      if sent = length then .successRet else .failureRet)

/-! ## Bookkeeping -/

/-- The part of a client that records its requests and subscriptions. -/
structure Books where
  nextPacketId : UInt16
  listPubWaitAck : List UIoTPubInfo
  listSubWaitAck : List UIoTSubInfo
  subHandles : Fin maxSubTopics → SubTopicHandle
  eventHandler : Bool
  heapTop : Nat
  events : List MQTTEvent
  freed : List Nat
  handedOver : List Nat

/-- The books of a client. -/
def Client.books (c : Client) : Books where
  nextPacketId := c.nextPacketId
  listPubWaitAck := c.listPubWaitAck
  listSubWaitAck := c.listSubWaitAck
  subHandles := c.subHandles
  eventHandler := c.eventHandler
  heapTop := c.heapTop
  events := c.events
  freed := c.freed
  handedOver := c.handedOver

end Mqtt
end UIoT
