import UIoT.Mqtt.Sessions

/-!
# The state of the connection

What a client knows of its connection: whether there is one, the timers that
keep it alive and bring it back, and the options it is made with.  Requests and
sweeps leave all of it alone, and so does handling an incoming packet; a cycle
takes time and counts some packets as a sign of life.
-/

namespace UIoT
namespace Mqtt

/-- The part of a client that is about its connection. -/
structure Link where
  isConnected : Bool
  wasManuallyDisconnected : Bool
  isPingOutstanding : UInt8
  currentReconnectWaitInterval : Nat
  counterNetworkDisconnected : Nat
  options : MQTTConnectParams
  pingTimer : Timer
  reconnectDelayTimer : Timer
  clock : Nat

/-- The connection of a client. -/
def Client.link (c : Client) : Link where
  isConnected := c.isConnected
  wasManuallyDisconnected := c.wasManuallyDisconnected
  isPingOutstanding := c.isPingOutstanding
  currentReconnectWaitInterval := c.currentReconnectWaitInterval
  counterNetworkDisconnected := c.counterNetworkDisconnected
  options := c.options
  pingTimer := c.pingTimer
  reconnectDelayTimer := c.reconnectDelayTimer
  clock := c.clock

/-! ## Sends and requests -/

theorem sendMqttPacket_link (c : Client) (len : Nat)
    (writes : List WriteOutcome) :
    (sendMqttPacket c len writes).1.link = c.link := by
  rw [sendMqttPacket_fst]
  rfl

theorem maskPushPubInfoTo_link (c : Client) (len : Nat) (msgId : UInt16)
    (env : RequestEnv) :
    (maskPushPubInfoTo c len msgId env).1.link = c.link := by
  rcases maskPushPubInfoTo_cases c len msgId env with
    ⟨-, pushed⟩ | ⟨-, ret, refused⟩
  · rw [pushed]
    rfl
  · rw [refused]

theorem pushSubInfoTo_link (c : Client) (msgId : UInt16) (type : MessageTypes)
    (handler : SubTopicHandle) (env : RequestEnv) :
    (pushSubInfoTo c msgId type handler env).1.link = c.link := by
  rcases pushSubInfoTo_cases c msgId type handler env with
    ⟨-, pushed⟩ | ⟨-, ret, refused⟩
  · rw [pushed]
    rfl
  · rw [refused]

theorem publishSerialized_link (c : Client) (len : Nat) (id : UInt16)
    (qos : QoS) (env : RequestEnv) :
    (publishSerialized c len id qos env).1.link = c.link := by
  unfold publishSerialized
  split
  · have sent := sendMqttPacket_link c len env.writes
    split <;> rename_i send <;> rw [send] at sent <;> exact sent
  · have pushed := maskPushPubInfoTo_link c len id env
    generalize maskPushPubInfoTo c len id env = push at pushed ⊢
    obtain ⟨next, ret | node⟩ := push
    · exact pushed
    · have sent := sendMqttPacket_link next len env.writes
      dsimp only
      split <;> rename_i send <;> rw [send] at sent <;>
        exact sent.trans pushed

theorem uiotMqttPublish_link (c : Client) (topicName : CString)
    (params : PublishParams) (env : RequestEnv) :
    (uiotMqttPublish c topicName params env).1.link = c.link := by
  rcases requestChecked_cases c topicName params.qos
      (publishChecked c topicName params env) with
    ⟨-, publish⟩ | ⟨-, ret, refused⟩
  · rw [show uiotMqttPublish c topicName params env = _ from publish]
    have numbered : (if params.qos = .qos1 then
        getNextPacketId (c.lock .writeBuf) else c.lock .writeBuf).link =
        c.link := by
      split <;> rfl
    unfold publishChecked
    dsimp only
    split
    · exact numbered
    · rw [publishSerialized_link]
      exact numbered
  · rw [show uiotMqttPublish c topicName params env = _ from refused]

theorem requestSerialized_link (c : Client) (len : Nat) (packetId : UInt16)
    (type : MessageTypes) (handler : SubTopicHandle) (env : RequestEnv) :
    (requestSerialized c len packetId type handler env).1.link = c.link := by
  have pushed := pushSubInfoTo_link c packetId type handler env
  unfold requestSerialized
  generalize pushSubInfoTo c packetId type handler env = push at pushed ⊢
  obtain ⟨next, ret | node⟩ := push
  · exact pushed
  · have sent := sendMqttPacket_link next len env.writes
    dsimp only
    split <;> rename_i send <;> rw [send] at sent <;> exact sent.trans pushed

theorem requestStored_link (c : Client) (topicFilter : CString)
    (type : MessageTypes)
    (serialize : Memory → UInt16 → CString → Except IoTError (Memory × Nat))
    (handler : StoredString → SubTopicHandle) (env : RequestEnv) :
    (requestStored c topicFilter type serialize handler env).1.link =
      c.link := by
  unfold requestStored
  split
  · rfl
  · dsimp only [storeFilter]
    split
    · rfl
    · rw [requestSerialized_link]
      rfl

theorem uiotMqttSubscribe_link (c : Client) (topicFilter : CString)
    (params : SubscribeParams) (env : RequestEnv) :
    (uiotMqttSubscribe c topicFilter params env).1.link = c.link := by
  rcases requestChecked_cases c topicFilter params.qos
      (subscribeChecked c topicFilter params env) with
    ⟨-, subscribe⟩ | ⟨-, ret, refused⟩
  · rw [show uiotMqttSubscribe c topicFilter params env = _ from subscribe]
    exact requestStored_link ..
  · rw [show uiotMqttSubscribe c topicFilter params env = _ from refused]

theorem clearSlots_link (topicFilter : CString)
    (slots : List (Fin maxSubTopics)) (c : Client) (suberExists : Bool) :
    (clearSlots topicFilter slots c suberExists).1.link = c.link := by
  induction slots generalizing c suberExists with
  | nil => rfl
  | cons i slots inductionHypothesis =>
      unfold clearSlots
      split
      · dsimp only
        rw [inductionHypothesis]
        rfl
      · exact inductionHypothesis ..

theorem uiotMqttUnsubscribe_link (c : Client) (topicFilter : CString)
    (env : RequestEnv) :
    (uiotMqttUnsubscribe c topicFilter env).1.link = c.link := by
  unfold uiotMqttUnsubscribe
  split
  · rfl
  split
  · rfl
  have cleared := clearSlots_link topicFilter (List.finRange maxSubTopics) c
    false
  generalize clearSlots topicFilter (List.finRange maxSubTopics) c false =
    clear at cleared ⊢
  obtain ⟨next, _ | _⟩ := clear
  · exact cleared
  · dsimp only
    split
    · exact cleared
    · exact (requestStored_link ..).trans cleared

theorem resubscribeLoop_link (envs : Fin maxSubTopics → RequestEnv)
    (slots : List (Fin maxSubTopics)) (c : Client) :
    (resubscribeLoop envs slots c).1.link = c.link := by
  induction slots generalizing c with
  | nil => rfl
  | cons i slots inductionHypothesis =>
      unfold resubscribeLoop
      dsimp only
      split
      · exact inductionHypothesis c
      rename_i topic _
      have requested := uiotMqttSubscribe_link c topic.text
        ⟨(c.subHandles i).qos, (c.subHandles i).messageHandler,
          (c.subHandles i).messageHandlerData⟩ (envs i)
      split
      · rename_i request
        rw [request] at requested
        exact requested
      · rename_i request
        rw [request] at requested
        exact (inductionHypothesis _).trans requested

theorem uiotMqttResubscribe_link (c : Client)
    (envs : Fin maxSubTopics → RequestEnv) :
    (uiotMqttResubscribe c envs).1.link = c.link := by
  unfold uiotMqttResubscribe
  split
  · rfl
  · exact resubscribeLoop_link ..

/-! ## Packets -/

theorem sendAnswer_link (c : Client) (packetType : MessageTypes)
    (packetId : UInt16) (writes : List WriteOutcome) :
    (sendAnswer c packetType packetId writes).1.link = c.link := by
  unfold sendAnswer
  dsimp only
  split
  · rfl
  · exact sendMqttPacket_link { c.lock .writeBuf with writeBuf := _ } _ _

theorem deliverMessage_link (c : Client) (before : UInt8)
    (message : MQTTMessage) :
    (deliverMessage c before message).link = c.link := by
  unfold deliverMessage
  dsimp only
  split <;> rfl

theorem maskPubInfoFrom_link (c : Client) (msgId : UInt16)
    (iteratorAllocated : Bool) :
    (maskPubInfoFrom c msgId iteratorAllocated).link = c.link := by
  cases iteratorAllocated <;> rfl

theorem maskSubInfoFrom_link (c : Client) (msgId : UInt16)
    (messageHandler : SubTopicHandle) (iteratorAllocated : Bool) :
    (maskSubInfoFrom c msgId messageHandler iteratorAllocated).1.link =
      c.link := by
  cases iteratorAllocated <;> rfl

theorem installHandle_link (c : Client) (packetId : UInt16)
    (subHandle : SubTopicHandle) (subNack : Bool) :
    (installHandle c packetId subHandle subNack).1.link = c.link := by
  unfold installHandle
  split
  · rfl
  split
  · rfl
  split <;> rfl

theorem handlePacket_link (c : Client) (type : MessageTypes)
    (env : CycleEnv) : (handlePacket c type env).1.link = c.link := by
  cases type with
  | puback =>
      show (handlePubackPacket c env).1.link = c.link
      unfold handlePubackPacket
      split
      · rfl
      · exact maskPubInfoFrom_link ..
  | suback =>
      show (handleSubackPacket c env).1.link = c.link
      unfold handleSubackPacket
      split
      · rfl
      · rename_i suback _
        have masked := maskSubInfoFrom_link (c.lock .generic) suback.packetId
          .zero env.iteratorAllocated
        dsimp only
        generalize maskSubInfoFrom (c.lock .generic) suback.packetId .zero
          env.iteratorAllocated = mask at masked ⊢
        obtain ⟨next, subHandle⟩ := mask
        exact (installHandle_link ..).trans masked
  | unsuback =>
      show (handleUnsubackPacket c env).1.link = c.link
      unfold handleUnsubackPacket
      split
      · rfl
      · rename_i packetId _
        have masked := maskSubInfoFrom_link c packetId env.staleHandle
          env.iteratorAllocated
        dsimp only
        generalize maskSubInfoFrom c packetId env.staleHandle
          env.iteratorAllocated = mask at masked ⊢
        obtain ⟨next, messageHandler⟩ := mask
        exact masked
  | publish =>
      show (handlePublishPacket c env).1.link = c.link
      unfold handlePublishPacket
      split
      · rfl
      · dsimp only
        split
        · exact deliverMessage_link ..
        · exact (sendAnswer_link ..).trans (deliverMessage_link ..)
  | pubrec =>
      show (handlePubrecPacket c env).1.link = c.link
      unfold handlePubrecPacket
      split
      · rfl
      · exact sendAnswer_link ..
  | _ => rfl

/-! ## Sweeps and pings -/

theorem uiotMqttPubInfoProc_link (c : Client) (iteratorAllocated : Bool) :
    (uiotMqttPubInfoProc c iteratorAllocated).link = c.link :=
  pubWaitAck.infoProc_eq_of_kept Client.link (fun _ _ => rfl)
    (fun _ _ => rfl) (fun _ _ => rfl) (fun _ _ => rfl) _ c iteratorAllocated

theorem uiotMqttSubInfoProc_link (c : Client) (iteratorAllocated : Bool) :
    (uiotMqttSubInfoProc c iteratorAllocated).link = c.link :=
  subWaitAck.infoProc_eq_of_kept Client.link (fun _ _ => rfl)
    (fun _ _ => rfl) (fun _ _ => rfl) (fun _ _ => rfl) _ c iteratorAllocated

theorem sendPing_link (len : Nat) (pings : Fin 4 → List WriteOutcome)
    (attempts : List (Fin 4)) (c : Client) :
    (sendPing len pings attempts c).1.link = c.link := by
  induction attempts generalizing c with
  | nil => rfl
  | cons attempt attempts inductionHypothesis =>
      have sent := sendMqttPacket_link c len (pings attempt)
      unfold sendPing
      split <;> rename_i send <;> rw [send] at sent
      · exact sent
      · exact (inductionHypothesis _).trans sent

/-! ## Cycles -/

/-- What a packet of a type says about the connection: `_handle_pingresp_packet`
for an acknowledgement, and for PUBLISH that no ping is outstanding. -/
def Link.note (link : Link) : MessageTypes → Link
  | .puback | .suback | .unsuback | .pingresp =>
      { link with
        isPingOutstanding := 0
        pingTimer :=
          .countdown link.clock link.options.keepAliveInterval.toNat }
  | .publish => { link with isPingOutstanding := 0 }
  | _ => link

theorem notePacket_link (c : Client) (type : MessageTypes) :
    (notePacket c type).link = c.link.note type := by
  cases type <;> rfl

/-- The type of the packet a cycle reads, if it is one the client handles. -/
def cycleType (c : Client) (env : CycleEnv) : Option MessageTypes :=
  match (readCycle c env).2 with
  | .error _ => none
  | .ok packetType => receivedType packetType

/-- A cycle takes time, and notes the packet it has read. -/
theorem cycleForRead_link (c : Client) (packetType : UInt8) (env : CycleEnv) :
    (cycleForRead c packetType env).1.link =
      match cycleType c env with
      | none => { c.link with clock := c.clock + env.elapsed }
      | some type =>
          { c.link with clock := c.clock + env.elapsed }.note type := by
  have reads : (readCycle c env).1.link =
      { c.link with clock := c.clock + env.elapsed } := rfl
  unfold cycleForRead cycleType
  generalize readCycle c env = read at reads ⊢
  obtain ⟨next, ret | received⟩ := read
  · split <;> simp_all
  · dsimp only
    cases receivedType received with
    | none => exact reads
    | some type =>
        change (notePacket (handlePacket next type env).1 type).link = _
        rw [notePacket_link, handlePacket_link, reads]

/-! ## Connecting and disconnecting -/

/-- An attempt takes its options before it opens a connection. -/
theorem sendConnect_link (c : Client) (options : MQTTConnectParams)
    (env : ConnectEnv) :
    (sendConnect c options env).1.link = { c.link with options } := by
  unfold sendConnect
  dsimp only
  split
  · rfl
  split
  · rfl
  · exact sendMqttPacket_link
      { Client.lock { c with options, output := [] } .writeBuf with
        writeBuf := _ } _ _

/-- The connection once it was accepted. -/
def Link.accept (link : Link) : Link :=
  { link with
    isConnected := true
    wasManuallyDisconnected := false
    isPingOutstanding := 0
    pingTimer := .countdown link.clock link.options.keepAliveInterval.toNat }

/-- A CONNACK leaves the connection alone or finds it accepted. -/
theorem acceptConnection_link (c : Client) :
    (acceptConnection c).1.link = c.link ∨
      (acceptConnection c).1.link = c.link.accept := by
  unfold acceptConnection
  split
  · exact .inl rfl
  split
  · exact .inl rfl
  · exact .inr rfl

/-- A disconnect ends the connection if there is one. -/
theorem uiotMqttDisconnect_link (c : Client) (writes : List WriteOutcome) :
    (uiotMqttDisconnect c writes).1.link =
      if c.isConnected then
        { c.link with isConnected := false, wasManuallyDisconnected := true }
      else c.link := by
  unfold uiotMqttDisconnect
  cases c.isConnected with
  | false => rfl
  | true =>
      have sent : (sendDisconnect c writes).link = c.link := by
        unfold sendDisconnect
        dsimp only
        split
        · rfl
        · exact sendMqttPacket_link { c.lock .writeBuf with writeBuf := _ } _ _
      rw [if_neg (by decide), if_pos rfl, ← sent]
      rfl

end Mqtt
end UIoT
