import UIoT.Mqtt.OutgoingPackets
import UIoT.Mqtt.Tracking

/-!
# What is put on the connection

`send_mqtt_packet` appends bytes of the write buffer to what was written to the
connection before.  Every function of the client appends in this way what it
sends, for packets it has serialised; a new connection starts with nothing.
-/

namespace UIoT
namespace Mqtt

/-! ## One send -/

/-- The loop appends as many bytes as it counts. -/
theorem sendLoop_eq (writeBuf : Memory) (length : Nat)
    (writes : List WriteOutcome) (sent : Nat) (output : List UInt8) :
    sent ≤ (sendLoop writeBuf length writes sent output).1 ∧
      (sendLoop writeBuf length writes sent output).2 =
        output ++ writeBuf.slice sent
          ((sendLoop writeBuf length writes sent output).1 - sent) := by
  induction writes generalizing sent output with
  | nil => simp [sendLoop]
  | cons outcome writes inductionHypothesis =>
      unfold sendLoop
      split
      · cases outcome with
        | failure => simp
        | accepted count =>
            have rest := inductionHypothesis (sent + min count length)
              (output ++ writeBuf.slice sent (min count length))
            dsimp only
            generalize sendLoop writeBuf length writes
              (sent + min count length)
              (output ++ writeBuf.slice sent (min count length)) = result
              at rest ⊢
            obtain ⟨grows, appended⟩ := rest
            refine ⟨by omega, ?_⟩
            have split : result.1 - sent =
                min count length + (result.1 - (sent + min count length)) := by
              omega
            rw [appended, split, Memory.slice_add, List.append_assoc]
      · simp

/-- How many bytes a send puts on the connection. -/
def sentCount (length : Nat) (writes : List WriteOutcome) : Nat :=
  if length ≥ uiotMqttTxBufLen then 0
  else (sendLoop (fun _ => 0) length writes 0 []).1

/-- A send changes nothing but what was written to the connection. -/
theorem sendMqttPacket_fst (c : Client) (length : Nat)
    (writes : List WriteOutcome) :
    (sendMqttPacket c length writes).1 =
      { c with
        output := c.output ++ c.writeBuf.slice 0 (sentCount length writes) } := by
  unfold sendMqttPacket sentCount
  split
  · simp
  · have appended := (sendLoop_eq c.writeBuf length writes 0 c.output).2
    have count := sendLoop_fst c.writeBuf (fun _ => 0) length writes 0 c.output
      []
    dsimp only
    rw [appended, count, Nat.sub_zero]

theorem sentCount_of_completes {length : Nat} {writes : List WriteOutcome}
    (completes : Completes length writes) :
    sentCount length writes = length := by
  unfold sentCount
  rw [if_neg (Nat.not_le.mpr completes.1), completes.2]

/-! ## Sends of a function -/

/-- A packet in the write buffer and the writes that are to send it. -/
structure Sending where
  buf : Memory
  packet : WirePacket
  writes : List WriteOutcome
  holds : HoldsPacket buf packet.bytes.length packet
  typed : ∃ type, packet.HasType type

/-- What is put on the connection. -/
def Sending.bytes (sending : Sending) : List UInt8 :=
  sending.buf.slice 0 (sentCount sending.packet.bytes.length sending.writes)

/-- The packet has a body of this length and goes through these writes. -/
def Sending.Offers (bodyLen : Nat) (writes : List WriteOutcome)
    (sending : Sending) : Prop :=
  sending.packet.body.length = bodyLen ∧ sending.writes = writes

/-- Some packets are sent, all of the kind, and the connection is kept. -/
structure Client.Sends (kind : Sending → Prop) (c after : Client) : Prop where
  isConnected : after.isConnected = c.isConnected
  output : ∃ sendings : List Sending, (∀ sending ∈ sendings, kind sending) ∧
    after.output = c.output ++ sendings.flatMap Sending.bytes

namespace Client.Sends

variable {kind : Sending → Prop} {c after : Client}

theorem of_eq (isConnected : after.isConnected = c.isConnected)
    (output : after.output = c.output) : Client.Sends kind c after :=
  ⟨isConnected, [], by simp, by simp [output]⟩

theorem refl (c : Client) : Client.Sends kind c c := of_eq rfl rfl

theorem trans {last : Client} (first : Client.Sends kind c after)
    (second : Client.Sends kind after last) : Client.Sends kind c last := by
  obtain ⟨sendings, kinds, output⟩ := first.output
  obtain ⟨others, otherKinds, otherOutput⟩ := second.output
  refine ⟨second.isConnected.trans first.isConnected, sendings ++ others, ?_,
    ?_⟩
  · intro sending mem
    rcases List.mem_append.mp mem with mem | mem
    · exact kinds sending mem
    · exact otherKinds sending mem
  · rw [otherOutput, output, List.flatMap_append, List.append_assoc]

theorem mono {other : Sending → Prop} (sends : Client.Sends kind c after)
    (weaker : ∀ sending, kind sending → other sending) :
    Client.Sends other c after := by
  obtain ⟨sendings, kinds, output⟩ := sends.output
  exact ⟨sends.isConnected, sendings, fun sending mem =>
    weaker sending (kinds sending mem), output⟩

/-- What was written before stays in front. -/
theorem isPrefix (sends : Client.Sends kind c after) :
    c.output <+: after.output := by
  obtain ⟨sendings, -, output⟩ := sends.output
  exact output ▸ List.prefix_append ..

end Client.Sends

/-- Sending what a serialiser answers. -/
theorem SerializesTo.sends {type : MessageTypes} {bodyLen len : Nat}
    {answer : Except IoTError (Memory × Nat)} {memory : Memory}
    (serializes : SerializesTo type bodyLen answer)
    (answered : answer = .ok (memory, len)) (c : Client)
    (writes : List WriteOutcome) :
    Client.Sends (Sending.Offers bodyLen writes) c
      (sendMqttPacket { c with writeBuf := memory } len writes).1 := by
  obtain ⟨packet, typed, body, holds⟩ := serializes memory len answered
  obtain rfl := holds.length_eq
  refine ⟨by rw [sendMqttPacket_fst],
    [⟨memory, packet, writes, holds, type, typed⟩], ?_, ?_⟩
  · intro sending mem
    obtain rfl := List.mem_singleton.mp mem
    exact ⟨body, rfl⟩
  · rw [sendMqttPacket_fst, List.flatMap_singleton]
    rfl

/-! ## Functions that send -/

theorem sendAnswer_sends (c : Client) (packetType : MessageTypes)
    (packetId : UInt16) (writes : List WriteOutcome) :
    Client.Sends (Sending.Offers 2 writes) c
      (sendAnswer c packetType packetId writes).1 := by
  unfold sendAnswer
  dsimp only
  split
  · exact .of_eq rfl rfl
  · rename_i memory len answered
    have sends := (serializePubAckPacket_serializesTo _ packetType packetId).sends
      answered (c.lock .writeBuf) writes
    exact ⟨sends.isConnected, sends.output⟩

theorem deliverMessage_sends {kind : Sending → Prop} (c : Client)
    (before : UInt8) (message : MQTTMessage) :
    Client.Sends kind c (deliverMessage c before message) := by
  unfold deliverMessage
  dsimp only
  split <;> exact .of_eq rfl rfl

theorem handlePublishPacket_sends (c : Client) (env : CycleEnv) :
    Client.Sends (Sending.Offers 2 env.writes) c
      (handlePublishPacket c env).1 := by
  unfold handlePublishPacket
  split
  · exact .refl c
  · dsimp only
    split
    · exact deliverMessage_sends ..
    · exact (deliverMessage_sends ..).trans (sendAnswer_sends ..)

theorem installHandle_sends {kind : Sending → Prop} (c : Client)
    (packetId : UInt16) (subHandle : SubTopicHandle) (subNack : Bool) :
    Client.Sends kind c (installHandle c packetId subHandle subNack).1 := by
  unfold installHandle
  split
  · exact .of_eq rfl rfl
  split
  · exact .of_eq rfl rfl
  split <;> exact .of_eq rfl rfl

theorem maskSubInfoFrom_sends (kind : Sending → Prop) (c : Client)
    (packetId : UInt16) (initial : SubTopicHandle) (iteratorAllocated : Bool) :
    Client.Sends kind c
      (maskSubInfoFrom c packetId initial iteratorAllocated).1 := by
  cases iteratorAllocated <;> exact .of_eq rfl rfl

theorem handlePubackPacket_sends {kind : Sending → Prop} (c : Client)
    (env : CycleEnv) : Client.Sends kind c (handlePubackPacket c env).1 := by
  unfold handlePubackPacket
  split
  · exact .refl c
  · unfold maskPubInfoFrom
    dsimp only
    split <;> exact .of_eq rfl rfl

theorem handleSubackPacket_sends {kind : Sending → Prop} (c : Client)
    (env : CycleEnv) : Client.Sends kind c (handleSubackPacket c env).1 := by
  unfold handleSubackPacket
  split
  · exact .refl c
  · rename_i packet _
    have locks : Client.Sends kind c (c.lock .generic) := .of_eq rfl rfl
    have masks := maskSubInfoFrom_sends kind (c.lock .generic)
      packet.packetId .zero env.iteratorAllocated
    exact (locks.trans masks).trans (installHandle_sends ..)

theorem handleUnsubackPacket_sends {kind : Sending → Prop} (c : Client)
    (env : CycleEnv) : Client.Sends kind c (handleUnsubackPacket c env).1 := by
  unfold handleUnsubackPacket
  split
  · exact .refl c
  · rename_i packetId _
    have masks := maskSubInfoFrom_sends kind c packetId
      env.staleHandle env.iteratorAllocated
    dsimp only
    generalize maskSubInfoFrom c packetId env.staleHandle
      env.iteratorAllocated = masked at masks ⊢
    obtain ⟨next, messageHandler⟩ := masked
    exact ⟨by simpa using masks.isConnected, by simpa using masks.output⟩

theorem handlePubrecPacket_sends (c : Client) (env : CycleEnv) :
    Client.Sends (Sending.Offers 2 env.writes) c
      (handlePubrecPacket c env).1 := by
  unfold handlePubrecPacket
  split
  · exact .refl c
  · exact sendAnswer_sends ..

theorem handlePacket_sends (c : Client) (type : MessageTypes) (env : CycleEnv) :
    Client.Sends (Sending.Offers 2 env.writes) c (handlePacket c type env).1 := by
  cases type with
  | puback => exact handlePubackPacket_sends c env
  | suback => exact handleSubackPacket_sends c env
  | unsuback => exact handleUnsubackPacket_sends c env
  | publish => exact handlePublishPacket_sends c env
  | pubrec => exact handlePubrecPacket_sends c env
  | _ => exact .refl c

theorem notePacket_sends {kind : Sending → Prop} (c : Client)
    (type : MessageTypes) : Client.Sends kind c (notePacket c type) := by
  cases type <;> exact .of_eq rfl rfl

/-- A cycle sends at most answers. -/
theorem cycleForRead_sends (c : Client) (packetType : UInt8) (env : CycleEnv) :
    Client.Sends (Sending.Offers 2 env.writes) c
      (cycleForRead c packetType env).1 := by
  have reads : Client.Sends (Sending.Offers 2 env.writes) c
    (readCycle c env).1 := .of_eq rfl rfl
  unfold cycleForRead
  generalize readCycle c env = read at reads ⊢
  obtain ⟨next, ret | packetType⟩ := read
  · split <;> simp_all
  · dsimp only
    split
    · exact reads
    · exact (reads.trans (handlePacket_sends ..)).trans (notePacket_sends ..)

/-- What neither storing nodes nor timing one out changes, a sweep leaves as it
is. -/
theorem WaitingList.infoProc_eq_of_kept {Info β : Type}
    (list : WaitingList Info) (view : Client → β)
    (setNodes : ∀ c infos, view (list.setNodes c infos) = view c)
    (timeOut : ∀ c info, view (list.timeOut c info) = view c)
    (lock : ∀ c mutex, view (Client.lock c mutex) = view c)
    (unlock : ∀ c mutex, view (Client.unlock c mutex) = view c)
    (mutex : Lock) (c : Client) (iteratorAllocated : Bool) :
    view (list.infoProc mutex c iteratorAllocated) = view c := by
  have loop : ∀ infos c, view (list.infoLoop infos c) = view c := by
    intro infos
    induction infos with
    | nil => exact fun c => rfl
    | cons info infos inductionHypothesis =>
        intro c
        unfold infoLoop
        split
        · rw [inductionHypothesis, remove, setNodes]
        split
        · exact inductionHypothesis c
        split
        · exact inductionHypothesis c
        · rw [inductionHypothesis, remove, setNodes, timeOut]
  unfold infoProc
  split
  · rw [unlock, loop, lock]
  · rfl

theorem uiotMqttPubInfoProc_sends {kind : Sending → Prop} (c : Client)
    (iteratorAllocated : Bool) :
    Client.Sends kind c (uiotMqttPubInfoProc c iteratorAllocated) :=
  .of_eq
    (pubWaitAck.infoProc_eq_of_kept Client.isConnected (fun _ _ => rfl)
      (fun _ _ => rfl) (fun _ _ => rfl) (fun _ _ => rfl) _ c iteratorAllocated)
    (pubWaitAck.infoProc_eq_of_kept Client.output (fun _ _ => rfl)
      (fun _ _ => rfl) (fun _ _ => rfl) (fun _ _ => rfl) _ c iteratorAllocated)

theorem uiotMqttSubInfoProc_sends {kind : Sending → Prop} (c : Client)
    (iteratorAllocated : Bool) :
    Client.Sends kind c (uiotMqttSubInfoProc c iteratorAllocated) :=
  .of_eq
    (subWaitAck.infoProc_eq_of_kept Client.isConnected (fun _ _ => rfl)
      (fun _ _ => rfl) (fun _ _ => rfl) (fun _ _ => rfl) _ c iteratorAllocated)
    (subWaitAck.infoProc_eq_of_kept Client.output (fun _ _ => rfl)
      (fun _ _ => rfl) (fun _ _ => rfl) (fun _ _ => rfl) _ c iteratorAllocated)

/-- A list of attempts sends at most PINGREQ packets. -/
theorem sendPing_sends {c : Client} {memory : Memory} {len : Nat}
    (answered : serializePacketWithZeroPayload c.writeBuf uiotMqttTxBufLen
      .pingreq = .ok (memory, len))
    (pings : Fin 4 → List WriteOutcome) (attempts : List (Fin 4)) :
    Client.Sends (fun sending => ∃ attempt, sending.Offers 0 (pings attempt)) c
      (sendPing len pings attempts { c with writeBuf := memory }).1 := by
  have each : ∀ (attempts : List (Fin 4)) (next : Client),
      next.writeBuf = memory →
        Client.Sends (fun sending => ∃ attempt, sending.Offers 0 (pings attempt))
          next (sendPing len pings attempts next).1 := by
    intro attempts
    induction attempts with
    | nil => exact fun next _ => .refl next
    | cons attempt attempts inductionHypothesis =>
        intro next sameBuf
        have sends := (serializePacketWithZeroPayload_serializesTo c.writeBuf
          .pingreq).sends answered next (pings attempt)
        have sendsPing : Client.Sends
            (fun sending => ∃ attempt, sending.Offers 0 (pings attempt)) next
            (sendMqttPacket next len (pings attempt)).1 := by
          subst sameBuf
          exact sends.mono fun sending offers => ⟨attempt, offers⟩
        have buf : (sendMqttPacket next len (pings attempt)).1.writeBuf =
            memory := by
          rw [sendMqttPacket_fst]
          exact sameBuf
        unfold sendPing
        generalize sendMqttPacket next len (pings attempt) = result
          at sendsPing buf ⊢
        obtain ⟨after, ret⟩ := result
        split
        · simp_all
        · simp_all
          exact sendsPing.trans (inductionHypothesis _ buf)
  have start : Client.Sends
      (fun sending => ∃ attempt, sending.Offers 0 (pings attempt)) c
      { c with writeBuf := memory } := .of_eq rfl rfl
  exact start.trans (each attempts { c with writeBuf := memory } rfl)

/-! ## Requests -/

/-- A serialised publish is sent. -/
theorem publishSerialized_sends {c : Client} {bodyLen len : Nat}
    {type : MessageTypes} {answer : Except IoTError (Memory × Nat)}
    {memory : Memory} (serializes : SerializesTo type bodyLen answer)
    (answered : answer = .ok (memory, len)) (id : UInt16) (qos : QoS)
    (env : RequestEnv) :
    Client.Sends (Sending.Offers bodyLen env.writes) c
      (publishSerialized { c with writeBuf := memory } len id qos env).1 := by
  unfold publishSerialized
  split
  · have sends := serializes.sends answered c env.writes
    split <;> rename_i send <;> rw [send] at sends <;>
      exact ⟨sends.isConnected, sends.output⟩
  · rcases maskPushPubInfoTo_cases { c with writeBuf := memory } len id env with
      ⟨-, pushed⟩ | ⟨-, ret, refused⟩
    · rw [pushed]
      have sends := serializes.sends answered
        { c with
          listPubWaitAck := c.listPubWaitAck ++
            [Client.pubInfo { c with writeBuf := memory } id]
          heapTop := c.heapTop + 1 } env.writes
      dsimp only at sends ⊢
      split <;> rename_i send <;> rw [send] at sends <;>
        exact ⟨sends.isConnected, sends.output⟩
    · rw [refused]
      exact .of_eq rfl rfl

/-- A publish is sent, if it gets that far. -/
theorem uiotMqttPublish_sends (c : Client) {topicName : CString}
    {params : PublishParams} (env : RequestEnv)
    (fits : topicName.bytes.length + (params.payload.getD []).length + 4 <
      2 ^ 32) :
    Client.Sends
      (Sending.Offers (publishBodyLen params.qos topicName
        (params.payload.getD []).length) env.writes) c
      (uiotMqttPublish c topicName params env).1 := by
  rcases requestChecked_cases c topicName params.qos
      (publishChecked c topicName params env) with
    ⟨-, publish⟩ | ⟨-, ret, refused⟩
  · rw [show uiotMqttPublish c topicName params env = _ from publish]
    unfold publishChecked
    dsimp only
    split
    · split <;> exact .of_eq rfl rfl
    · rename_i memory len answered
      have sends := publishSerialized_sends
        (c := if params.qos = .qos1 then getNextPacketId (c.lock .writeBuf)
          else c.lock .writeBuf)
        (serializePublishPacket_serializesTo _ 0 params.qos params.retained _
          fits) answered
        (if params.qos = .qos1 then
          (if params.qos = .qos1 then getNextPacketId (c.lock .writeBuf)
            else c.lock .writeBuf).nextPacketId
          else params.id) params.qos env
      refine Client.Sends.trans (.of_eq ?_ ?_) sends <;> split <;> rfl
  · rw [show uiotMqttPublish c topicName params env = _ from refused]
    exact .refl c

/-- A serialised request is sent. -/
theorem requestSerialized_sends {c : Client} {bodyLen len : Nat}
    {type : MessageTypes} {answer : Except IoTError (Memory × Nat)}
    {memory : Memory} (serializes : SerializesTo type bodyLen answer)
    (answered : answer = .ok (memory, len)) (packetId : UInt16)
    (nodeType : MessageTypes) (handler : SubTopicHandle) (env : RequestEnv) :
    Client.Sends (Sending.Offers bodyLen env.writes) c
      (requestSerialized { c with writeBuf := memory } len packetId nodeType
        handler env).1 := by
  unfold requestSerialized
  rcases pushSubInfoTo_cases { c with writeBuf := memory } packetId nodeType
      handler env with
    ⟨-, pushed⟩ | ⟨-, ret, refused⟩
  · rw [pushed]
    have sends := serializes.sends answered
      { c with
        listSubWaitAck := c.listSubWaitAck ++
          [Client.subInfo { c with writeBuf := memory } packetId nodeType
            handler]
        heapTop := c.heapTop + 1 } env.writes
    dsimp only at sends ⊢
    split <;> rename_i send <;> rw [send] at sends <;>
      exact ⟨sends.isConnected, sends.output⟩
  · rw [refused]
    exact .of_eq rfl rfl

/-- A request with a filter is sent, if it gets that far. -/
theorem requestStored_sends (c : Client) {topicFilter : CString}
    {type : MessageTypes} {bodyLen : Nat}
    {serialize : Memory → UInt16 → CString → Except IoTError (Memory × Nat)}
    (serializes : ∀ buf packetId,
      SerializesTo type bodyLen (serialize buf packetId topicFilter))
    (nodeType : MessageTypes) (handler : StoredString → SubTopicHandle)
    (env : RequestEnv) :
    Client.Sends (Sending.Offers bodyLen env.writes) c
      (requestStored c topicFilter nodeType serialize handler env).1 := by
  unfold requestStored
  split
  · exact .refl c
  · dsimp only [storeFilter]
    split
    · exact .of_eq rfl rfl
    · rename_i memory len answered
      have sends := requestSerialized_sends
        (c := getNextPacketId
          (Client.lock { c with heapTop := c.heapTop + 1 } .writeBuf))
        (serializes _ _) answered
        (getNextPacketId (Client.lock { c with heapTop := c.heapTop + 1 }
          .writeBuf)).nextPacketId nodeType
        (handler ⟨c.heapTop, topicFilter⟩) env
      exact ⟨sends.isConnected, sends.output⟩

/-- A subscription is sent, if it gets that far. -/
theorem uiotMqttSubscribe_sends (c : Client) (topicFilter : CString)
    (params : SubscribeParams) (env : RequestEnv) :
    Client.Sends
      (Sending.Offers (topicFilter.bytes.length + 5) env.writes) c
      (uiotMqttSubscribe c topicFilter params env).1 := by
  rcases requestChecked_cases c topicFilter params.qos
      (subscribeChecked c topicFilter params env) with
    ⟨checked, subscribe⟩ | ⟨-, ret, refused⟩
  · rw [show uiotMqttSubscribe c topicFilter params env = _ from subscribe]
    have short := checked.2.1
    unfold maxSizeOfCloudTopic at short
    exact requestStored_sends c (fun buf packetId =>
      subscribePacket_serializesTo buf params.qos packetId (by omega)) _ _ env
  · rw [show uiotMqttSubscribe c topicFilter params env = _ from refused]
    exact .refl c

theorem clearSlots_sends (kind : Sending → Prop) (topicFilter : CString)
    (slots : List (Fin maxSubTopics)) (c : Client) (suberExists : Bool) :
    Client.Sends kind c (clearSlots topicFilter slots c suberExists).1 := by
  induction slots generalizing c suberExists with
  | nil => exact .refl c
  | cons i slots inductionHypothesis =>
      unfold clearSlots
      split
      · have rest := inductionHypothesis
          { c.free (c.subHandles i).topicFilter with
            subHandles := Function.update c.subHandles i
              { c.subHandles i with topicFilter := none } } true
        exact ⟨rest.isConnected, rest.output⟩
      · exact inductionHypothesis ..

/-- A cancellation is sent, if it gets that far. -/
theorem uiotMqttUnsubscribe_sends (c : Client) (topicFilter : CString)
    (env : RequestEnv) :
    Client.Sends
      (Sending.Offers (topicFilter.bytes.length + 4) env.writes) c
      (uiotMqttUnsubscribe c topicFilter env).1 := by
  unfold uiotMqttUnsubscribe
  split
  · exact .refl c
  split
  · exact .refl c
  rename_i short
  have clears := clearSlots_sends
    (Sending.Offers (topicFilter.bytes.length + 4) env.writes)
    topicFilter (List.finRange maxSubTopics) c false
  unfold maxSizeOfCloudTopic at short
  generalize clearSlots topicFilter (List.finRange maxSubTopics) c false =
    cleared at clears ⊢
  obtain ⟨next, _ | _⟩ := cleared
  · exact clears
  · dsimp only
    split
    · exact clears
    · exact clears.trans (requestStored_sends next (fun buf packetId =>
        unsubscribePacket_serializesTo buf packetId (by omega)) _ _ env)

end Mqtt
end UIoT
