import UIoT.Mqtt.Yield

/-!
# The books of a client

What a client records about its requests and subscriptions, and what each of
its functions does to these records.  Requests append to the waiting lists,
acknowledgements mark nodes and fill slots, sweeps drop nodes, and everything
else leaves the books alone.
-/

namespace UIoT
namespace Mqtt

/-- The event is about a request: an acknowledgement or a timeout. -/
def MQTTEvent.isRequestEvent : MQTTEvent → Bool
  | disconnect => false
  | reconnect => false
  | publishReceived _ => false
  | _ => true

/-! ## Marked nodes -/

@[simp] theorem UIoTPubInfo.address_mask (msgId : UInt16) (info : UIoTPubInfo) :
    (info.mask msgId).address = info.address := by
  unfold UIoTPubInfo.mask
  split <;> rfl

@[simp] theorem UIoTPubInfo.msgId_mask (msgId : UInt16) (info : UIoTPubInfo) :
    (info.mask msgId).msgId = info.msgId := by
  unfold UIoTPubInfo.mask
  split <;> rfl

@[simp] theorem UIoTSubInfo.address_mask (msgId : UInt16) (info : UIoTSubInfo) :
    (info.mask msgId).address = info.address := by
  unfold UIoTSubInfo.mask
  split <;> rfl

@[simp] theorem UIoTSubInfo.msgId_mask (msgId : UInt16) (info : UIoTSubInfo) :
    (info.mask msgId).msgId = info.msgId := by
  unfold UIoTSubInfo.mask
  split <;> rfl

@[simp] theorem UIoTSubInfo.type_mask (msgId : UInt16) (info : UIoTSubInfo) :
    (info.mask msgId).type = info.type := by
  unfold UIoTSubInfo.mask
  split <;> rfl

@[simp] theorem UIoTSubInfo.handler_mask (msgId : UInt16)
    (info : UIoTSubInfo) : (info.mask msgId).handler = info.handler := by
  unfold UIoTSubInfo.mask
  split <;> rfl

/-- A marked node waits if it did and has another identifier. -/
theorem UIoTSubInfo.nodeState_mask_iff (packetId : UInt16)
    (info : UIoTSubInfo) :
    (info.mask packetId).nodeState = .normal ↔
      info.nodeState = .normal ∧ info.msgId ≠ packetId := by
  unfold UIoTSubInfo.mask
  split
  · rename_i carries
    simp [carries]
  · rename_i others
    simp [others]

namespace Books

/-! ## Steps -/

/-- Call the event handler if there is one. -/
def raise (b : Books) (event : MQTTEvent) : Books :=
  { b with
    events := if b.eventHandler then b.events ++ [event] else b.events }

/-- Free a string. -/
def free (b : Books) (string : Option StoredString) : Books :=
  { b with freed := b.freed ++ (string.map StoredString.address).toList }

/-- A PUBACK marks the nodes that carry its identifier. -/
def puback (b : Books) (packetId : UInt16) (iteratorAllocated : Bool) : Books :=
  raise
    { b with
      listPubWaitAck :=
        if iteratorAllocated then
          b.listPubWaitAck.map (UIoTPubInfo.mask packetId)
        else b.listPubWaitAck }
    (.publishSuccess packetId)

/-- No node has the identifier. -/
def NoCarrier (b : Books) (packetId : UInt16) : Prop :=
  ∀ info ∈ b.listSubWaitAck, info.msgId ≠ packetId

/-- The nodes that carry an identifier, in the order they are walked. -/
def carriers (b : Books) (packetId : UInt16) : List UIoTSubInfo :=
  b.listSubWaitAck.reverse.filter fun info => info.msgId = packetId

/-- The nodes that carry the identifier are marked and hand their handlers
out. -/
def maskSub (b : Books) (packetId : UInt16) (iteratorAllocated : Bool) : Books :=
  if iteratorAllocated then
    { b with
      listSubWaitAck := b.listSubWaitAck.map (UIoTSubInfo.mask packetId)
      handedOver :=
        b.handedOver ++ (b.carriers packetId).map UIoTSubInfo.address }
  else
    b

/-- The handler that remains when all carriers have handed theirs out. -/
def maskedHandler (b : Books) (packetId : UInt16) (initial : SubTopicHandle)
    (iteratorAllocated : Bool) : SubTopicHandle :=
  if iteratorAllocated then
    (b.carriers packetId).foldl (fun _ info => info.handler) initial
  else
    initial

/-- The handler that remains is the initial one if nothing is walked, and
otherwise that of a carrier. -/
theorem maskedHandler_cases (b : Books) (packetId : UInt16)
    (initial : SubTopicHandle) (iteratorAllocated : Bool) :
    ((iteratorAllocated = false ∨ b.carriers packetId = []) ∧
        b.maskedHandler packetId initial iteratorAllocated = initial) ∨
      ∃ info ∈ b.listSubWaitAck, info.msgId = packetId ∧
        b.maskedHandler packetId initial iteratorAllocated = info.handler := by
  cases iteratorAllocated with
  | false => exact .inl ⟨.inl rfl, rfl⟩
  | true =>
      rcases (b.carriers packetId).eq_nil_or_concat with
        nothing | ⟨front, info, walked⟩
      · exact .inl ⟨.inr nothing, by simp [maskedHandler, nothing]⟩
      · have mem : info ∈ b.carriers packetId := by simp [walked]
        obtain ⟨listed, carries⟩ := List.mem_filter.mp mem
        refine .inr ⟨info, List.mem_reverse.mp listed,
          of_decide_eq_true carries, ?_⟩
        simp [maskedHandler, walked]

/-- The handler of an acknowledged subscription is dropped, with an event for a
refusal, or put into a free slot unless it is in one already. -/
def install (b : Books) (packetId : UInt16) (subHandle : SubTopicHandle)
    (subNack : Bool) : Books :=
  if subHandle.topicFilter = none then
    b
  else if subNack then
    (b.raise (.subscribeNack packetId)).free subHandle.topicFilter
  else
    match scanHandles b.subHandles subHandle (List.finRange maxSubTopics)
        none with
    | (true, _) =>
        (b.free subHandle.topicFilter).raise (.subscribeSuccess packetId)
    | (false, none) => b
    | (false, some i) =>
        raise
          { b with subHandles := Function.update b.subHandles i subHandle }
          (.subscribeSuccess packetId)

/-- The refusal among the codes of a SUBACK. -/
def subNack (packet : SubackPacket) : Bool :=
  packet.grantedQoSs.any (· == 0x80)

/-- What a SUBACK does. -/
def suback (b : Books) (packet : SubackPacket) (iteratorAllocated : Bool) :
    Books :=
  (b.maskSub packet.packetId iteratorAllocated).install packet.packetId
    (b.maskedHandler packet.packetId .zero iteratorAllocated) (subNack packet)

/-- What an UNSUBACK does. -/
def unsuback (b : Books) (packetId : UInt16) (staleHandle : SubTopicHandle)
    (iteratorAllocated : Bool) : Books :=
  raise
    ((b.maskSub packetId iteratorAllocated).free
      (b.maskedHandler packetId staleHandle iteratorAllocated).topicFilter)
    (.unsubscribeSuccess packetId)

section Fields

variable (b : Books)

@[simp] theorem raise_nextPacketId (event : MQTTEvent) :
    (b.raise event).nextPacketId = b.nextPacketId := rfl

@[simp] theorem raise_listPubWaitAck (event : MQTTEvent) :
    (b.raise event).listPubWaitAck = b.listPubWaitAck := rfl

@[simp] theorem raise_listSubWaitAck (event : MQTTEvent) :
    (b.raise event).listSubWaitAck = b.listSubWaitAck := rfl

@[simp] theorem raise_subHandles (event : MQTTEvent) :
    (b.raise event).subHandles = b.subHandles := rfl

@[simp] theorem raise_eventHandler (event : MQTTEvent) :
    (b.raise event).eventHandler = b.eventHandler := rfl

@[simp] theorem raise_heapTop (event : MQTTEvent) :
    (b.raise event).heapTop = b.heapTop := rfl

@[simp] theorem raise_freed (event : MQTTEvent) :
    (b.raise event).freed = b.freed := rfl

@[simp] theorem raise_handedOver (event : MQTTEvent) :
    (b.raise event).handedOver = b.handedOver := rfl

/-- With a handler the event is recorded. -/
theorem raise_events {event : MQTTEvent} (handler : b.eventHandler = true) :
    (b.raise event).events = b.events ++ [event] := if_pos handler

/-- Raising an event adds that event at most. -/
theorem mem_drop_raise {event raised : MQTTEvent}
    (mem : event ∈ (b.raise raised).events.drop b.events.length) :
    event = raised := by
  unfold raise at mem
  dsimp only at mem
  split at mem
  · rw [List.drop_left] at mem
    exact List.mem_singleton.mp mem
  · rw [List.drop_length] at mem
    exact absurd mem List.not_mem_nil

/-- Marking changes the nodes and what they have handed out, and nothing
else. -/
theorem maskSub_frame (packetId : UInt16) (iteratorAllocated : Bool) :
    b.maskSub packetId iteratorAllocated =
      { b with
        listSubWaitAck :=
          if iteratorAllocated then
            b.listSubWaitAck.map (UIoTSubInfo.mask packetId)
          else b.listSubWaitAck
        handedOver :=
          if iteratorAllocated then
            b.handedOver ++ (b.carriers packetId).map UIoTSubInfo.address
          else b.handedOver } := by
  cases iteratorAllocated <;> rfl

theorem mem_carriers {b : Books} {packetId : UInt16} {info : UIoTSubInfo} :
    info ∈ b.carriers packetId ↔
      info ∈ b.listSubWaitAck ∧ info.msgId = packetId := by
  simp [carriers]

theorem carriers_eq_nil_iff {b : Books} {packetId : UInt16} :
    b.carriers packetId = [] ↔ b.NoCarrier packetId := by
  simp [carriers, NoCarrier]

/-- Without a carrier nothing is marked or handed over. -/
theorem maskSub_of_noCarrier {b : Books} {packetId : UInt16}
    {iteratorAllocated : Bool}
    (none : iteratorAllocated = true → b.NoCarrier packetId) :
    b.maskSub packetId iteratorAllocated = b ∧
      ∀ initial,
        b.maskedHandler packetId initial iteratorAllocated = initial := by
  cases iteratorAllocated with
  | false => exact ⟨rfl, fun _ => rfl⟩
  | true =>
      have nothing := carriers_eq_nil_iff.mpr (none rfl)
      have nodes : b.listSubWaitAck.map (UIoTSubInfo.mask packetId) =
          b.listSubWaitAck := by
        rw [List.map_congr_left (g := id)]
        · exact List.map_id _
        · exact fun info listed => if_neg (none rfl info listed)
      constructor
      · rw [maskSub_frame, if_pos rfl, if_pos rfl, nodes, nothing,
          List.map_nil, List.append_nil]
      · intro initial
        rw [maskedHandler, if_pos rfl, nothing]
        rfl

/-- Installing a handler touches slots, events and strings only. -/
theorem install_frame (packetId : UInt16) (subHandle : SubTopicHandle)
    (nack : Bool) :
    ∃ subHandles events freed,
      b.install packetId subHandle nack =
        { b with subHandles, events, freed } := by
  unfold install
  split
  · exact ⟨_, _, _, rfl⟩
  split
  · exact ⟨_, _, _, rfl⟩
  split <;> exact ⟨_, _, _, rfl⟩

/-- The events of an installation: none, a refusal, or a success once a slot
holds the handler. -/
theorem install_events (packetId : UInt16) (subHandle : SubTopicHandle)
    (nack : Bool) :
    let after := b.install packetId subHandle nack
    after.events = b.events ∨
      after.events = (b.raise (.subscribeNack packetId)).events ∨
      after.events = (b.raise (.subscribeSuccess packetId)).events := by
  unfold install
  split
  · exact .inl rfl
  split
  · exact .inr (.inl rfl)
  split
  · exact .inr (.inr rfl)
  · exact .inl rfl
  · exact .inr (.inr rfl)

/-- Without a filter nothing is installed. -/
theorem install_of_none {subHandle : SubTopicHandle}
    (missing : subHandle.topicFilter = none) (packetId : UInt16) (nack : Bool) :
    b.install packetId subHandle nack = b :=
  if_pos missing

/-- The nodes after a SUBACK are the marked ones. -/
theorem suback_listSubWaitAck (packet : SubackPacket)
    (iteratorAllocated : Bool) :
    (b.suback packet iteratorAllocated).listSubWaitAck =
      (b.maskSub packet.packetId iteratorAllocated).listSubWaitAck := by
  obtain ⟨_, _, _, installed⟩ := install_frame
    (b.maskSub packet.packetId iteratorAllocated) packet.packetId
    (b.maskedHandler packet.packetId .zero iteratorAllocated) (subNack packet)
  rw [suback, installed]

/-- A SUBACK touches neither the publishes nor the heap. -/
theorem suback_frame (packet : SubackPacket) (iteratorAllocated : Bool) :
    (b.suback packet iteratorAllocated).listPubWaitAck = b.listPubWaitAck ∧
      (b.suback packet iteratorAllocated).heapTop = b.heapTop := by
  obtain ⟨_, _, _, installed⟩ := install_frame
    (b.maskSub packet.packetId iteratorAllocated) packet.packetId
    (b.maskedHandler packet.packetId .zero iteratorAllocated) (subNack packet)
  rw [suback, installed, maskSub_frame]
  exact ⟨rfl, rfl⟩

/-- The events of a SUBACK. -/
theorem suback_events (packet : SubackPacket) (iteratorAllocated : Bool) :
    let after := b.suback packet iteratorAllocated
    after.events = b.events ∨
      after.events = (b.raise (.subscribeNack packet.packetId)).events ∨
      after.events = (b.raise (.subscribeSuccess packet.packetId)).events := by
  have installed := install_events
    (b.maskSub packet.packetId iteratorAllocated) packet.packetId
    (b.maskedHandler packet.packetId .zero iteratorAllocated) (subNack packet)
  rw [maskSub_frame] at installed
  rw [suback, maskSub_frame]
  exact installed

/-- An UNSUBACK touches neither the publishes nor the heap and raises its
event. -/
theorem unsuback_frame (packetId : UInt16) (staleHandle : SubTopicHandle)
    (iteratorAllocated : Bool) :
    let after := b.unsuback packetId staleHandle iteratorAllocated
    after.listPubWaitAck = b.listPubWaitAck ∧ after.heapTop = b.heapTop ∧
      after.events = (b.raise (.unsubscribeSuccess packetId)).events := by
  intro after
  unfold after unsuback
  rw [maskSub_frame]
  exact ⟨rfl, rfl, rfl⟩

end Fields

/-- Only events that are about no request have been added. -/
def Kept (b after : Books) : Prop :=
  ∃ more, after = { b with events := b.events ++ more } ∧
    ∀ event ∈ more, event.isRequestEvent = false

theorem Kept.refl (b : Books) : b.Kept b := ⟨[], by simp, by simp⟩

theorem Kept.of_eq {b after : Books} (equal : after = b) : b.Kept after :=
  equal ▸ Kept.refl b

theorem Kept.trans {first second third : Books}
    (left : first.Kept second) (right : second.Kept third) :
    first.Kept third := by
  obtain ⟨more, rfl, others⟩ := left
  obtain ⟨evenMore, rfl, rest⟩ := right
  refine ⟨more ++ evenMore, by simp, ?_⟩
  intro event mem
  rcases List.mem_append.mp mem with mem | mem
  · exact others event mem
  · exact rest event mem

/-- An event that is about no request. -/
theorem Kept.raise (b : Books) {event : MQTTEvent}
    (other : event.isRequestEvent = false) :
    b.Kept (b.raise event) := by
  unfold Books.raise
  cases handler : b.eventHandler with
  | true => exact ⟨[event], by simp [handler], by simpa using other⟩
  | false => exact ⟨[], by simp [handler], by simp⟩

end Books

/-! ## Packets -/

/-- What a cycle has received, as far as the books are concerned. -/
inductive Received
  | puback (packetId : UInt16)
  | suback (packet : SubackPacket)
  | unsuback (packetId : UInt16)
  | other
  deriving DecidableEq

/-- What a packet of a type is once it is decoded. -/
def decoded (memory : Memory) (type : MessageTypes) : Received :=
  match type with
  | .puback =>
      match (deserializeAckPacket memory uiotMqttRxBufLen).2 with
      | .ok ack => .puback ack.packetId
      | .error _ => .other
  | .suback =>
      match (deserializeSubackPacket memory uiotMqttRxBufLen 1).ret with
      | .ok packet => .suback packet
      | .error _ => .other
  | .unsuback =>
      match (deserializeUnsubackPacket memory uiotMqttRxBufLen).2 with
      | .ok packetId => .unsuback packetId
      | .error _ => .other
  | _ => .other

/-- What a cycle receives. -/
def Client.received (c : Client) (env : CycleEnv) : Received :=
  match (readCycle c env).2 with
  | .error _ => .other
  | .ok packetType =>
      match receivedType packetType with
      | none => .other
      | some type => decoded (readCycle c env).1.readBuf type

/-- What the books become through a packet. -/
def Books.Receives (b after : Books) (env : CycleEnv) : Received → Prop
  | .puback packetId => after = b.puback packetId env.iteratorAllocated
  | .suback packet => after = b.suback packet env.iteratorAllocated
  | .unsuback packetId =>
      after = b.unsuback packetId env.staleHandle env.iteratorAllocated
  | .other => b.Kept after

theorem sendMqttPacket_books (c : Client) (length : Nat)
    (writes : List WriteOutcome) :
    (sendMqttPacket c length writes).1.books = c.books := by
  unfold sendMqttPacket
  split <;> rfl

theorem sendAnswer_books (c : Client) (packetType : MessageTypes)
    (packetId : UInt16) (writes : List WriteOutcome) :
    (sendAnswer c packetType packetId writes).1.books = c.books := by
  unfold sendAnswer
  dsimp only
  split
  · rfl
  · exact sendMqttPacket_books ..

theorem deliverMessage_kept (c : Client) (before : UInt8)
    (message : MQTTMessage) :
    c.books.Kept (deliverMessage c before message).books := by
  unfold deliverMessage
  dsimp only
  split
  · exact .refl _
  · exact Books.Kept.raise _ rfl

theorem handlePublishPacket_kept (c : Client) (env : CycleEnv) :
    c.books.Kept (handlePublishPacket c env).1.books := by
  unfold handlePublishPacket
  split
  · exact .refl _
  · dsimp only
    split
    · exact deliverMessage_kept ..
    · rw [sendAnswer_books]
      exact deliverMessage_kept ..

theorem handlePubrecPacket_books (c : Client) (env : CycleEnv) :
    (handlePubrecPacket c env).1.books = c.books := by
  unfold handlePubrecPacket
  split
  · rfl
  · exact sendAnswer_books ..

theorem notePacket_books (c : Client) (type : MessageTypes) :
    (notePacket c type).books = c.books := by
  cases type <;> rfl

theorem maskSubInfoFrom_eq (c : Client) (packetId : UInt16)
    (initial : SubTopicHandle) (iteratorAllocated : Bool) :
    (maskSubInfoFrom c packetId initial iteratorAllocated).1.books =
        c.books.maskSub packetId iteratorAllocated ∧
      (maskSubInfoFrom c packetId initial iteratorAllocated).2 =
        c.books.maskedHandler packetId initial iteratorAllocated := by
  cases iteratorAllocated <;> exact ⟨rfl, rfl⟩

theorem installHandle_books (c : Client) (packetId : UInt16)
    (subHandle : SubTopicHandle) (subNack : Bool) :
    (installHandle c packetId subHandle subNack).1.books =
      c.books.install packetId subHandle subNack := by
  have sameSlots : c.books.subHandles = c.subHandles := rfl
  unfold installHandle Books.install
  split
  · rfl
  split
  · rfl
  rw [sameSlots]
  rcases scanHandles c.subHandles subHandle (List.finRange maxSubTopics) none
    with ⟨_ | _, _ | i⟩ <;> rfl

/-- A handler of an acknowledgement does to the books what the decoded packet
says. -/
theorem handlePacket_receives (c : Client) (type : MessageTypes)
    (env : CycleEnv) :
    c.books.Receives (handlePacket c type env).1.books env
      (decoded c.readBuf type) := by
  cases type with
  | puback =>
      simp only [handlePacket, handlePubackPacket, decoded]
      cases (deserializeAckPacket c.readBuf uiotMqttRxBufLen).2 with
      | error ret => exact Books.Kept.refl _
      | ok ack =>
          show _ = _
          cases env.iteratorAllocated <;> rfl
  | suback =>
      simp only [handlePacket, handleSubackPacket, decoded]
      cases (deserializeSubackPacket c.readBuf uiotMqttRxBufLen 1).ret with
      | error ret => exact Books.Kept.refl _
      | ok packet =>
          have masked := maskSubInfoFrom_eq (c.lock .generic) packet.packetId
            .zero env.iteratorAllocated
          show _ = _
          rw [installHandle_books, masked.1, masked.2]
          rfl
  | unsuback =>
      simp only [handlePacket, handleUnsubackPacket, decoded]
      cases (deserializeUnsubackPacket c.readBuf uiotMqttRxBufLen).2 with
      | error ret => exact Books.Kept.refl _
      | ok packetId =>
          have masked := maskSubInfoFrom_eq c packetId env.staleHandle
            env.iteratorAllocated
          show _ = _
          rw [Books.unsuback, ← masked.1, ← masked.2]
          rfl
  | publish => exact handlePublishPacket_kept c env
  | pubrec => exact .of_eq (handlePubrecPacket_books c env)
  | _ => exact Books.Kept.refl _

/-- A cycle does to the books what the packet it receives says. -/
theorem cycleForRead_receives (c : Client) (packetType : UInt8)
    (env : CycleEnv) :
    c.books.Receives (cycleForRead c packetType env).1.books env
      (c.received env) := by
  have sameBooks : (readCycle c env).1.books = c.books := rfl
  unfold cycleForRead Client.received
  rw [← sameBooks]
  generalize readCycle c env = read
  obtain ⟨c, ret | packetType⟩ := read
  · dsimp only
    split <;> simp_all <;> exact Books.Kept.refl _
  · dsimp only
    cases receivedType packetType with
    | none => exact Books.Kept.refl _
    | some type =>
        dsimp only
        rw [notePacket_books]
        exact handlePacket_receives c type env

end Mqtt
end UIoT
