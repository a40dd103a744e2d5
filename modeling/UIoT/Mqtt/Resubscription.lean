import UIoT.Mqtt.HandleTable
import UIoT.Mqtt.Sessions

/-!
# Subscribing again after a reconnect

A connected client has sent a SUBSCRIBE on its connection for every occupied
slot, provided no request of a reconnect fails: the first one that does ends
the reconnect with an error, on a client that is connected and for which no
later pass subscribes to anything.
-/

namespace UIoT
namespace Mqtt

/-! ## What has been subscribed to -/

/-- A SUBSCRIBE with the filter and service level of the handle is among the
bytes; nothing is asked for a handle without a filter. -/
def SubscribeSent (output : List UInt8) (handle : SubTopicHandle) : Prop :=
  ∀ topic, handle.topicFilter = some topic →
    ∃ (packet : WirePacket) (packetId : UInt16),
      packet.HasType .subscribe ∧
        packet.body = subscribeBody handle.qos packetId topic.text ∧
        packet.bytes <:+: output

theorem SubscribeSent.of_isEmpty {output : List UInt8} {handle : SubTopicHandle}
    (empty : handle.topicFilter = none) : SubscribeSent output handle := by
  intro topic occupied
  exact absurd (empty.symm.trans occupied) (by simp)

theorem SubscribeSent.mono {output longer : List UInt8}
    {handle : SubTopicHandle} (sent : SubscribeSent output handle)
    (extends' : output <+: longer) : SubscribeSent longer handle := by
  intro topic occupied
  obtain ⟨packet, packetId, type, body, isInfix⟩ := sent topic occupied
  exact ⟨packet, packetId, type, body, isInfix.trans extends'.isInfix⟩

/-- Where the client is connected, it has subscribed on this connection to what
its slots hold. -/
def Resubscribed (c : Client) : Prop :=
  c.isConnected = true → ∀ i, SubscribeSent c.output (c.subHandles i)

/-- The connection is kept, what was sent stays in front, and slots are at most
emptied. -/
structure Client.Extends (c after : Client) : Prop where
  isConnected : after.isConnected = c.isConnected
  output : c.output <+: after.output
  subHandles : ∀ i,
    after.subHandles i = c.subHandles i ∨
      (after.subHandles i).topicFilter = none

namespace Client.Extends

variable {c after : Client}

theorem refl (c : Client) : c.Extends c :=
  ⟨rfl, List.prefix_refl _, fun _ => .inl rfl⟩

theorem of_sends {kind : Sending → Prop} (sends : Client.Sends kind c after)
    (subHandles : after.subHandles = c.subHandles) : c.Extends after :=
  ⟨sends.isConnected, sends.isPrefix, fun i => .inl (congrFun subHandles i)⟩

theorem resubscribed (extends' : c.Extends after)
    (resubscribed : Resubscribed c) : Resubscribed after := by
  intro connected i
  rcases extends'.subHandles i with same | empty
  · rw [same]
    exact (resubscribed (extends'.isConnected.symm.trans connected) i).mono
      extends'.output
  · exact .of_isEmpty empty

end Client.Extends

/-! ## Requests -/

theorem sendMqttPacket_extends (c : Client) (len : Nat)
    (writes : List WriteOutcome) :
    c.Extends (sendMqttPacket c len writes).1 := by
  rw [sendMqttPacket_fst]
  exact ⟨rfl, List.prefix_append .., fun _ => .inl rfl⟩

theorem publishSerialized_extends (c : Client) (len : Nat) (id : UInt16)
    (qos : QoS) (env : RequestEnv) :
    c.Extends (publishSerialized c len id qos env).1 := by
  unfold publishSerialized
  split
  · have sends := sendMqttPacket_extends c len env.writes
    split <;> rename_i send <;> rw [send] at sends <;>
      exact ⟨sends.isConnected, sends.output, sends.subHandles⟩
  · rcases maskPushPubInfoTo_cases c len id env with
      ⟨-, pushed⟩ | ⟨-, ret, refused⟩
    · rw [pushed]
      have sends := sendMqttPacket_extends
        { c with
          listPubWaitAck := c.listPubWaitAck ++ [c.pubInfo id]
          heapTop := c.heapTop + 1 } len env.writes
      dsimp only at sends ⊢
      split <;> rename_i send <;> rw [send] at sends <;>
        exact ⟨sends.isConnected, sends.output, sends.subHandles⟩
    · rw [refused]
      exact ⟨rfl, List.prefix_refl _, fun _ => .inl rfl⟩

/-- However long its payload is, a publish only adds to what was sent. -/
theorem uiotMqttPublish_extends (c : Client) (topicName : CString)
    (params : PublishParams) (env : RequestEnv) :
    c.Extends (uiotMqttPublish c topicName params env).1 := by
  rcases requestChecked_cases c topicName params.qos
      (publishChecked c topicName params env) with
    ⟨-, publish⟩ | ⟨-, ret, refused⟩
  · rw [show uiotMqttPublish c topicName params env = _ from publish]
    have start : c.Extends (if params.qos = .qos1 then
        getNextPacketId (c.lock .writeBuf) else c.lock .writeBuf) := by
      split <;> exact ⟨rfl, List.prefix_refl _, fun _ => .inl rfl⟩
    unfold publishChecked
    dsimp only
    generalize (if params.qos = .qos1 then getNextPacketId (c.lock .writeBuf)
      else c.lock .writeBuf) = numbered at start ⊢
    split
    · exact ⟨start.isConnected, start.output, start.subHandles⟩
    · rename_i memory len answered
      have rest := publishSerialized_extends
        { numbered with writeBuf := memory } len
        (if params.qos = .qos1 then numbered.nextPacketId else params.id)
        params.qos env
      refine ⟨rest.isConnected.trans start.isConnected,
        start.output.trans rest.output, fun i => ?_⟩
      rcases rest.subHandles i with same | empty
      · rw [same]
        exact start.subHandles i
      · exact .inr empty
  · rw [show uiotMqttPublish c topicName params env = _ from refused]
    exact .refl c

theorem uiotMqttSubscribe_extends (c : Client) (topicFilter : CString)
    (params : SubscribeParams) (env : RequestEnv) :
    c.Extends (uiotMqttSubscribe c topicFilter params env).1 := by
  have sends := uiotMqttSubscribe_sends c topicFilter params env
  rcases uiotMqttSubscribe_cases c topicFilter params env with
    ⟨-, -, slots, -⟩ | ⟨-, -, slots, -⟩
  · exact .of_sends sends slots
  · exact .of_sends sends slots

theorem uiotMqttUnsubscribe_extends (c : Client) (topicFilter : CString)
    (env : RequestEnv) :
    c.Extends (uiotMqttUnsubscribe c topicFilter env).1 := by
  have sends := uiotMqttUnsubscribe_sends c topicFilter env
  refine ⟨sends.isConnected, sends.isPrefix, fun i => ?_⟩
  rcases uiotMqttUnsubscribe_cases c topicFilter env with
    ⟨-, -, slots, -⟩ | ⟨-, ⟨-, -, slots⟩ | ⟨-, same⟩, -⟩
  · rw [slots, clearedHandles]
    split
    · exact .inr rfl
    · exact .inl rfl
  · rw [slots, clearedHandles]
    split
    · exact .inr rfl
    · exact .inl rfl
  · rw [same]
    exact .inl rfl

/-! ## A subscription that succeeds -/

/-- The length of the SUBSCRIBE for one filter. -/
def subscribeLen (topicFilter : CString) : Nat :=
  1 + (mqttWritePacketRemLen (topicFilter.bytes.length + 5)).length +
    (topicFilter.bytes.length + 5)

/-- Nothing but the connection and the room on the waiting list can keep the
request from being sent. -/
structure Subscribable (topicFilter : CString) (qos : QoS) (env : RequestEnv) :
    Prop where
  filter : topicFilter.bytes ≠ []
  short : topicFilter.bytes.length ≤ maxSizeOfCloudTopic
  level : qos ≠ .qos2
  storedAllocated : env.storedAllocated = true
  infoAllocated : env.infoAllocated = true
  nodeAllocated : env.nodeAllocated = true
  completes : Completes (subscribeLen topicFilter) env.writes

/-- A short filter is serialised. -/
theorem subscribePacket_ok (buf : Memory) (qos : QoS) (packetId : UInt16)
    {topicFilter : CString}
    (short : topicFilter.bytes.length ≤ maxSizeOfCloudTopic) :
    ∃ (memory : Memory) (packet : WirePacket),
      subscribePacket qos buf packetId topicFilter =
          .ok (memory, subscribeLen topicFilter) ∧
        packet.HasType .subscribe ∧
        packet.body = subscribeBody qos packetId topicFilter ∧
        HoldsPacket memory (subscribeLen topicFilter) packet := by
  unfold maxSizeOfCloudTopic at short
  cases answered : subscribePacket qos buf packetId topicFilter with
  | error ret =>
      let behind : Nat → CString := fun _ => topicFilter
      have fits : ¬getMqttPacketLen
          (getSubscribePacketRemLen behind 1 [topicFilter]) >
            uiotMqttTxBufLen := by
        have small : getSubscribePacketRemLen behind 1 [topicFilter] =
            topicFilter.bytes.length + 5 := by
          simp [getSubscribePacketRemLen, topicFilterAt]
          omega
        rw [small]
        unfold getMqttPacketLen uiotMqttTxBufLen
        dsimp only
        split
        · omega
        split
        · omega
        split <;> omega
      unfold subscribePacket serializeSubscribePacket at answered
      dsimp only at answered
      rw [if_neg fits] at answered
      exact absurd answered (by simp [mqttInitPacketHeader])
  | ok answer =>
      obtain ⟨memory, len⟩ := answer
      obtain ⟨packet, type, body, holds⟩ :=
        subscribePacket_holds (by omega) answered
      have len_eq : len = subscribeLen topicFilter := by
        have bodyLen : packet.body.length = topicFilter.bytes.length + 5 := by
          rw [body]
          simp [subscribeBody]
          omega
        rw [holds.length_eq, packet.length_bytes, WirePacket.lengthBytes,
          bodyLen, subscribeLen]
      subst len_eq
      exact ⟨memory, packet, rfl, type, body, holds⟩

/-- A request that can be sent is tracked. -/
theorem Subscribable.tracked {c : Client} {topicFilter : CString}
    {params : SubscribeParams} {env : RequestEnv}
    (subscribable : Subscribable topicFilter params.qos env)
    (connected : c.isConnected = true)
    (room : c.listSubWaitAck.length < maxSubTopics) :
    SubscribeTracked c topicFilter params env := by
  obtain ⟨memory, packet, answered, -⟩ := subscribePacket_ok c.writeBuf
    params.qos (nextId c.nextPacketId) subscribable.short
  exact ⟨⟨subscribable.filter, subscribable.short, subscribable.level,
    connected⟩, subscribable.storedAllocated, _, answered,
    ⟨room, subscribable.infoAllocated, subscribable.nodeAllocated⟩,
    subscribable.completes⟩

/-- A request with room for its node and writes that complete puts all its
bytes on the connection. -/
theorem requestSerialized_output {c : Client} {len : Nat} (packetId : UInt16)
    (type : MessageTypes) (handler : SubTopicHandle) (env : RequestEnv)
    (room : SubRoom c env) (completes : Completes len env.writes) :
    (requestSerialized c len packetId type handler env).1.output =
      c.output ++ c.writeBuf.slice 0 len := by
  have pushed := (pushSubInfoTo_cases c packetId type handler env).resolve_right
    fun refused => refused.1 room
  rw [requestSerialized, pushed.2]
  have success := (sendMqttPacket_ret
    { c with
      listSubWaitAck := c.listSubWaitAck ++ [c.subInfo packetId type handler]
      heapTop := c.heapTop + 1 } len env.writes).mpr completes
  have sent := congrArg Client.output (sendMqttPacket_fst
    { c with
      listSubWaitAck := c.listSubWaitAck ++ [c.subInfo packetId type handler]
      heapTop := c.heapTop + 1 } len env.writes)
  rw [sentCount_of_completes completes] at sent
  dsimp only at sent ⊢
  split
  · rename_i send
    rw [send] at sent
    exact sent
  · rename_i different send
    rw [send] at success
    exact absurd success different

/-- A tracked subscription has put its SUBSCRIBE on the connection. -/
theorem uiotMqttSubscribe_sent {c : Client} {topicFilter : CString}
    {params : SubscribeParams} {env : RequestEnv}
    (tracked : SubscribeTracked c topicFilter params env) :
    ∃ (packet : WirePacket) (packetId : UInt16),
      packet.HasType .subscribe ∧
        packet.body = subscribeBody params.qos packetId topicFilter ∧
        packet.bytes <:+: (uiotMqttSubscribe c topicFilter params env).1.output
      := by
  obtain ⟨⟨filter, short, level, connected⟩, stored, answer, answered,
    ⟨room, info, node⟩, completes⟩ := tracked
  obtain ⟨memory, packet, serialized, type, body, holds⟩ := subscribePacket_ok
    c.writeBuf params.qos (nextId c.nextPacketId) short
  obtain rfl := Except.ok.inj (answered.symm.trans serialized)
  refine ⟨packet, nextId c.nextPacketId, type, body, ?_⟩
  let prepared : Client :=
    { getNextPacketId ((storeFilter c topicFilter).1.lock .writeBuf) with
      writeBuf := memory }
  let handler : SubTopicHandle :=
    ⟨some ⟨c.heapTop, topicFilter⟩, params.onMessageHandler, params.userData,
      params.qos⟩
  have request : uiotMqttSubscribe c topicFilter params env =
      requestSerialized prepared (subscribeLen topicFilter)
        (nextId c.nextPacketId) .subscribe handler env := by
    rw [uiotMqttSubscribe, if_neg filter, if_neg (Nat.not_lt.mpr short),
      if_neg level, connected]
    simp only [Bool.not_true, Bool.false_eq_true, if_false, subscribeChecked,
      requestStored, stored, storeFilter, getNextPacketId, Client.lock,
      serialized, prepared, handler]
  have bytes := requestSerialized_output (c := prepared)
    (nextId c.nextPacketId) .subscribe handler env ⟨room, info, node⟩
    completes
  rw [request, bytes, show prepared.writeBuf.slice 0 _ = packet.bytes from
    holds]
  exact (List.suffix_append ..).isInfix

/-! ## Subscribing again -/

/-- The requests for the occupied slots find room behind those still waiting,
and nothing else keeps one of them from being sent. -/
def CanResubscribe (c : Client) (envs : Fin maxSubTopics → RequestEnv) : Prop :=
  c.listSubWaitAck.length +
      (occupiedSlots c.subHandles (List.finRange maxSubTopics)).length ≤
    maxSubTopics ∧
  ∀ i topic, (c.subHandles i).topicFilter = some topic →
    Subscribable topic.text (c.subHandles i).qos (envs i)

/-- The loop sends a SUBSCRIBE for each of the slots it goes through. -/
theorem resubscribeLoop_sent (envs : Fin maxSubTopics → RequestEnv)
    (slots : List (Fin maxSubTopics)) {c : Client}
    (connected : c.isConnected = true)
    (room : c.listSubWaitAck.length +
      (occupiedSlots c.subHandles slots).length ≤ maxSubTopics)
    (subscribable : ∀ i topic, (c.subHandles i).topicFilter = some topic →
      Subscribable topic.text (c.subHandles i).qos (envs i)) :
    let after := (resubscribeLoop envs slots c).1
    c.Extends after ∧ ∀ i ∈ slots, SubscribeSent after.output (c.subHandles i)
      := by
  induction slots generalizing c with
  | nil => exact ⟨.refl c, by simp⟩
  | cons i slots inductionHypothesis =>
      intro after
      cases occupied : (c.subHandles i).topicFilter with
      | none =>
          have after_eq : after = (resubscribeLoop envs slots c).1 :=
            congrArg Prod.fst (resubscribeLoop_empty envs slots occupied)
          rw [occupiedSlots, List.filter_cons_of_neg (by simp [occupied])]
            at room
          obtain ⟨extends', sent⟩ :=
            inductionHypothesis connected room subscribable
          rw [after_eq]
          exact ⟨extends', List.forall_mem_cons.mpr
            ⟨.of_isEmpty occupied, sent⟩⟩
      | some topic =>
          rw [occupiedSlots, List.filter_cons_of_pos (by simp [occupied]),
            List.length_cons] at room
          change _ + ((occupiedSlots c.subHandles slots).length + 1) ≤ _
            at room
          let params : SubscribeParams := ⟨(c.subHandles i).qos,
            (c.subHandles i).messageHandler,
            (c.subHandles i).messageHandlerData⟩
          have tracked : SubscribeTracked c topic.text params (envs i) :=
            (subscribable i topic occupied).tracked connected (by omega)
          obtain ⟨-, tracks, slotsKept, ret⟩ :=
            (uiotMqttSubscribe_cases c topic.text params (envs i)).resolve_right
              fun untracked => untracked.1 tracked
          have extends' := uiotMqttSubscribe_extends c topic.text params (envs i)
          have sent := uiotMqttSubscribe_sent tracked
          generalize requested : uiotMqttSubscribe c topic.text params
            (envs i) = result at tracks slotsKept ret extends' sent
          obtain ⟨next, answer⟩ := result
          obtain rfl : answer = .ok _ := ret
          have after_eq : after = (resubscribeLoop envs slots next).1 :=
            congrArg Prod.fst
              (resubscribeLoop_subscribed envs slots occupied requested)
          rw [after_eq]
          have nextHandles : next.subHandles = c.subHandles := slotsKept
          have nodes : next.listSubWaitAck = c.listSubWaitAck ++
            [c.subscribeInfo topic.text params] := tracks.listSubWaitAck
          obtain ⟨restExtends, restSent⟩ := inductionHypothesis (c := next)
            (extends'.isConnected.trans connected)
            (by rw [nodes, nextHandles, List.length_append,
                  List.length_singleton]
                omega)
            (by rw [nextHandles]
                exact subscribable)
          rw [nextHandles] at restSent
          refine ⟨⟨restExtends.isConnected.trans extends'.isConnected,
            extends'.output.trans restExtends.output, fun j => ?_⟩,
            List.forall_mem_cons.mpr ⟨?_, restSent⟩⟩
          · rw [← nextHandles]
            exact restExtends.subHandles j
          · have here : SubscribeSent next.output (c.subHandles i) := by
              intro other otherOccupied
              obtain rfl : topic = other :=
                Option.some.inj (occupied.symm.trans otherOccupied)
              exact sent
            exact here.mono restExtends.output

/-- If no request is in the way of another one, the client has subscribed to
what its slots hold. -/
theorem uiotMqttResubscribe_resubscribed {c : Client}
    {envs : Fin maxSubTopics → RequestEnv} (can : CanResubscribe c envs) :
    Resubscribed (uiotMqttResubscribe c envs).1 := by
  unfold uiotMqttResubscribe
  cases connected : c.isConnected with
  | false =>
      intro stillConnected
      exact absurd (connected.symm.trans stillConnected) (by decide)
  | true =>
      intro _ i
      obtain ⟨extends', sent⟩ := resubscribeLoop_sent envs
        (List.finRange maxSubTopics) connected can.1 can.2
      simp only [Bool.not_true, Bool.false_eq_true, if_false]
      rcases extends'.subHandles i with same | empty
      · rw [same]
        exact sent i (List.mem_finRange i)
      · exact .of_isEmpty empty

/-! ## Packets -/

/-- Only the handle of a node that a SUBACK acknowledges gets into a slot. -/
theorem cycleForRead_subHandles (c : Client) (packetType : UInt8)
    (env : CycleEnv) :
    let after := (cycleForRead c packetType env).1
    after.subHandles = c.subHandles ∨
      ∃ packet info i, c.received env = .suback packet ∧
        Books.subNack packet = false ∧ info ∈ c.listSubWaitAck ∧
        info.msgId = packet.packetId ∧
        after.subHandles = Function.update c.subHandles i info.handler := by
  intro after
  have receives := cycleForRead_receives c packetType env
  generalize c.received env = received at receives
  cases received with
  | puback packetId =>
      have books : after.books = _ := receives
      exact .inl (congrArg Books.subHandles books)
  | unsuback packetId =>
      have books : after.books = _ := receives
      refine .inl ((congrArg Books.subHandles books).trans ?_)
      simp [Books.unsuback, Books.maskSub_frame, Books.free, Books.raise,
        Client.books]
  | other =>
      obtain ⟨_, books, -⟩ := receives
      exact .inl (congrArg Books.subHandles books)
  | suback packet =>
      have books : after.books = c.books.suback packet env.iteratorAllocated :=
        receives
      have installs := Books.install_installs
        (c.books.maskSub packet.packetId env.iteratorAllocated) packet.packetId
        (c.books.maskedHandler packet.packetId .zero env.iteratorAllocated)
        (Books.subNack packet)
      have masked : (c.books.maskSub packet.packetId
          env.iteratorAllocated).subHandles = c.subHandles := by
        rw [Books.maskSub_frame]
        rfl
      have slots : after.subHandles = (c.books.suback packet
        env.iteratorAllocated).subHandles := congrArg Books.subHandles books
      rw [Books.suback] at slots
      generalize nackEq : Books.subNack packet = nack at installs slots
      generalize Books.install _ packet.packetId _ nack = installed
        at installs slots
      cases installs with
      | missing filter => exact .inl (slots.trans masked)
      | refused filter => exact .inl (slots.trans masked)
      | known filter identical => exact .inl (slots.trans masked)
      | full filter different occupied => exact .inl (slots.trans masked)
      | @added i filter different unoccupied =>
          rcases c.books.maskedHandler_cases packet.packetId .zero
              env.iteratorAllocated with
            ⟨-, initial⟩ | ⟨info, mem, carries, handler⟩
          · rw [initial] at filter
            exact absurd rfl filter
          · refine .inr ⟨packet, info, i, rfl, nackEq, mem, carries, ?_⟩
            rw [slots, ← handler, ← masked]
            rfl

/-- The request a SUBACK acknowledges was sent on the connection. -/
def AcksSent (c : Client) (env : CycleEnv) : Prop :=
  ∀ packet, c.received env = .suback packet →
    Books.subNack packet = false →
      ∀ info ∈ c.listSubWaitAck, info.msgId = packet.packetId →
        SubscribeSent c.output info.handler

theorem cycleForRead_resubscribed {c : Client} (packetType : UInt8)
    {env : CycleEnv} (resubscribed : Resubscribed c) (acks : AcksSent c env) :
    Resubscribed (cycleForRead c packetType env).1 := by
  have sends := cycleForRead_sends c packetType env
  have slots := cycleForRead_subHandles c packetType env
  generalize (cycleForRead c packetType env).1 = after at sends slots ⊢
  intro connected i
  have before := resubscribed (sends.isConnected.symm.trans connected)
  rcases slots with same | ⟨packet, info, slot, received, positive, mem,
    carries, updated⟩
  · rw [same]
    exact (before i).mono sends.isPrefix
  · rw [updated]
    rcases eq_or_ne i slot with rfl | different
    · rw [Function.update_self]
      exact (acks packet received positive info mem carries).mono
        sends.isPrefix
    · rw [Function.update_of_ne different]
      exact (before i).mono sends.isPrefix

/-! ## Passes -/

theorem Books.Kept.subHandles {b after : Books} (kept : b.Kept after) :
    after.subHandles = b.subHandles := by
  obtain ⟨_, rfl, -⟩ := kept
  rfl

/-- What follows a cycle leaves the slots alone. -/
theorem afterCycle_subHandles (c : Client) (ret : IoTError) (env : YieldEnv) :
    (afterCycle c ret env).1.subHandles = c.subHandles := by
  have pub : ∀ c : Client, (uiotMqttPubInfoProc c
      env.pubIteratorAllocated).subHandles = c.subHandles := fun c =>
    pubWaitAck.infoProc_eq_of_kept Client.subHandles (fun _ _ => rfl)
      (fun _ _ => rfl) (fun _ _ => rfl) (fun _ _ => rfl) _ c _
  have sub : ∀ c : Client, (uiotMqttSubInfoProc c
      env.subIteratorAllocated).subHandles = c.subHandles := fun c =>
    subWaitAck.infoProc_eq_of_kept Client.subHandles (fun _ _ => rfl)
      (fun _ _ => rfl) (fun _ _ => rfl) (fun _ _ => rfl) _ c _
  unfold afterCycle
  split
  · calc
      _ = (uiotMqttSubInfoProc (uiotMqttPubInfoProc c env.pubIteratorAllocated)
            env.subIteratorAllocated).subHandles :=
          (mqttKeepAlive_kept ..).subHandles
      _ = c.subHandles := by rw [sub, pub]
  split
  · exact (handleDisconnect_kept c env.disconnectWrites).subHandles
  split <;> rfl

theorem afterCycle_resubscribed {c : Client} (ret : IoTError) (env : YieldEnv)
    (resubscribed : Resubscribed c) :
    Resubscribed (afterCycle c ret env).1 := by
  rcases afterCycle_cases c ret env with kept | ⟨sent, -, lost⟩
  · exact (Client.Extends.of_sends kept
      (afterCycle_subHandles c ret env)).resubscribed resubscribed
  · intro connected
    rw [lost, (handleDisconnect_cases sent env.disconnectWrites).1,
      (uiotMqttDisconnect_cases sent env.disconnectWrites).1] at connected
    exact absurd connected (by decide)

/-- Whatever a reconnect subscribes to can be subscribed to, where its
connection is accepted. -/
def ReconnectCovers (c : Client) (env : ReconnectEnv) : Prop :=
  let after := (uiotMqttConnect c c.options env.connect).1
  after.isConnected = true → CanResubscribe after env.requests

theorem uiotMqttAttemptReconnect_resubscribed {c : Client} {env : ReconnectEnv}
    (disconnected : c.isConnected = false) (covers : ReconnectCovers c env) :
    Resubscribed (uiotMqttAttemptReconnect c env).1 := by
  unfold ReconnectCovers at covers
  unfold uiotMqttAttemptReconnect
  rw [disconnected, if_neg (by decide)]
  generalize uiotMqttConnect c c.options env.connect = attempt at covers ⊢
  obtain ⟨next, ret⟩ := attempt
  cases connected : next.isConnected with
  | false =>
      intro stillConnected
      simp only [connected, Bool.not_false, if_true] at stillConnected
      exact absurd stillConnected (by decide)
  | true =>
      have resubscribed :=
        uiotMqttResubscribe_resubscribed (covers connected)
      simp only [connected, Bool.not_true, Bool.false_eq_true, if_false]
      split <;> rename_i sent <;> rw [sent] at resubscribed <;>
        exact resubscribed

/-! ## Calls -/

/-- There is nothing to subscribe to and nothing that could be
acknowledged. -/
def SubscribesToNothing (c : Client) : Prop :=
  c.listSubWaitAck = [] ∧ ∀ i, (c.subHandles i).topicFilter = none

theorem SubscribesToNothing.of_books {c after : Client}
    (nothing : SubscribesToNothing c) (books : after.books = c.books) :
    SubscribesToNothing after := by
  have nodes : after.listSubWaitAck = c.listSubWaitAck :=
    congrArg Books.listSubWaitAck books
  have slots : after.subHandles = c.subHandles := congrArg Books.subHandles books
  refine ⟨nodes.trans nothing.1, fun i => ?_⟩
  rw [slots]
  exact nothing.2 i

theorem SubscribesToNothing.cycleForRead {c : Client}
    (nothing : SubscribesToNothing c) (packetType : UInt8) (env : CycleEnv) :
    SubscribesToNothing (cycleForRead c packetType env).1 := by
  have nodes :=
    (cycleForRead_receives c packetType env).addresses.2.1
  rw [show c.books.listSubWaitAck = [] from nothing.1, List.map_nil,
    List.map_eq_nil_iff] at nodes
  refine ⟨nodes, fun i => ?_⟩
  rcases cycleForRead_subHandles c packetType env with
    same | ⟨_, info, _, -, -, mem, -⟩
  · rw [same]
    exact nothing.2 i
  · rw [nothing.1] at mem
    exact absurd mem List.not_mem_nil

theorem SubscribesToNothing.waitForRead {c : Client}
    (nothing : SubscribesToNothing c) (packetType : UInt8)
    (cycles : List CycleEnv) (readPacketType : UInt8) :
    SubscribesToNothing (waitForRead packetType cycles readPacketType c).1 := by
  induction cycles generalizing readPacketType c with
  | nil => exact nothing
  | cons env cycles inductionHypothesis =>
      have next := nothing.cycleForRead readPacketType env
      unfold Mqtt.waitForRead
      dsimp only
      split
      · exact inductionHypothesis next _
      · exact next

/-- A new client is connected with nothing to subscribe to. -/
theorem SubscribesToNothing.uiotMqttConnect {c : Client}
    (nothing : SubscribesToNothing c) (options : MQTTConnectParams)
    (env : ConnectEnv) :
    SubscribesToNothing (uiotMqttConnect c options env).1 := by
  have sends := nothing.of_books (sendConnect_books c options env)
  unfold Mqtt.uiotMqttConnect mqttConnect
  split
  · exact nothing
  split
  · rename_i send
    rw [send] at sends
    have waits := sends.waitForRead MessageTypes.connack.code env.cycles 0
    split
    · rename_i wait
      rw [wait] at waits
      exact waits.of_books (acceptConnection_books _)
    · rename_i wait
      rw [wait] at waits
      exact waits
  · rename_i send
    rw [send] at sends
    exact sends

theorem SubscribesToNothing.resubscribed {c : Client}
    (nothing : SubscribesToNothing c) : Resubscribed c :=
  fun _ i => .of_isEmpty (nothing.2 i)

/-- The conditions under which a call leaves nothing unsubscribed: only a new
client is connected by hand, every request of a reconnect can be sent, and a
request acknowledged on a connection was sent on it. -/
def Call.Covers (c : Client) : Call → Prop
  | .connect _ _ => SubscribesToNothing c
  | .attemptReconnect env => c.isConnected = false → ReconnectCovers c env
  | .pass env =>
      if c.isConnected then
        AcksSent (c.tick env.elapsed) env.cycle
      else
        (c.tick env.elapsed).Attempts →
          ReconnectCovers (c.tick env.elapsed) env.reconnect
  | _ => True

theorem Call.Covers.of_connected {c : Client} {env : YieldEnv}
    (connected : c.isConnected = true)
    (acks : AcksSent (c.tick env.elapsed) env.cycle) :
    (Call.pass env).Covers c := by
  simpa only [Call.Covers, connected, if_true] using acks

theorem Call.Covers.of_disconnected {c : Client} {env : YieldEnv}
    (disconnected : c.isConnected = false)
    (covers : ReconnectCovers (c.tick env.elapsed) env.reconnect) :
    (Call.pass env).Covers c := by
  simpa only [Call.Covers, disconnected, Bool.false_eq_true, if_false]
    using fun _ => covers

theorem yieldPass_resubscribed {c : Client} {env : YieldEnv}
    (resubscribed : Resubscribed c) (covers : (Call.pass env).Covers c) :
    Resubscribed (yieldPass c env).1 := by
  have ticked : Resubscribed (c.tick env.elapsed) := resubscribed
  simp only [Call.Covers] at covers
  cases connected : c.isConnected with
  | true =>
      rw [if_pos connected] at covers
      rw [yieldPass_of_connected env connected]
      have cycled := cycleForRead_resubscribed 0 ticked covers
      generalize cycleForRead (c.tick env.elapsed) 0 env.cycle = cycle
        at cycled ⊢
      have swept := afterCycle_resubscribed cycle.2.1 env cycled
      generalize afterCycle cycle.1 cycle.2.1 env = next at swept ⊢
      have ends := endPass_sends (fun _ => True) next.1 next.2
      have slots := congrArg Books.subHandles (endPass_books next.1 next.2)
      exact (Client.Extends.of_sends ends slots).resubscribed swept
  | false =>
      rw [if_neg (by simp [connected])] at covers
      rcases yieldPass_of_disconnected env connected with
        ⟨-, waits⟩ | ⟨due, attempts⟩
      · rw [waits]
        exact ticked
      · rw [attempts]
        have attempted := uiotMqttAttemptReconnect_resubscribed
          (c := c.tick env.elapsed) connected (covers due)
        generalize uiotMqttAttemptReconnect (c.tick env.elapsed) env.reconnect =
          attempt at attempted ⊢
        have ends := afterAttempt_sends (fun _ => True) attempt.1
          attempt.2
        have slots := (afterAttempt_kept attempt.1 attempt.2).subHandles
        exact (Client.Extends.of_sends ends slots).resubscribed attempted

/-- A call that meets the conditions leaves nothing unsubscribed. -/
theorem Client.call_resubscribed (c : Client) (call : Call)
    (resubscribed : Resubscribed c) (covers : call.Covers c) :
    Resubscribed (c.call call) := by
  cases call with
  | connect options env =>
      exact (covers.uiotMqttConnect options env).resubscribed
  | publish topicName params env =>
      exact (uiotMqttPublish_extends c topicName params env).resubscribed
        resubscribed
  | subscribe topicFilter params env =>
      exact (uiotMqttSubscribe_extends c topicFilter params env).resubscribed
        resubscribed
  | unsubscribe topicFilter env =>
      exact (uiotMqttUnsubscribe_extends c topicFilter env).resubscribed
        resubscribed
  | disconnect writes =>
      intro connected
      rw [Client.call, (uiotMqttDisconnect_cases c writes).1] at connected
      exact absurd connected (by decide)
  | attemptReconnect env =>
      cases connected : c.isConnected with
      | false =>
          exact uiotMqttAttemptReconnect_resubscribed connected
            (covers connected)
      | true =>
          rw [Client.call, uiotMqttAttemptReconnect, connected, if_pos rfl]
          exact resubscribed
  | setAutoreconnect value => exact resubscribed
  | pass env => exact yieldPass_resubscribed resubscribed covers
  | elapse duration => exact resubscribed

/-- In every run whose calls meet the conditions, a connected client has
subscribed on its connection to what its slots hold. -/
theorem run_resubscribed (params : MQTTInitParams) (clock : Nat)
    (calls : List Call)
    (covers : Machine.Along Client.call (fun c call => call.Covers c)
      (uiotMqttInit params clock) calls) :
    Resubscribed (Machine.run Client.call (uiotMqttInit params clock) calls) :=
  covers.run_preserves Resubscribed Client.call_resubscribed
    (fun connected => absurd connected (by simp [uiotMqttInit]))

/-- A subscription whose connection is lost and accepted again; what the
request of the reconnect gets is an argument. -/
def losingConnection (requests : RequestEnv) : List Call :=
  [.connect { plainOptions with keepAliveInterval := 0 } acceptedConnect,
    .subscribe textA ⟨.qos1, some 1, 0⟩ unhindered,
    .pass (passWith 0 (arriving [0x90, 3, 0, 2, 1]) unhindered),
    .pass lostPass,
    .pass (passWith 1000000 (arriving []) requests)]

/-- A client that subscribed before its connection was lost. -/
def reconnected (requests : RequestEnv) : Client :=
  Machine.run Client.call (uiotMqttInit ⟨2000, true⟩ 0)
    (losingConnection requests)

/-- The SUBSCRIBE for `"a"`. -/
def subscribeA (packetId : UInt16) : WirePacket :=
  ⟨0x82, subscribeBody .qos1 packetId textA, by
    simp [subscribeBody, textA, maxRemLen]⟩

theorem SubscribeSent.of_subscribeA {output : List UInt8}
    {handle : SubTopicHandle} (packetId : UInt16)
    (filter : handle.topicFilter.map StoredString.text = some textA)
    (level : handle.qos = .qos1)
    (isInfix : (subscribeA packetId).bytes <:+: output) :
    SubscribeSent output handle := by
  intro topic occupied
  rw [occupied] at filter
  refine ⟨subscribeA packetId, packetId, ⟨by decide,
    show headerType 0x82 = 8 by decide⟩, ?_, isInfix⟩
  rw [level, show topic.text = textA from Option.some.inj filter]
  rfl

theorem subscribable_textA : Subscribable textA .qos1 unhindered :=
  ⟨by decide, by decide, by decide, rfl, rfl, rfl, by unfold Completes; decide⟩

/-- The case of a client whose connection is lost: `"a"` is subscribed to on
both its connections. -/
theorem run_resubscribed_reconnected : Resubscribed (reconnected unhindered) :=
  run_resubscribed ⟨2000, true⟩ 0 (losingConnection unhindered) (by
    let before (count : Nat) := Machine.run Client.call
      (uiotMqttInit ⟨2000, true⟩ 0) ((losingConnection unhindered).take count)
    have acked : AcksSent ((before 2).tick 0) (arriving [0x90, 3, 0, 2, 1]) := by
      intro packet _ _ info mem _
      have only : (before 2).listSubWaitAck.all fun info =>
          info.handler.topicFilter.map StoredString.text == some textA &&
            info.handler.qos == .qos1 := by decide +kernel
      have both := List.all_eq_true.mp only info mem
      rw [Bool.and_eq_true, beq_iff_eq, beq_iff_eq] at both
      exact .of_subscribeA 2 both.1 both.2 (by decide +kernel)
    have nothing : ((before 3).tick 0).received lostPass.cycle = .other := by
      decide +kernel
    let accepted := (uiotMqttConnect ((before 4).tick 1000000)
      ((before 4).tick 1000000).options acceptedConnect).1
    have can : CanResubscribe accepted fun _ => unhindered := by
      refine ⟨by decide +kernel, fun i topic occupied => ?_⟩
      have only : (List.finRange maxSubTopics).all fun i =>
          (accepted.subHandles i).topicFilter.all fun topic =>
            topic.text == textA && (accepted.subHandles i).qos == .qos1 := by
        decide +kernel
      have both := List.all_eq_true.mp only i (List.mem_finRange i)
      rw [occupied, Option.all_some, Bool.and_eq_true, beq_iff_eq,
        beq_iff_eq] at both
      rw [both.1, both.2]
      exact subscribable_textA
    refine ⟨⟨rfl, fun _ => rfl⟩, trivial, ?_, ?_, ?_, trivial⟩
    · exact .of_connected (by decide +kernel) acked
    · refine .of_connected (by decide +kernel) fun packet received => ?_
      exact absurd (nothing.symm.trans received) (by simp)
    · exact .of_disconnected (by decide +kernel) fun _ => can)

/-- The bytes of a CONNECT are not taken for a SUBSCRIBE. -/
theorem not_subscribeSent_of_headers {output : List UInt8}
    {handle : SubTopicHandle} (occupied : handle.topicFilter ≠ none)
    (headers : ∀ byte ∈ output, headerType byte ≠ MessageTypes.subscribe.code) :
    ¬SubscribeSent output handle := by
  intro sent
  obtain ⟨topic, some'⟩ := Option.ne_none_iff_exists'.mp occupied
  obtain ⟨packet, packetId, type, -, isInfix⟩ := sent topic some'
  have first : packet.header ∈ packet.bytes := List.mem_cons_self
  exact headers packet.header (isInfix.subset first) type.2

/-- Passes in which nothing arrives and nothing is hindered make up for what is
missing. -/
def StillRetrying (c : Client) : Prop :=
  ∃ durations : List Nat, Resubscribed (Machine.run Client.call c
    (durations.map fun elapsed => .pass (quietPass elapsed)))

/-- A connected client without a keep-alive interval retries nothing. -/
theorem not_stillRetrying {c : Client} (connected : c.isConnected = true)
    (unattended : c.options.keepAliveInterval = 0)
    (missing : ¬Resubscribed c) : ¬StillRetrying c := by
  rintro ⟨durations, resubscribed⟩
  induction durations generalizing c with
  | nil => exact missing resubscribed
  | cons elapsed durations inductionHypothesis =>
      have same := yieldPass_quietPass
        (fun c => (c.isConnected, c.options, c.output, c.subHandles)) elapsed
        connected unattended (fun _ _ _ _ _ _ _ _ => rfl)
      simp only [Prod.mk.injEq] at same
      obtain ⟨stays, options, output, slots⟩ := same
      refine inductionHypothesis (c := (yieldPass c (quietPass elapsed)).1)
        (stays.trans connected) (by rw [options]; exact unattended) ?_
        resubscribed
      intro covered
      refine missing fun _ i => ?_
      rw [← output, ← slots]
      exact covered (stays.trans connected) i

/-- The write of the SUBSCRIBE fails on the new connection.  The client stays
connected, and however many passes follow, `"a"` is not subscribed to again. -/
theorem failedResubscription_isNotRetried :
    ¬∀ calls,
      let c := Machine.run Client.call (uiotMqttInit ⟨2000, true⟩ 0) calls
      Resubscribed c ∨ StillRetrying c := by
  intro all
  let requests : RequestEnv := { unhindered with writes := [.failure] }
  have connected : (reconnected requests).isConnected = true := by
    decide +kernel
  have missing : ¬Resubscribed (reconnected requests) := by
    intro resubscribed
    have occupied : ((reconnected requests).subHandles firstSlot).topicFilter ≠
        none := by decide +kernel
    have headers : ∀ byte ∈ (reconnected requests).output,
        headerType byte ≠ MessageTypes.subscribe.code := by decide +kernel
    exact not_subscribeSent_of_headers occupied headers
      (resubscribed connected firstSlot)
  rcases all (losingConnection requests) with resubscribed | retrying
  · exact missing resubscribed
  · exact not_stillRetrying connected (by decide +kernel) missing retrying

end Mqtt
end UIoT
