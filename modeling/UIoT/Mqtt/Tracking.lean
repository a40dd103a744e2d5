import Mathlib
import UIoT.Mqtt.Books

/-!
# Tracked requests

A request either goes on its waiting list under the next packet identifier or
leaves nothing behind to wait for.  Which of the two happens is decided by the
arguments, the connection, the room on the list and the surroundings, and the
functions answer an identifier exactly in the first case.
-/

namespace UIoT
namespace Mqtt

/-! ## Requests -/

/-- The heap is used in order: nodes have addresses of their own, below the
first free one. -/
structure Books.HeapOrdered (b : Books) : Prop where
  pub_lt : ∀ info ∈ b.listPubWaitAck, info.address < b.heapTop
  sub_lt : ∀ info ∈ b.listSubWaitAck, info.address < b.heapTop
  pub_nodup : (b.listPubWaitAck.map UIoTPubInfo.address).Nodup
  sub_nodup : (b.listSubWaitAck.map UIoTSubInfo.address).Nodup

/-- A request left nothing to wait for: it may have taken an identifier,
allocated and freed strings and emptied slots, and nothing else.  A node taken
off its list again is found by its address. -/
structure Books.Untracked (b after : Books) : Prop where
  listPubWaitAck : b.HeapOrdered → after.listPubWaitAck = b.listPubWaitAck
  listSubWaitAck : b.HeapOrdered → after.listSubWaitAck = b.listSubWaitAck
  subHandles : ∀ i,
    after.subHandles i = b.subHandles i ∨
      (after.subHandles i).topicFilter = none
  eventHandler : after.eventHandler = b.eventHandler
  events : after.events = b.events
  handedOver : after.handedOver = b.handedOver
  heapTop : b.heapTop ≤ after.heapTop
  nextPacketId :
    after.nextPacketId = b.nextPacketId ∨
      after.nextPacketId = nextId b.nextPacketId

/-- A publish was put on its waiting list. -/
structure Books.TracksPublish (b after : Books) (info : UIoTPubInfo) :
    Prop where
  listPubWaitAck : after.listPubWaitAck = b.listPubWaitAck ++ [info]
  listSubWaitAck : after.listSubWaitAck = b.listSubWaitAck
  subHandles : after.subHandles = b.subHandles
  eventHandler : after.eventHandler = b.eventHandler
  events : after.events = b.events
  handedOver : after.handedOver = b.handedOver
  nextPacketId : after.nextPacketId = nextId b.nextPacketId
  msgId : info.msgId = nextId b.nextPacketId
  nodeState : info.nodeState = .normal
  address : b.heapTop ≤ info.address ∧ info.address < after.heapTop

/-- A subscription or its cancellation was put on the waiting list.  Slots may
have been emptied. -/
structure Books.TracksRequest (b after : Books) (info : UIoTSubInfo) :
    Prop where
  listPubWaitAck : after.listPubWaitAck = b.listPubWaitAck
  listSubWaitAck : after.listSubWaitAck = b.listSubWaitAck ++ [info]
  subHandles : ∀ i,
    after.subHandles i = b.subHandles i ∨
      (after.subHandles i).topicFilter = none
  eventHandler : after.eventHandler = b.eventHandler
  events : after.events = b.events
  handedOver : after.handedOver = b.handedOver
  nextPacketId : after.nextPacketId = nextId b.nextPacketId
  msgId : info.msgId = nextId b.nextPacketId
  nodeState : info.nodeState = .normal
  address : b.heapTop ≤ info.address ∧ info.address < after.heapTop
  topicFilter : info.handler.topicFilter ≠ none

/-- A request that failed after the checks. -/
theorem Books.Untracked.of_request {b after : Books} {nextPacketId : UInt16}
    {infos : List UIoTSubInfo} {heapTop : Nat} {freed : List Nat}
    (grows : b.heapTop ≤ heapTop)
    (ids : nextPacketId = b.nextPacketId ∨
      nextPacketId = nextId b.nextPacketId)
    (removed : b.HeapOrdered → infos = b.listSubWaitAck)
    (books : after =
      { b with nextPacketId, listSubWaitAck := infos, heapTop, freed }) :
    b.Untracked after := by
  subst books
  exact ⟨fun _ => rfl, removed, fun _ => .inl rfl, rfl, rfl, rfl, grows, ids⟩

/-- A request that passed. -/
theorem Books.TracksRequest.of_request {b after : Books} {info : UIoTSubInfo}
    (msgId : info.msgId = nextId b.nextPacketId)
    (nodeState : info.nodeState = .normal)
    (address : info.address = b.heapTop + 1)
    (topicFilter : info.handler.topicFilter ≠ none)
    (books : after =
      { b with
        nextPacketId := nextId b.nextPacketId
        listSubWaitAck := b.listSubWaitAck ++ [info]
        heapTop := b.heapTop + 2 }) :
    b.TracksRequest after info := by
  subst books
  exact ⟨rfl, rfl, fun _ => .inl rfl, rfl, rfl, rfl, rfl, msgId, nodeState,
    ⟨address ▸ Nat.le_succ _, address ▸ Nat.lt_succ_self _⟩, topicFilter⟩

/-- The writes put a packet of this length on the connection. -/
def Completes (len : Nat) (writes : List WriteOutcome) : Prop :=
  len < uiotMqttTxBufLen ∧ (sendLoop (fun _ => 0) len writes 0 []).1 = len

/-- How much is sent does not depend on what is sent. -/
theorem sendLoop_fst (first second : Memory) (len : Nat)
    (writes : List WriteOutcome) (sent : Nat) (output output' : List UInt8) :
    (sendLoop first len writes sent output).1 =
      (sendLoop second len writes sent output').1 := by
  induction writes generalizing sent output output' with
  | nil => rfl
  | cons outcome writes inductionHypothesis =>
      unfold sendLoop
      split
      · cases outcome with
        | failure => rfl
        | accepted count => exact inductionHypothesis ..
      · rfl

theorem sendMqttPacket_ret (c : Client) (len : Nat)
    (writes : List WriteOutcome) :
    (sendMqttPacket c len writes).2 = .successRet ↔ Completes len writes := by
  have sameCount := sendLoop_fst c.writeBuf (fun _ => 0) len writes 0 c.output []
  unfold sendMqttPacket Completes
  rw [← sameCount]
  by_cases long : len ≥ uiotMqttTxBufLen
  · rw [if_pos long]
    exact iff_of_false (by simp) fun both => Nat.not_lt.mpr long both.1
  · rw [if_neg long, and_iff_right (Nat.lt_of_not_le long)]
    dsimp only
    split
    · exact iff_of_true rfl (by assumption)
    · exact iff_of_false (by decide) (by assumption)

/-- A packet is sent, or it is not. -/
theorem sendMqttPacket_cases (c : Client) (len : Nat)
    (writes : List WriteOutcome) :
    (Completes len writes ∧
        ∃ sent, sendMqttPacket c len writes = (sent, .successRet) ∧
          sent.books = c.books) ∨
      (¬Completes len writes ∧
        ∃ sent ret, sendMqttPacket c len writes = (sent, ret) ∧
          ret ≠ .successRet ∧ sent.books = c.books) := by
  have books := sendMqttPacket_books c len writes
  rw [← sendMqttPacket_ret c len writes]
  generalize sendMqttPacket c len writes = result at books ⊢
  obtain ⟨sent, ret⟩ := result
  by_cases success : ret = .successRet
  · exact .inl ⟨success, sent, by rw [success], books⟩
  · exact .inr ⟨success, sent, ret, rfl, success, books⟩

/-- An entry of this length can be put on the publish list. -/
def PubRoom (c : Client) (len : Nat) (env : RequestEnv) : Prop :=
  len ≤ uiotMqttTxBufLen ∧ c.listPubWaitAck.length < maxRepubNum ∧
    env.infoAllocated = true ∧ env.nodeAllocated = true

/-- An entry can be put on the subscribe list. -/
def SubRoom (c : Client) (env : RequestEnv) : Prop :=
  c.listSubWaitAck.length < maxSubTopics ∧
    env.infoAllocated = true ∧ env.nodeAllocated = true

/-- The node of a publish. -/
def Client.pubInfo (c : Client) (msgId : UInt16) : UIoTPubInfo where
  address := c.heapTop
  pubStartTime := .countdownMs c.clock c.commandTimeoutMs
  nodeState := .normal
  msgId

/-- The node of a subscription or its cancellation. -/
def Client.subInfo (c : Client) (msgId : UInt16) (type : MessageTypes)
    (handler : SubTopicHandle) : UIoTSubInfo where
  address := c.heapTop
  type
  msgId
  subStartTime := .countdownMs c.clock c.commandTimeoutMs
  nodeState := .normal
  handler

/-- A publish is put on its list, or it is not. -/
theorem maskPushPubInfoTo_cases (c : Client) (len : Nat) (msgId : UInt16)
    (env : RequestEnv) :
    (PubRoom c len env ∧
        maskPushPubInfoTo c len msgId env =
          ({ c with
              listPubWaitAck := c.listPubWaitAck ++ [c.pubInfo msgId]
              heapTop := c.heapTop + 1 }, .ok c.heapTop)) ∨
      (¬PubRoom c len env ∧
        ∃ ret, maskPushPubInfoTo c len msgId env = (c, .error ret)) := by
  unfold maskPushPubInfoTo PubRoom
  by_cases long : len > uiotMqttTxBufLen
  · exact .inr ⟨by omega, _, if_pos long⟩
  rw [if_neg long]
  by_cases full : c.listPubWaitAck.length ≥ maxRepubNum
  · exact .inr ⟨by omega, _, if_pos full⟩
  rw [if_neg full]
  cases infoOk : env.infoAllocated with
  | false => exact .inr ⟨by simp, _, rfl⟩
  | true =>
      cases nodeOk : env.nodeAllocated with
      | false => exact .inr ⟨by simp, _, rfl⟩
      | true => exact .inl ⟨⟨by omega, by omega, rfl, rfl⟩, rfl⟩

/-- A request is put on its list, or it is not. -/
theorem pushSubInfoTo_cases (c : Client) (msgId : UInt16) (type : MessageTypes)
    (handler : SubTopicHandle) (env : RequestEnv) :
    (SubRoom c env ∧
        pushSubInfoTo c msgId type handler env =
          ({ c with
              listSubWaitAck :=
                c.listSubWaitAck ++ [c.subInfo msgId type handler]
              heapTop := c.heapTop + 1 }, .ok c.heapTop)) ∨
      (¬SubRoom c env ∧
        ∃ ret, pushSubInfoTo c msgId type handler env = (c, .error ret)) := by
  unfold pushSubInfoTo SubRoom
  by_cases full : c.listSubWaitAck.length ≥ maxSubTopics
  · exact .inr ⟨by omega, _, if_pos full⟩
  rw [if_neg full]
  cases infoOk : env.infoAllocated with
  | false => exact .inr ⟨by simp, _, rfl⟩
  | true =>
      cases nodeOk : env.nodeAllocated with
      | false => exact .inr ⟨by simp, _, rfl⟩
      | true => exact .inl ⟨⟨by omega, rfl, rfl⟩, rfl⟩

/-- Removing a node just appended under the first free address. -/
theorem eraseP_appended {Info : Type} (address : Info → Nat) {infos : List Info}
    (info : Info) (fresh : ∀ other ∈ infos, address other < address info) :
    (infos ++ [info]).eraseP (fun other => address other = address info) =
      infos := by
  have absent : ∀ other ∈ infos,
      ¬(decide (address other = address info) = true) := by
    intro other mem equal
    have := fresh other mem
    have := of_decide_eq_true equal
    omega
  rw [List.eraseP_append_right _ absent, List.eraseP_cons_of_pos (by simp),
    List.append_nil]

/-- A serialised publish with an acknowledgement is tracked and sent, or leaves
nothing to wait for. -/
theorem publishSerialized_cases (c : Client) (len : Nat) (id : UInt16)
    (env : RequestEnv) :
    let after := publishSerialized c len id .qos1 env
    (PubRoom c len env ∧ Completes len env.writes ∧
        after.1.books =
          { c.books with
            listPubWaitAck := c.listPubWaitAck ++ [c.pubInfo id]
            heapTop := c.heapTop + 1 } ∧
        after.2 = .ok id) ∨
      (¬(PubRoom c len env ∧ Completes len env.writes) ∧
        (∃ infos heapTop, c.heapTop ≤ heapTop ∧
          (c.books.HeapOrdered → infos = c.listPubWaitAck) ∧
          after.1.books =
            { c.books with listPubWaitAck := infos, heapTop }) ∧
        ∀ id', after.2 ≠ .ok id') := by
  intro after
  rcases maskPushPubInfoTo_cases c len id env with
    ⟨room, pushed⟩ | ⟨noRoom, ret, refused⟩
  · rcases sendMqttPacket_cases
        { c with
          listPubWaitAck := c.listPubWaitAck ++ [c.pubInfo id]
          heapTop := c.heapTop + 1 } len env.writes with
      ⟨completes, sent, send, books⟩ | ⟨fails, sent, ret, send, error, books⟩
    · have after_eq : after = (sent.unlock .writeBuf, .ok id) := by
        simp only [after, publishSerialized, reduceCtorEq, if_false, pushed,
          send]
      rw [after_eq]
      exact .inl ⟨room, completes, books, rfl⟩
    · have after_eq : after =
          ((removePubInfo sent c.heapTop).unlock .writeBuf, .error ret) := by
        simp only [after, publishSerialized, reduceCtorEq, if_false, pushed,
          send]
      rw [after_eq]
      refine .inr ⟨fun both => fails both.2,
        ⟨(c.listPubWaitAck ++ [c.pubInfo id]).eraseP
            fun info => info.address = c.heapTop,
          c.heapTop + 1, Nat.le_succ _, fun ordered => ?_, ?_⟩,
        fun id' => by simp⟩
      · exact eraseP_appended UIoTPubInfo.address (c.pubInfo id)
          ordered.pub_lt
      · calc
          _ = { sent.books with
                listPubWaitAck := sent.books.listPubWaitAck.eraseP
                  fun info => info.address = c.heapTop } := rfl
          _ = _ := by
            rw [books]
            rfl
  · have after_eq : after = (c.unlock .writeBuf, .error ret) := by
      simp only [after, publishSerialized, reduceCtorEq, if_false, refused]
    rw [after_eq]
    exact .inr ⟨fun both => noRoom both.1,
      ⟨_, c.heapTop, Nat.le_refl _, fun _ => rfl, rfl⟩, fun id' => by simp⟩

theorem publishSerialized_qos0 (c : Client) (len : Nat) (id : UInt16)
    (env : RequestEnv) :
    (publishSerialized c len id .qos0 env).1.books = c.books := by
  have books := sendMqttPacket_books c len env.writes
  unfold publishSerialized
  rw [if_pos rfl]
  split
  · rename_i send
    rw [send] at books
    exact books
  · rename_i send
    rw [send] at books
    exact books

theorem Books.Untracked.refl (b : Books) : b.Untracked b :=
  ⟨fun _ => rfl, fun _ => rfl, fun _ => .inl rfl, rfl, rfl, rfl, Nat.le_refl _,
    .inl rfl⟩

/-- The argument and connection checks a request has to pass. -/
def RequestChecked (c : Client) (topic : CString) (qos : QoS) : Prop :=
  topic.bytes ≠ [] ∧ topic.bytes.length ≤ maxSizeOfCloudTopic ∧
    qos ≠ .qos2 ∧ c.isConnected = true

/-- A request that passes the checks goes on, any other one is refused. -/
theorem requestChecked_cases (c : Client) (topic : CString) (qos : QoS)
    (checked : Client × Except IoTError UInt16) :
    let result : Client × Except IoTError UInt16 :=
      if topic.bytes = [] then (c, .error .errParamInvalid)
      else if topic.bytes.length > maxSizeOfCloudTopic then
        (c, .error .errMaxTopicLength)
      else if qos = .qos2 then (c, .error .errMqttQosNotSupport)
      else if !c.isConnected then (c, .error .errMqttNoConn)
      else checked
    (RequestChecked c topic qos ∧ result = checked) ∨
      (¬RequestChecked c topic qos ∧ ∃ ret, result = (c, .error ret)) := by
  intro result
  unfold result RequestChecked
  by_cases empty : topic.bytes = []
  · exact .inr ⟨fun passed => passed.1 empty, _, if_pos empty⟩
  rw [if_neg empty]
  by_cases long : topic.bytes.length > maxSizeOfCloudTopic
  · exact .inr ⟨fun passed => Nat.not_lt.mpr passed.2.1 long, _, if_pos long⟩
  rw [if_neg long]
  by_cases unsupported : qos = .qos2
  · exact .inr ⟨fun passed => passed.2.2.1 unsupported, _,
      if_pos unsupported⟩
  rw [if_neg unsupported]
  cases online : c.isConnected with
  | false => exact .inr ⟨fun passed => by simp at passed, _, rfl⟩
  | true => exact .inl ⟨⟨empty, Nat.le_of_not_lt long, unsupported, rfl⟩, rfl⟩

/-- A publish goes on its waiting list. -/
def PublishTracked (c : Client) (topicName : CString) (params : PublishParams)
    (env : RequestEnv) : Prop :=
  RequestChecked c topicName params.qos ∧ params.qos = .qos1 ∧
    ∃ packet, serializePublishPacket c.writeBuf uiotMqttTxBufLen 0 .qos1
        params.retained (nextId c.nextPacketId) topicName params.payload =
          .ok packet ∧
      PubRoom c packet.2 env ∧ Completes packet.2 env.writes

/-- `uiot_mqtt_publish` tracks its request, or leaves nothing to wait for. -/
theorem uiotMqttPublish_cases (c : Client) (topicName : CString)
    (params : PublishParams) (env : RequestEnv) :
    let after := uiotMqttPublish c topicName params env
    (PublishTracked c topicName params env ∧
        c.books.TracksPublish after.1.books
          (c.pubInfo (nextId c.nextPacketId)) ∧
        after.2 = .ok (nextId c.nextPacketId)) ∨
      (¬PublishTracked c topicName params env ∧
        c.books.Untracked after.1.books ∧
        (params.qos = .qos1 → ∀ id, after.2 ≠ .ok id)) := by
  intro after
  rcases requestChecked_cases c topicName params.qos
      (publishChecked c topicName params env) with
    ⟨checked, publish⟩ | ⟨unchecked, ret, refused⟩
  · rw [show after = publishChecked c topicName params env from publish]
    unfold publishChecked PublishTracked
    rw [and_iff_right checked]
    cases qos : params.qos with
    | qos2 => exact absurd qos checked.2.2.1
    | qos0 =>
        refine .inr ⟨by simp, ?_, by simp⟩
        simp only [reduceCtorEq, if_false]
        split
        · exact .refl _
        · rw [publishSerialized_qos0]
          exact .refl _
    | qos1 =>
        simp only [if_true, true_and]
        have nextIds : (getNextPacketId (c.lock .writeBuf)).nextPacketId =
            nextId c.nextPacketId := rfl
        have sameBuf : (getNextPacketId (c.lock .writeBuf)).writeBuf =
            c.writeBuf := rfl
        rw [nextIds, sameBuf]
        cases serializePublishPacket c.writeBuf uiotMqttTxBufLen 0 .qos1
            params.retained (nextId c.nextPacketId) topicName
            params.payload with
        | error ret =>
            refine .inr ⟨by simp, ?_, fun id => by simp⟩
            exact ⟨fun _ => rfl, fun _ => rfl, fun _ => .inl rfl, rfl, rfl, rfl,
              Nat.le_refl _, .inr rfl⟩
        | ok packet =>
            let prepared : Client :=
              { getNextPacketId (c.lock .writeBuf) with writeBuf := packet.1 }
            simp only [Except.ok.injEq, exists_eq_left']
            rcases publishSerialized_cases prepared packet.2
                (nextId c.nextPacketId) env with
              ⟨room, completes, books, ret⟩ |
                ⟨fails, ⟨infos, heapTop, grows, removed, books⟩, error⟩
            · have tracks : c.books.TracksPublish (publishSerialized prepared
                  packet.2 (nextId c.nextPacketId) .qos1 env).1.books
                  (c.pubInfo (nextId c.nextPacketId)) := by
                rw [books]
                exact ⟨rfl, rfl, rfl, rfl, rfl, rfl, rfl, rfl, rfl,
                  Nat.le_refl _, Nat.lt_succ_self _⟩
              exact .inl ⟨⟨room, completes⟩, tracks, ret⟩
            · have untracked : c.books.Untracked (publishSerialized prepared
                  packet.2 (nextId c.nextPacketId) .qos1 env).1.books := by
                rw [books]
                exact ⟨fun ordered => removed ⟨ordered.1, ordered.2, ordered.3,
                  ordered.4⟩, fun _ => rfl, fun _ => .inl rfl, rfl, rfl, rfl,
                  grows, .inr rfl⟩
              exact .inr ⟨fails, untracked, fun _ => error⟩
  · rw [show after = (c, .error ret) from refused]
    exact .inr ⟨fun tracked => unchecked tracked.1, .refl _,
      fun _ id => by simp⟩

/-- A serialised subscription or cancellation is tracked and sent, or leaves
nothing to wait for. -/
theorem requestSerialized_cases (c : Client) (len : Nat) (packetId : UInt16)
    (type : MessageTypes) (handler : SubTopicHandle) (env : RequestEnv) :
    let after := requestSerialized c len packetId type handler env
    (SubRoom c env ∧ Completes len env.writes ∧
        after.1.books =
          { c.books with
            listSubWaitAck :=
              c.listSubWaitAck ++ [c.subInfo packetId type handler]
            heapTop := c.heapTop + 1 } ∧
        after.2 = .ok packetId) ∨
      (¬(SubRoom c env ∧ Completes len env.writes) ∧
        (∃ infos heapTop freed, c.heapTop ≤ heapTop ∧
          (c.books.HeapOrdered → infos = c.listSubWaitAck) ∧
          after.1.books =
            { c.books with listSubWaitAck := infos, heapTop, freed }) ∧
        ∀ id, after.2 ≠ .ok id) := by
  intro after
  rcases pushSubInfoTo_cases c packetId type handler env with
    ⟨room, pushed⟩ | ⟨noRoom, ret, refused⟩
  · rcases sendMqttPacket_cases
        { c with
          listSubWaitAck :=
            c.listSubWaitAck ++ [c.subInfo packetId type handler]
          heapTop := c.heapTop + 1 } len env.writes with
      ⟨completes, sent, send, books⟩ | ⟨fails, sent, ret, send, error, books⟩
    · have after_eq : after = (sent.unlock .writeBuf, .ok packetId) := by
        simp only [after, requestSerialized, pushed, send]
      rw [after_eq]
      exact .inl ⟨room, completes, books, rfl⟩
    · have after_eq : after =
          (((removeSubInfo sent c.heapTop).unlock .writeBuf).free
            handler.topicFilter, .error ret) := by
        simp only [after, requestSerialized, pushed, send]
      rw [after_eq]
      refine .inr ⟨fun both => fails both.2,
        ⟨(c.listSubWaitAck ++ [c.subInfo packetId type handler]).eraseP
            fun info => info.address = c.heapTop,
          c.heapTop + 1,
          c.freed ++ (handler.topicFilter.map StoredString.address).toList,
          Nat.le_succ _, fun ordered => ?_, ?_⟩, fun id => by simp⟩
      · exact eraseP_appended UIoTSubInfo.address
          (c.subInfo packetId type handler) ordered.sub_lt
      · calc
          _ = { sent.books with
                listSubWaitAck := sent.books.listSubWaitAck.eraseP
                  fun info => info.address = c.heapTop
                freed := sent.books.freed ++
                  (handler.topicFilter.map StoredString.address).toList } := rfl
          _ = _ := by
            rw [books]
            rfl
  · have after_eq : after =
        ((c.unlock .writeBuf).free handler.topicFilter, .error ret) := by
      simp only [after, requestSerialized, refused]
    rw [after_eq]
    exact .inr ⟨fun both => noRoom both.1,
      ⟨_, c.heapTop, _, Nat.le_refl _, fun _ => rfl, rfl⟩, fun id => by simp⟩

/-- A request with a filter goes on the waiting list. -/
def RequestTracked (c : Client) (topicFilter : CString)
    (serialize : Memory → UInt16 → CString → Except IoTError (Memory × Nat))
    (env : RequestEnv) : Prop :=
  env.storedAllocated = true ∧
    ∃ packet, serialize c.writeBuf (nextId c.nextPacketId) topicFilter =
        .ok packet ∧
      SubRoom c env ∧ Completes packet.2 env.writes

/-- The node of a request with a filter. -/
def Client.requestInfo (c : Client) (topicFilter : CString)
    (type : MessageTypes) (handler : StoredString → SubTopicHandle) :
    UIoTSubInfo :=
  (storeFilter c topicFilter).1.subInfo (nextId c.nextPacketId) type
    (handler ⟨c.heapTop, topicFilter⟩)

/-- A request with a filter is tracked, or leaves nothing to wait for. -/
theorem requestStored_cases (c : Client) (topicFilter : CString)
    (type : MessageTypes)
    (serialize : Memory → UInt16 → CString → Except IoTError (Memory × Nat))
    (handler : StoredString → SubTopicHandle) (env : RequestEnv) :
    let after := requestStored c topicFilter type serialize handler env
    (RequestTracked c topicFilter serialize env ∧
        after.1.books =
          { c.books with
            nextPacketId := nextId c.nextPacketId
            listSubWaitAck :=
              c.listSubWaitAck ++ [c.requestInfo topicFilter type handler]
            heapTop := c.heapTop + 2 } ∧
        after.2 = .ok (nextId c.nextPacketId)) ∨
      (¬RequestTracked c topicFilter serialize env ∧
        (∃ nextPacketId infos heapTop freed, c.heapTop ≤ heapTop ∧
          (nextPacketId = c.nextPacketId ∨
            nextPacketId = nextId c.nextPacketId) ∧
          (c.books.HeapOrdered → infos = c.listSubWaitAck) ∧
          after.1.books =
            { c.books with
              nextPacketId, listSubWaitAck := infos, heapTop, freed }) ∧
        ∀ id, after.2 ≠ .ok id) := by
  intro after
  unfold RequestTracked
  cases stored : env.storedAllocated with
  | false =>
      have after_eq : after = (c, .error .failureRet) := by
        simp only [after, requestStored, stored, Bool.not_false, if_true]
      rw [after_eq]
      exact .inr ⟨by simp,
        ⟨_, _, _, _, Nat.le_refl _, .inl rfl, fun _ => rfl, rfl⟩,
        fun id => by simp⟩
  | true =>
      let prepared : Client :=
        getNextPacketId ((storeFilter c topicFilter).1.lock .writeBuf)
      cases serialized : serialize c.writeBuf (nextId c.nextPacketId)
          topicFilter with
      | error ret =>
          have after_eq : after =
              ((prepared.unlock .writeBuf).free
                (some ⟨c.heapTop, topicFilter⟩), .error ret) := by
            simp only [after, prepared, requestStored, stored, storeFilter,
              getNextPacketId, Client.lock, serialized, Bool.not_true,
              Bool.false_eq_true, if_false]
          rw [after_eq]
          exact .inr ⟨by simp,
            ⟨_, _, _, _, Nat.le_succ _, .inr rfl, fun _ => rfl, rfl⟩,
            fun id => by simp⟩
      | ok packet =>
          have after_eq : after =
              requestSerialized { prepared with writeBuf := packet.1 } packet.2
                (nextId c.nextPacketId) type (handler ⟨c.heapTop, topicFilter⟩)
                env := by
            simp only [after, prepared, requestStored, stored, storeFilter,
              getNextPacketId, Client.lock, serialized, Bool.not_true,
              Bool.false_eq_true, if_false]
          simp only [Except.ok.injEq, exists_eq_left', true_and]
          rw [after_eq]
          rcases requestSerialized_cases
              { prepared with writeBuf := packet.1 } packet.2
              (nextId c.nextPacketId) type (handler ⟨c.heapTop, topicFilter⟩)
              env with
            ⟨room, completes, books, ret⟩ |
              ⟨fails, ⟨infos, heapTop, freed, grows, removed, books⟩, error⟩
          · exact .inl ⟨⟨room, completes⟩, books, ret⟩
          · have kept : c.books.HeapOrdered → infos = c.listSubWaitAck :=
              fun ordered => removed
                ⟨fun info mem => Nat.lt_succ_of_lt (ordered.pub_lt info mem),
                  fun info mem => Nat.lt_succ_of_lt (ordered.sub_lt info mem),
                  ordered.pub_nodup, ordered.sub_nodup⟩
            exact .inr ⟨fails,
              ⟨_, infos, heapTop, freed, Nat.le_of_succ_le grows, .inr rfl,
                kept, books⟩, error⟩

/-! ## Subscriptions -/

/-- A subscription goes on the waiting list. -/
def SubscribeTracked (c : Client) (topicFilter : CString)
    (params : SubscribeParams) (env : RequestEnv) : Prop :=
  RequestChecked c topicFilter params.qos ∧
    RequestTracked c topicFilter (subscribePacket params.qos) env

/-- The node of a subscription. -/
def Client.subscribeInfo (c : Client) (topicFilter : CString)
    (params : SubscribeParams) : UIoTSubInfo :=
  c.requestInfo topicFilter .subscribe fun stored =>
    { topicFilter := stored
      messageHandler := params.onMessageHandler
      messageHandlerData := params.userData
      qos := params.qos }

/-- `uiot_mqtt_subscribe` tracks its request, or leaves nothing to wait
for. -/
theorem uiotMqttSubscribe_cases (c : Client) (topicFilter : CString)
    (params : SubscribeParams) (env : RequestEnv) :
    let after := uiotMqttSubscribe c topicFilter params env
    (SubscribeTracked c topicFilter params env ∧
        c.books.TracksRequest after.1.books
          (c.subscribeInfo topicFilter params) ∧
        after.1.subHandles = c.subHandles ∧
        after.2 = .ok (nextId c.nextPacketId)) ∨
      (¬SubscribeTracked c topicFilter params env ∧
        c.books.Untracked after.1.books ∧
        after.1.subHandles = c.subHandles ∧
        ∀ id, after.2 ≠ .ok id) := by
  intro after
  unfold SubscribeTracked
  rcases requestChecked_cases c topicFilter params.qos
      (subscribeChecked c topicFilter params env) with
    ⟨checked, subscribe⟩ | ⟨unchecked, ret, refused⟩
  · rw [show after = subscribeChecked c topicFilter params env from subscribe,
      and_iff_right checked]
    rcases requestStored_cases c topicFilter .subscribe
        (subscribePacket params.qos) _ env with
      ⟨tracked, books, ret⟩ |
        ⟨untracked, ⟨_, _, _, _, grows, ids, removed, books⟩, error⟩
    · exact .inl ⟨tracked, .of_request rfl rfl rfl
        (Option.some_ne_none _) books,
        congrArg Books.subHandles books, ret⟩
    · exact .inr ⟨untracked, .of_request grows ids removed books,
        congrArg Books.subHandles books, error⟩
  · rw [show after = (c, .error ret) from refused]
    exact .inr ⟨fun tracked => unchecked tracked.1, .refl _, rfl,
      fun id => by simp⟩

/-! ## Unsubscribing -/

/-- The slots once those that pass the test for the filter are emptied. -/
def clearedHandles (topicFilter : CString)
    (subHandles : Fin maxSubTopics → SubTopicHandle)
    (i : Fin maxSubTopics) : SubTopicHandle :=
  if clearsSlot topicFilter (subHandles i) then
    { subHandles i with topicFilter := none }
  else
    subHandles i

/-- The strings freed with the slots that pass the test for the filter. -/
def clearedFilters (topicFilter : CString)
    (subHandles : Fin maxSubTopics → SubTopicHandle)
    (slots : List (Fin maxSubTopics)) : List Nat :=
  (slots.filter fun i => clearsSlot topicFilter (subHandles i)).flatMap
    fun i => ((subHandles i).topicFilter.map StoredString.address).toList

/-- The strings freed depend on the slots walked only. -/
theorem clearedFilters_congr (topicFilter : CString)
    {subHandles others : Fin maxSubTopics → SubTopicHandle}
    {slots : List (Fin maxSubTopics)}
    (same : ∀ i ∈ slots, subHandles i = others i) :
    clearedFilters topicFilter subHandles slots =
      clearedFilters topicFilter others slots := by
  induction slots with
  | nil => rfl
  | cons i slots inductionHypothesis =>
      have rest := inductionHypothesis fun j mem =>
        same j (List.mem_cons_of_mem i mem)
      have first := same i List.mem_cons_self
      unfold clearedFilters at rest ⊢
      rw [List.filter_cons, List.filter_cons, first]
      split
      · rw [List.flatMap_cons, List.flatMap_cons, first, rest]
      · exact rest

/-- The loop empties the slots it walks, each on its own. -/
theorem clearSlots_eq (topicFilter : CString)
    {slots : List (Fin maxSubTopics)} (nodup : slots.Nodup) (c : Client)
    (suberExists : Bool) :
    clearSlots topicFilter slots c suberExists =
      ({ c with
          subHandles := fun i =>
            if i ∈ slots then clearedHandles topicFilter c.subHandles i
            else c.subHandles i
          freed :=
            c.freed ++ clearedFilters topicFilter c.subHandles slots },
        suberExists ||
          slots.any fun i => clearsSlot topicFilter (c.subHandles i)) := by
  induction slots generalizing c suberExists with
  | nil => simp [clearSlots, clearedFilters]
  | cons i slots inductionHypothesis =>
      obtain ⟨notMem, nodup⟩ := List.nodup_cons.mp nodup
      have apart : ∀ j ∈ slots, j ≠ i := fun j mem equal =>
        notMem (equal ▸ mem)
      rw [clearSlots]
      by_cases clears : clearsSlot topicFilter (c.subHandles i) = true
      · have cleared : clearedHandles topicFilter c.subHandles i =
            { c.subHandles i with topicFilter := none } := if_pos clears
        let emptied := Function.update c.subHandles i
          { c.subHandles i with topicFilter := none }
        have handles : (fun j => if j ∈ slots
            then clearedHandles topicFilter emptied j
            else emptied j) = fun j => if j ∈ i :: slots
            then clearedHandles topicFilter c.subHandles j
            else c.subHandles j := by
          funext j
          by_cases same : j = i
          · subst same
            simp [emptied, notMem, cleared]
          · simp [emptied, clearedHandles, same]
        have filters : clearedFilters topicFilter emptied slots =
            clearedFilters topicFilter c.subHandles slots :=
          clearedFilters_congr topicFilter fun j mem =>
            Function.update_of_ne (apart j mem) ..
        have freed : clearedFilters topicFilter c.subHandles (i :: slots) =
            ((c.subHandles i).topicFilter.map StoredString.address).toList ++
              clearedFilters topicFilter c.subHandles slots := by
          simp [clearedFilters, clears]
        rw [if_pos clears, inductionHypothesis nodup, freed, ← handles,
          ← filters, ← List.append_assoc]
        refine Prod.ext rfl ?_
        simp [clears]
      · have kept : clearedHandles topicFilter c.subHandles i =
            c.subHandles i := if_neg clears
        rw [if_neg clears, inductionHypothesis nodup]
        have handles : (fun j => if j ∈ slots
            then clearedHandles topicFilter c.subHandles j
            else c.subHandles j) = fun j => if j ∈ i :: slots
            then clearedHandles topicFilter c.subHandles j
            else c.subHandles j := by
          funext j
          by_cases same : j = i
          · subst same
            simp [notMem, kept]
          · simp [same]
        rw [handles]
        simp [clearedFilters, clears]

/-- The filter is one that `uiot_mqtt_unsubscribe` looks for. -/
def FilterChecked (topicFilter : CString) : Prop :=
  topicFilter.bytes ≠ [] ∧ topicFilter.bytes.length ≤ maxSizeOfCloudTopic

/-- Some slot passes the test for the filter. -/
def ClearsAny (c : Client) (topicFilter : CString) : Prop :=
  ∃ i, clearsSlot topicFilter (c.subHandles i) = true

/-- A cancellation goes on the waiting list. -/
def UnsubscribeTracked (c : Client) (topicFilter : CString)
    (env : RequestEnv) : Prop :=
  FilterChecked topicFilter ∧ ClearsAny c topicFilter ∧
    c.isConnected = true ∧ RequestTracked c topicFilter unsubscribePacket env

/-- The node of a cancellation. -/
def Client.unsubscribeInfo (c : Client) (topicFilter : CString)
    (env : RequestEnv) : UIoTSubInfo :=
  c.requestInfo topicFilter .unsubscribe fun stored =>
    { topicFilter := stored
      messageHandler := none
      messageHandlerData := 0
      qos := env.staleQos }

/-- The client once the loop of `uiot_mqtt_unsubscribe` is through. -/
def Client.cleared (c : Client) (topicFilter : CString) : Client :=
  { c with
    subHandles := clearedHandles topicFilter c.subHandles
    freed := c.freed ++
      clearedFilters topicFilter c.subHandles (List.finRange maxSubTopics) }

/-- The loop of `uiot_mqtt_unsubscribe` over all slots. -/
theorem clearSlots_finRange (c : Client) (topicFilter : CString) :
    clearSlots topicFilter (List.finRange maxSubTopics) c false =
      (c.cleared topicFilter,
        (List.finRange maxSubTopics).any
          fun i => clearsSlot topicFilter (c.subHandles i)) := by
  rw [clearSlots_eq topicFilter (List.nodup_finRange _), Bool.false_or]
  simp [Client.cleared]

/-- `uiot_mqtt_unsubscribe` tracks its request, or leaves nothing to wait
for. -/
theorem uiotMqttUnsubscribe_cases (c : Client) (topicFilter : CString)
    (env : RequestEnv) :
    let after := uiotMqttUnsubscribe c topicFilter env
    (UnsubscribeTracked c topicFilter env ∧
        (c.cleared topicFilter).books.TracksRequest after.1.books
          (c.unsubscribeInfo topicFilter env) ∧
        after.1.subHandles = clearedHandles topicFilter c.subHandles ∧
        after.2 = .ok (nextId c.nextPacketId)) ∨
      (¬UnsubscribeTracked c topicFilter env ∧
        ((FilterChecked topicFilter ∧
            (c.cleared topicFilter).books.Untracked after.1.books ∧
            after.1.subHandles = clearedHandles topicFilter c.subHandles) ∨
          (¬FilterChecked topicFilter ∧ after.1 = c)) ∧
        ∀ id, after.2 ≠ .ok id) := by
  intro after
  unfold UnsubscribeTracked
  by_cases empty : topicFilter.bytes = []
  · have after_eq : after = (c, .error .errParamInvalid) := if_pos empty
    rw [after_eq]
    exact .inr ⟨fun tracked => tracked.1.1 empty,
      .inr ⟨fun checked => checked.1 empty, rfl⟩, fun id => by simp⟩
  by_cases long : topicFilter.bytes.length > maxSizeOfCloudTopic
  · have after_eq : after = (c, .error .errMaxTopicLength) := by
      simp only [after, uiotMqttUnsubscribe, if_neg empty, if_pos long]
    rw [after_eq]
    exact .inr ⟨fun tracked => Nat.not_lt.mpr tracked.1.2 long,
      .inr ⟨fun checked => Nat.not_lt.mpr checked.2 long, rfl⟩,
      fun id => by simp⟩
  have checked : FilterChecked topicFilter := ⟨empty, Nat.le_of_not_lt long⟩
  have any_iff : ((List.finRange maxSubTopics).any
      fun i => clearsSlot topicFilter (c.subHandles i)) = true ↔
        ClearsAny c topicFilter := by
    simp [ClearsAny]
  by_cases clears : ClearsAny c topicFilter
  · have passed := any_iff.mpr clears
    cases online : c.isConnected with
    | false =>
        have after_eq : after =
            (c.cleared topicFilter, .error .errMqttNoConn) := by
          simp [after, uiotMqttUnsubscribe, empty, long, clearSlots_finRange,
            passed, online, Client.cleared]
        rw [after_eq]
        refine .inr ⟨fun tracked => ?_, .inl ⟨checked, .refl _, rfl⟩,
          fun id => by simp⟩
        simp at tracked
    | true =>
        have after_eq : after =
            unsubscribeCleared (c.cleared topicFilter) topicFilter env := by
          simp [after, uiotMqttUnsubscribe, empty, long, clearSlots_finRange,
            passed, online, Client.cleared]
        rw [after_eq, and_iff_right rfl]
        rcases requestStored_cases (c.cleared topicFilter) topicFilter
            .unsubscribe unsubscribePacket _ env with
          ⟨tracked, books, ret⟩ |
            ⟨untracked, ⟨_, _, _, _, grows, ids, removed, books⟩, error⟩
        · refine .inl ⟨⟨checked, clears, tracked⟩,
            .of_request rfl rfl rfl (Option.some_ne_none _) books,
            congrArg Books.subHandles books, ret⟩
        · refine .inr ⟨fun tracked => untracked tracked.2.2,
            .inl ⟨checked, .of_request grows ids removed books,
              congrArg Books.subHandles books⟩, error⟩
  · have failed := Bool.eq_false_iff.mpr fun passed =>
      clears (any_iff.mp passed)
    have after_eq : after =
        (c.cleared topicFilter, .error .errMqttUnsubFailed) := by
      simp only [after, uiotMqttUnsubscribe, if_neg empty, if_neg long,
        clearSlots_finRange, failed]
    rw [after_eq]
    exact .inr ⟨fun tracked => clears tracked.2.1,
      .inl ⟨checked, .refl _, rfl⟩, fun id => by simp⟩

end Mqtt
end UIoT
