import UIoT.Mqtt.Sending
import UIoT.Mqtt.SweepNodes

/-!
# Requests on the nodes

Publishing, subscribing and unsubscribing with the waiting lists as nodes on the
heap and with every mutex the functions take.  A request pushes its node behind
the others and takes it off again where it cannot be sent, so that a request
that fails leaves both lists as they were.
-/

namespace UIoT
namespace Mqtt

/-- A client whose waiting lists are nodes on the heap. -/
structure NodeClient where
  client : Client
  pubs : InfoNodes UIoTPubInfo
  subs : InfoNodes UIoTSubInfo

namespace NodeClient

/-- `HAL_MutexLock` -/
def lock (s : NodeClient) (mutex : Lock) : NodeClient :=
  { s with client := s.client.lock mutex }

/-- `HAL_MutexUnlock` -/
def unlock (s : NodeClient) (mutex : Lock) : NodeClient :=
  { s with client := s.client.unlock mutex }

/-- `HAL_Free` of a string; the null pointer is ignored. -/
def free (s : NodeClient) (string : Option StoredString) : NodeClient :=
  { s with client := s.client.free string }

end NodeClient

/-- What a request answers, with what it has made of the client. -/
abbrev Answer (α : Type) := NodeClient × Except IoTError α

/-! ## Waiting lists -/

/-- `_mask_push_pubInfo_to`, which gets its node at a free address. -/
def maskPushPubInfoNode (s : NodeClient) (len : Nat) (msgId : UInt16)
    (env : RequestEnv) (node : Nat) : Option (Answer Nat) :=
  if len > uiotMqttTxBufLen then
    some (s, .error .failureRet)
  else
    let s := s.lock .listPub
    if s.pubs.len ≥ UInt32.ofNat maxRepubNum then
      some (s.unlock .listPub, .error .failureRet)
    else if !env.infoAllocated then
      some (s.unlock .listPub, .error .failureRet)
    else if !env.nodeAllocated then
      some (s.unlock .listPub, .error .failureRet)
    else do
      let info : UIoTPubInfo :=
        { address := node
          pubStartTime := .countdownMs s.client.clock s.client.commandTimeoutMs
          nodeState := .normal
          msgId }
      let pubs ← (s.pubs.listNodeNew node (some info)).listRpush node
      pure ({ s with pubs }.unlock .listPub, .ok node)

/-- `push_sub_info_to`, which gets its node at a free address. -/
def pushSubInfoNode (s : NodeClient) (msgId : UInt16) (type : MessageTypes)
    (handler : SubTopicHandle) (env : RequestEnv) (node : Nat) :
    Option (Answer Nat) :=
  let s := s.lock .listSub
  if s.subs.len ≥ UInt32.ofNat maxSubTopics then
    some (s.unlock .listSub, .error .errMqttMaxSubscriptionsReached)
  else if !env.infoAllocated then
    some (s.unlock .listSub, .error .failureRet)
  else if !env.nodeAllocated then
    some (s.unlock .listSub, .error .failureRet)
  else do
    let info : UIoTSubInfo :=
      { address := node
        type
        msgId
        subStartTime := .countdownMs s.client.clock s.client.commandTimeoutMs
        nodeState := .normal
        handler }
    let subs ← (s.subs.listNodeNew node (some info)).listRpush node
    pure ({ s with subs }.unlock .listSub, .ok node)

/-- A publish that could not be sent is taken off its list. -/
def removePubNode (s : NodeClient) (node : Nat) : Option NodeClient := do
  let s := s.lock .listPub
  let pubs ← s.pubs.listRemove node
  pure ({ s with pubs }.unlock .listPub)

/-- A request that could not be sent is taken off its list. -/
def removeSubNode (s : NodeClient) (node : Nat) : Option NodeClient := do
  let s := s.lock .listSub
  let subs ← s.subs.listRemove node
  pure ({ s with subs }.unlock .listSub)

/-! ## Publishing -/

/-- What `uiot_mqtt_publish` does once the packet is in the write buffer. -/
def publishSerializedNode (s : NodeClient) (len : Nat) (id : UInt16)
    (qos : QoS) (env : RequestEnv) (node : Nat) : Option (Answer UInt16) :=
  if qos = .qos0 then
    match sendMqttPacket s.client len env.writes with
    | (client, .successRet) =>
        some ({ s with client }.unlock .writeBuf, .ok id)
    | (client, ret) => some ({ s with client }.unlock .writeBuf, .error ret)
  else do
    match ← maskPushPubInfoNode s len id env node with
    | (s, .error ret) => some (s.unlock .writeBuf, .error ret)
    | (s, .ok node) =>
        match sendMqttPacket s.client len env.writes with
        | (client, .successRet) =>
            some ({ s with client }.unlock .writeBuf, .ok id)
        | (client, ret) => do
            let s ← removePubNode { s with client } node
            pure (s.unlock .writeBuf, .error ret)

/-- `uiot_mqtt_publish` -/
def uiotMqttPublishNode (s : NodeClient) (topicName : CString)
    (params : PublishParams) (env : RequestEnv) (node : Nat) :
    Option (Answer UInt16) :=
  if topicName.bytes = [] then
    some (s, .error .errParamInvalid)
  else if topicName.bytes.length > maxSizeOfCloudTopic then
    some (s, .error .errMaxTopicLength)
  else if params.qos = .qos2 then
    some (s, .error .errMqttQosNotSupport)
  else if !s.client.isConnected then
    some (s, .error .errMqttNoConn)
  else
    let s := s.lock .writeBuf
    let client :=
      if params.qos = .qos1 then getNextPacketId s.client else s.client
    let id := if params.qos = .qos1 then client.nextPacketId else params.id
    match serializePublishPacket client.writeBuf uiotMqttTxBufLen 0 params.qos
        params.retained id topicName params.payload with
    | .error ret => some ({ s with client }.unlock .writeBuf, .error ret)
    | .ok (writeBuf, len) =>
        publishSerializedNode { s with client := { client with writeBuf } } len
          id params.qos env node

/-! ## Subscribing and unsubscribing -/

/-- What `uiot_mqtt_subscribe` and `uiot_mqtt_unsubscribe` do once the packet is
in the write buffer. -/
def requestSerializedNode (s : NodeClient) (len : Nat) (packetId : UInt16)
    (type : MessageTypes) (handler : SubTopicHandle) (env : RequestEnv)
    (node : Nat) : Option (Answer UInt16) := do
  match ← pushSubInfoNode s packetId type handler env node with
  | (s, .error ret) =>
      some ((s.unlock .writeBuf).free handler.topicFilter, .error ret)
  | (s, .ok node) =>
      match sendMqttPacket s.client len env.writes with
      | (client, .successRet) =>
          some ({ s with client }.unlock .writeBuf, .ok packetId)
      | (client, ret) => do
          let s ← removeSubNode { s with client } node
          pure ((s.unlock .writeBuf).free handler.topicFilter, .error ret)

/-- What they do with a filter that has passed their checks. -/
def requestStoredNode (s : NodeClient) (topicFilter : CString)
    (type : MessageTypes)
    (serialize : Memory → UInt16 → CString → Except IoTError (Memory × Nat))
    (handler : StoredString → SubTopicHandle) (env : RequestEnv) (node : Nat) :
    Option (Answer UInt16) :=
  if !env.storedAllocated then
    some (s, .error .failureRet)
  else
    let (client, stored) := storeFilter s.client topicFilter
    let client := getNextPacketId (client.lock .writeBuf)
    match serialize client.writeBuf client.nextPacketId stored.text with
    | .error ret =>
        some (({ s with client }.unlock .writeBuf).free stored, .error ret)
    | .ok (writeBuf, len) =>
        requestSerializedNode { s with client := { client with writeBuf } } len
          client.nextPacketId type (handler stored) env node

/-- `uiot_mqtt_subscribe` -/
def uiotMqttSubscribeNode (s : NodeClient) (topicFilter : CString)
    (params : SubscribeParams) (env : RequestEnv) (node : Nat) :
    Option (Answer UInt16) :=
  if topicFilter.bytes = [] then
    some (s, .error .errParamInvalid)
  else if topicFilter.bytes.length > maxSizeOfCloudTopic then
    some (s, .error .errMaxTopicLength)
  else if params.qos = .qos2 then
    some (s, .error .errMqttQosNotSupport)
  else if !s.client.isConnected then
    some (s, .error .errMqttNoConn)
  else
    requestStoredNode s topicFilter .subscribe (subscribePacket params.qos)
      (fun stored =>
        { topicFilter := stored
          messageHandler := params.onMessageHandler
          messageHandlerData := params.userData
          qos := params.qos })
      env node

/-- `uiot_mqtt_unsubscribe` -/
def uiotMqttUnsubscribeNode (s : NodeClient) (topicFilter : CString)
    (env : RequestEnv) (node : Nat) : Option (Answer UInt16) :=
  if topicFilter.bytes = [] then
    some (s, .error .errParamInvalid)
  else if topicFilter.bytes.length > maxSizeOfCloudTopic then
    some (s, .error .errMaxTopicLength)
  else
    let (client, suberExists) := clearSlots topicFilter
      (List.finRange maxSubTopics) (s.client.lock .generic) false
    let s := { s with client }.unlock .generic
    if !suberExists then
      some (s, .error .errMqttUnsubFailed)
    else if !s.client.isConnected then
      some (s, .error .errMqttNoConn)
    else
      requestStoredNode s topicFilter .unsubscribe unsubscribePacket
        (fun stored =>
          { topicFilter := stored
            messageHandler := none
            messageHandlerData := 0
            qos := env.staleQos })
        env node

/-! ## What a request does to the lists -/

/-- The nodes of both waiting lists, with their values. -/
structure Pending where
  pubs : List (Nat × Option UIoTPubInfo)
  subs : List (Nat × Option UIoTSubInfo)

/-- These are the nodes of the client's lists. -/
structure NodeClient.Lists (s : NodeClient) (lists : Pending) : Prop where
  pubs : s.pubs.Consistent lists.pubs
  subs : s.subs.Consistent lists.subs

/-- The lists are no longer than they may become. -/
structure Pending.Bounded (lists : Pending) : Prop where
  pubs : lists.pubs.length ≤ maxRepubNum
  subs : lists.subs.length ≤ maxSubTopics

/-- What a request that succeeds is waiting for. -/
inductive Tracked
  | nothing
  | publish
  | request (type : MessageTypes)

/-- The lists with one more node, `NORMAL` and with the identifier, for what is
tracked. -/
inductive Pending.Appends (before : Pending) (id : UInt16) :
    Tracked → Pending → Prop
  | nothing : Appends before id .nothing before
  | publish (node : Nat) (info : UIoTPubInfo)
      (normal : info.nodeState = .normal) (msgId : info.msgId = id) :
      Appends before id .publish
        { before with pubs := before.pubs ++ [(node, some info)] }
  | request (node : Nat) (info : UIoTSubInfo)
      (normal : info.nodeState = .normal) (msgId : info.msgId = id) :
      Appends before id (.request info.type)
        { before with subs := before.subs ++ [(node, some info)] }

/-- The request returns with these mutexes held.  If it has failed the lists
are as before, and otherwise they have the node of what is tracked, and are not
too long if they were not. -/
def Settles (held : List Lock) (before : Pending) (tracked : Tracked)
    (answer : Option (Answer UInt16)) : Prop :=
  ∃ after ret, answer = some (after, ret) ∧ after.client.held = held ∧
    match ret with
    | .error _ => after.Lists before
    | .ok id => ∃ lists, after.Lists lists ∧ before.Appends id tracked lists ∧
        (before.Bounded → lists.Bounded)

/-! ## Pushing and removing -/

section Nodes

variable {α : Type} {list : LinkedList α} {entries : List (Nat × α)}

/-- A length below a small bound. -/
theorem le_len_iff (consistent : list.Consistent entries) {bound : Nat}
    (small : bound < 2 ^ 32) :
    list.len ≥ UInt32.ofNat bound ↔ bound ≤ entries.length := by
  rw [ge_iff_le, UInt32.le_iff_toNat_le, UInt32.toNat_ofNat_of_lt' small,
    consistent.counts]

/-- A new node is pushed behind the others. -/
theorem pushNew_consistent (consistent : list.Consistent entries) {node : Nat}
    (free : list.nodes node = none) (val : α) {bound : Nat}
    (room : entries.length < bound) (small : bound < 2 ^ 32) :
    ∃ after, (list.listNodeNew node val).listRpush node = some after ∧
      after.Consistent (entries ++ [(node, val)]) := by
  obtain ⟨fresh, allocated⟩ :=
    LinkedList.listNodeNew_holds consistent.holds free val
  obtain ⟨after, pushed, still⟩ := LinkedList.listRpush_holds allocated
    (Function.update_self ..) fresh (room.trans small)
  refine ⟨after, pushed, still.consistent ?_⟩
  rw [List.length_append, List.length_singleton]
  exact Nat.lt_of_le_of_lt room small

/-- The last node is removed again. -/
theorem removeLast_consistent {entry : Nat × α}
    (consistent : list.Consistent (entries ++ [entry])) :
    ∃ after, list.listRemove entry.1 = some after ∧
      after.Consistent entries := by
  obtain ⟨after, removed, still, -⟩ :=
    LinkedList.listRemove_holds consistent.holds
  rw [List.append_nil] at still
  refine ⟨after, removed, still.consistent ?_⟩
  have small := consistent.small
  rw [List.length_append] at small
  exact Nat.lt_of_le_of_lt (Nat.le_add_right ..) small

end Nodes

section Requests

variable {s : NodeClient} {lists : Pending} {node : Nat}

theorem NodeClient.unlock_lock (s : NodeClient) (mutex : Lock) :
    (s.lock mutex).unlock mutex = s := by
  unfold NodeClient.unlock NodeClient.lock
  rw [Client.unlock, Client.lock, List.erase_cons_head]

/-- A publish is refused and nothing changes, or its node is pushed. -/
theorem maskPushPubInfoNode_cases {entries : List (Nat × Option UIoTPubInfo)}
    (consistent : s.pubs.Consistent entries)
    (free : s.pubs.nodes node = none) (len : Nat) (msgId : UInt16)
    (env : RequestEnv) :
    (∃ ret, maskPushPubInfoNode s len msgId env node =
      some (s, .error ret)) ∨
      entries.length < maxRepubNum ∧ ∃ pubs info,
        info.nodeState = .normal ∧ info.msgId = msgId ∧
        (s.pubs.listNodeNew node (some info)).listRpush node = some pubs ∧
        pubs.Consistent (entries ++ [(node, some info)]) ∧
        maskPushPubInfoNode s len msgId env node =
          some ({ s with pubs }, .ok node) := by
  have unlocked := s.unlock_lock .listPub
  have small : maxRepubNum < 2 ^ 32 := by decide
  have full_iff := le_len_iff consistent small
  unfold maskPushPubInfoNode
  dsimp only
  rw [unlocked]
  split
  · exact .inl ⟨_, rfl⟩
  split
  · exact .inl ⟨_, rfl⟩
  rename_i room
  have room : entries.length < maxRepubNum :=
    Nat.not_le.mp fun full => room (full_iff.mpr full)
  split
  · exact .inl ⟨_, rfl⟩
  split
  · exact .inl ⟨_, rfl⟩
  let info : UIoTPubInfo := ⟨node, .countdownMs s.client.clock
    s.client.commandTimeoutMs, .normal, msgId⟩
  obtain ⟨pubs, pushed, still⟩ :=
    pushNew_consistent consistent free (some info) room small
  refine .inr ⟨room, pubs, info, rfl, rfl, pushed, still, ?_⟩
  change ((LinkedList.listNodeNew s.pubs node (some info)).listRpush node).bind
    _ = _
  rw [pushed]
  exact congrArg (fun s => some (s, Except.ok node))
    (NodeClient.unlock_lock { s with pubs } .listPub)

/-- A request is refused and nothing changes, or its node is pushed. -/
theorem pushSubInfoNode_cases (listed : s.Lists lists)
    (free : s.subs.nodes node = none) (msgId : UInt16) (type : MessageTypes)
    (handler : SubTopicHandle) (env : RequestEnv) :
    (∃ ret, pushSubInfoNode s msgId type handler env node =
      some (s, .error ret)) ∨
      lists.subs.length < maxSubTopics ∧ ∃ subs info,
        info.nodeState = .normal ∧ info.msgId = msgId ∧ info.type = type ∧
        subs.Consistent (lists.subs ++ [(node, some info)]) ∧
        pushSubInfoNode s msgId type handler env node =
          some ({ s with subs }, .ok node) := by
  have unlocked := s.unlock_lock .listSub
  have small : maxSubTopics < 2 ^ 32 := by decide
  have full_iff := le_len_iff listed.subs small
  unfold pushSubInfoNode
  dsimp only
  rw [unlocked]
  split
  · exact .inl ⟨_, rfl⟩
  rename_i room
  have room : lists.subs.length < maxSubTopics :=
    Nat.not_le.mp fun full => room (full_iff.mpr full)
  split
  · exact .inl ⟨_, rfl⟩
  split
  · exact .inl ⟨_, rfl⟩
  let info : UIoTSubInfo := ⟨node, type, msgId, .countdownMs s.client.clock
    s.client.commandTimeoutMs, .normal, handler⟩
  obtain ⟨subs, pushed, consistent⟩ :=
    pushNew_consistent listed.subs free (some info) room small
  refine .inr ⟨room, subs, info, rfl, rfl, rfl, consistent, ?_⟩
  change ((LinkedList.listNodeNew s.subs node (some info)).listRpush node).bind
    _ = _
  rw [pushed]
  exact congrArg (fun s => some (s, Except.ok node))
    (NodeClient.unlock_lock { s with subs } .listSub)

/-- Taking a publish off its list removes its node. -/
theorem removePubNode_of_removed {pubs : InfoNodes UIoTPubInfo}
    (removed : s.pubs.listRemove node = some pubs) :
    removePubNode s node = some { s with pubs } := by
  change (s.pubs.listRemove node).bind _ = _
  rw [removed]
  exact congrArg some (NodeClient.unlock_lock { s with pubs } .listPub)

/-- Taking the last publish off its list. -/
theorem removePubNode_last {entries : List (Nat × Option UIoTPubInfo)}
    {entry : Nat × Option UIoTPubInfo}
    (consistent : s.pubs.Consistent (entries ++ [entry])) :
    ∃ pubs, removePubNode s entry.1 = some { s with pubs } ∧
      pubs.Consistent entries := by
  obtain ⟨pubs, removed, still⟩ := removeLast_consistent consistent
  exact ⟨pubs, removePubNode_of_removed removed, still⟩

/-- Taking the last request off its list. -/
theorem removeSubNode_last {entries : List (Nat × Option UIoTSubInfo)}
    {entry : Nat × Option UIoTSubInfo}
    (consistent : s.subs.Consistent (entries ++ [entry])) :
    ∃ subs, removeSubNode s entry.1 = some { s with subs } ∧
      subs.Consistent entries := by
  obtain ⟨subs, removed, still⟩ := removeLast_consistent consistent
  refine ⟨subs, ?_, still⟩
  change (s.subs.listRemove entry.1).bind _ = _
  rw [removed]
  exact congrArg some (NodeClient.unlock_lock { s with subs } .listSub)

/-! ## Requests settle -/

theorem sendMqttPacket_held (c : Client) (len : Nat)
    (writes : List WriteOutcome) :
    (sendMqttPacket c len writes).1.held = c.held := by
  rw [sendMqttPacket_fst]

/-- The mutex of the write buffer is released last. -/
theorem held_unlock_writeBuf {c : Client} {held : List Lock}
    (locked : c.held = .writeBuf :: held) :
    (c.unlock .writeBuf).held = held := by
  rw [Client.unlock, locked, List.erase_cons_head]

/-- A serialised publish settles. -/
theorem publishSerializedNode_settles (listed : s.Lists lists)
    (free : s.pubs.nodes node = none) {held : List Lock}
    (locked : s.client.held = .writeBuf :: held) (len : Nat) (id : UInt16)
    (qos : QoS) (env : RequestEnv) :
    Settles held lists (if qos = .qos0 then .nothing else .publish)
      (publishSerializedNode s len id qos env node) := by
  have released : ∀ c : Client,
      ((sendMqttPacket c len env.writes).1.unlock .writeBuf).held =
        (c.unlock .writeBuf).held := by
    intro c
    rw [Client.unlock, Client.unlock, sendMqttPacket_held]
  have free_held := held_unlock_writeBuf locked
  unfold publishSerializedNode
  split
  · have sent := released s.client
    split <;> rename_i send <;> rw [send] at sent
    · exact ⟨_, _, rfl, sent.trans free_held, lists,
        ⟨listed.pubs, listed.subs⟩, .nothing, fun bounded => bounded⟩
    · exact ⟨_, _, rfl, sent.trans free_held, listed.pubs, listed.subs⟩
  · rcases maskPushPubInfoNode_cases listed.pubs free len id env with
      ⟨ret, refused⟩ |
        ⟨room, pubs, info, normal, msgId, -, consistent, pushed⟩
    · rw [refused]
      exact ⟨_, _, rfl, free_held, listed.pubs, listed.subs⟩
    · rw [pushed]
      have sent := released s.client
      change Settles held lists .publish
        (match sendMqttPacket s.client len env.writes with
        | (client, .successRet) => _
        | (client, ret) => _)
      split
      · rename_i next send
        rw [send] at sent
        have longer : (lists.pubs ++ [(node, some info)]).length ≤
            maxRepubNum := by
          rw [List.length_append, List.length_singleton]
          exact room
        exact ⟨_, _, rfl, sent.trans free_held,
          ⟨lists.pubs ++ [(node, some info)], lists.subs⟩,
          ⟨consistent, listed.subs⟩, .publish node info normal msgId,
          fun bounded => ⟨longer, bounded.subs⟩⟩
      · rename_i next ret _ send
        rw [send] at sent
        obtain ⟨fewer, removed, still⟩ :=
          removePubNode_last (s := ⟨next, pubs, s.subs⟩) consistent
        refine ⟨(⟨next, fewer, s.subs⟩ : NodeClient).unlock .writeBuf,
          .error ret, ?_, sent.trans free_held, still, listed.subs⟩
        change (removePubNode ⟨next, pubs, s.subs⟩ node).bind _ = _
        rw [removed]
        rfl

/-- A request that is refused leaves everything as it is. -/
theorem settles_refused (listed : s.Lists lists) (tracked : Tracked)
    (ret : IoTError) :
    Settles s.client.held lists tracked (some (s, .error ret)) :=
  ⟨s, .error ret, rfl, rfl, listed⟩

/-- Every publish settles. -/
theorem uiotMqttPublishNode_settles (listed : s.Lists lists)
    (free : s.pubs.nodes node = none) (topicName : CString)
    (params : PublishParams) (env : RequestEnv) :
    Settles s.client.held lists
      (if params.qos = .qos0 then .nothing else .publish)
      (uiotMqttPublishNode s topicName params env node) := by
  have refused := fun ret => settles_refused listed
    (if params.qos = .qos0 then .nothing else .publish) ret
  unfold uiotMqttPublishNode
  by_cases empty : topicName.bytes = []
  · rw [if_pos empty]
    exact refused _
  rw [if_neg empty]
  by_cases long : topicName.bytes.length > maxSizeOfCloudTopic
  · rw [if_pos long]
    exact refused _
  rw [if_neg long]
  by_cases two : params.qos = .qos2
  · rw [if_pos two]
    exact refused _
  rw [if_neg two]
  by_cases offline : (!s.client.isConnected) = true
  · rw [if_pos offline]
    exact refused _
  rw [if_neg offline]
  dsimp only
  have locked : (if params.qos = .qos1 then
      getNextPacketId (s.lock .writeBuf).client
      else (s.lock .writeBuf).client).held = .writeBuf :: s.client.held := by
    split <;> rfl
  generalize (if params.qos = .qos1 then
    getNextPacketId (s.lock .writeBuf).client
    else (s.lock .writeBuf).client) = client at locked ⊢
  generalize (if params.qos = .qos1 then client.nextPacketId else params.id) =
    id
  cases serializePublishPacket client.writeBuf uiotMqttTxBufLen 0 params.qos
      params.retained id topicName params.payload with
  | error ret =>
      exact ⟨_, _, rfl, held_unlock_writeBuf locked, listed.pubs, listed.subs⟩
  | ok packet =>
      have still : NodeClient.Lists
          ⟨{ client with writeBuf := packet.1 }, s.pubs, s.subs⟩ lists :=
        ⟨listed.pubs, listed.subs⟩
      exact publishSerializedNode_settles still free locked ..

/-- A serialised request settles. -/
theorem requestSerializedNode_settles (listed : s.Lists lists)
    (free : s.subs.nodes node = none) {held : List Lock}
    (locked : s.client.held = .writeBuf :: held) (len : Nat)
    (packetId : UInt16) (type : MessageTypes) (handler : SubTopicHandle)
    (env : RequestEnv) :
    Settles held lists (.request type)
      (requestSerializedNode s len packetId type handler env node) := by
  have free_held := held_unlock_writeBuf locked
  unfold requestSerializedNode
  rcases pushSubInfoNode_cases listed free packetId type handler env with
    ⟨ret, refused⟩ | ⟨room, subs, info, normal, msgId, rfl, consistent, pushed⟩
  · rw [refused]
    exact ⟨_, _, rfl, free_held, listed.pubs, listed.subs⟩
  rw [pushed]
  have sent : ((sendMqttPacket s.client len env.writes).1.unlock .writeBuf).held
      = (s.client.unlock .writeBuf).held := by
    rw [Client.unlock, Client.unlock, sendMqttPacket_held]
  change Settles held lists (.request info.type)
    (match sendMqttPacket s.client len env.writes with
    | (client, .successRet) => _
    | (client, ret) => _)
  split
  · rename_i next send
    rw [send] at sent
    have longer : (lists.subs ++ [(node, some info)]).length ≤
        maxSubTopics := by
      rw [List.length_append, List.length_singleton]
      exact room
    exact ⟨_, _, rfl, sent.trans free_held,
      ⟨lists.pubs, lists.subs ++ [(node, some info)]⟩,
      ⟨listed.pubs, consistent⟩, .request node info normal msgId,
      fun bounded => ⟨bounded.pubs, longer⟩⟩
  · rename_i next ret _ send
    rw [send] at sent
    obtain ⟨fewer, removed, still⟩ :=
      removeSubNode_last (s := ⟨next, s.pubs, subs⟩) consistent
    refine ⟨((⟨next, s.pubs, fewer⟩ : NodeClient).unlock .writeBuf).free
      handler.topicFilter, .error ret, ?_, sent.trans free_held, listed.pubs,
      still⟩
    change (removeSubNode ⟨next, s.pubs, subs⟩ node).bind _ = _
    rw [removed]
    rfl

/-- A request with a filter that has passed the checks settles. -/
theorem requestStoredNode_settles (listed : s.Lists lists)
    (free : s.subs.nodes node = none) (topicFilter : CString)
    (type : MessageTypes)
    (serialize : Memory → UInt16 → CString → Except IoTError (Memory × Nat))
    (handler : StoredString → SubTopicHandle) (env : RequestEnv) :
    Settles s.client.held lists (.request type)
      (requestStoredNode s topicFilter type serialize handler env node) := by
  unfold requestStoredNode
  split
  · exact settles_refused listed ..
  dsimp only [storeFilter]
  split
  · exact ⟨_, _, rfl, held_unlock_writeBuf rfl, listed.pubs, listed.subs⟩
  · rename_i writeBuf len _
    have still : NodeClient.Lists
        ⟨{ getNextPacketId (Client.lock
            { s.client with heapTop := s.client.heapTop + 1 } .writeBuf) with
          writeBuf }, s.pubs, s.subs⟩ lists := ⟨listed.pubs, listed.subs⟩
    exact requestSerializedNode_settles still free rfl ..

/-- Every subscription settles. -/
theorem uiotMqttSubscribeNode_settles (listed : s.Lists lists)
    (free : s.subs.nodes node = none) (topicFilter : CString)
    (params : SubscribeParams) (env : RequestEnv) :
    Settles s.client.held lists (.request .subscribe)
      (uiotMqttSubscribeNode s topicFilter params env node) := by
  unfold uiotMqttSubscribeNode
  split
  · exact settles_refused listed ..
  split
  · exact settles_refused listed ..
  split
  · exact settles_refused listed ..
  split
  · exact settles_refused listed ..
  · exact requestStoredNode_settles listed free ..

theorem clearSlots_held (topicFilter : CString)
    (slots : List (Fin maxSubTopics)) (c : Client) (suberExists : Bool) :
    (clearSlots topicFilter slots c suberExists).1.held = c.held := by
  induction slots generalizing c suberExists with
  | nil => rfl
  | cons i slots inductionHypothesis =>
      unfold clearSlots
      split
      · dsimp only
        rw [inductionHypothesis]
        rfl
      · exact inductionHypothesis ..

/-- Every unsubscription settles. -/
theorem uiotMqttUnsubscribeNode_settles (listed : s.Lists lists)
    (free : s.subs.nodes node = none) (topicFilter : CString)
    (env : RequestEnv) :
    Settles s.client.held lists (.request .unsubscribe)
      (uiotMqttUnsubscribeNode s topicFilter env node) := by
  unfold uiotMqttUnsubscribeNode
  split
  · exact settles_refused listed ..
  split
  · exact settles_refused listed ..
  have cleared := clearSlots_held topicFilter (List.finRange maxSubTopics)
    (s.client.lock .generic) false
  generalize clearSlots topicFilter (List.finRange maxSubTopics)
    (s.client.lock .generic) false = clear at cleared ⊢
  obtain ⟨next, suberExists⟩ := clear
  have unlocked : (next.unlock .generic).held = s.client.held := by
    rw [Client.unlock, cleared, Client.lock, List.erase_cons_head]
  dsimp only
  rw [← unlocked]
  have still : (({ s with client := next } : NodeClient).unlock .generic).Lists
      lists := ⟨listed.pubs, listed.subs⟩
  split
  · exact settles_refused still ..
  split
  · exact settles_refused still ..
  · exact requestStoredNode_settles still free ..

/-- Whatever the state of the client and its lists, a publish, a subscription
and an unsubscription settle. -/
theorem requests_settle (listed : s.Lists lists)
    (free : s.pubs.nodes node = none ∧ s.subs.nodes node = none)
    (topic : CString) (env : RequestEnv) :
    (∀ params : PublishParams, Settles s.client.held lists
      (if params.qos = .qos0 then .nothing else .publish)
      (uiotMqttPublishNode s topic params env node)) ∧
      (∀ params : SubscribeParams, Settles s.client.held lists
        (.request .subscribe)
        (uiotMqttSubscribeNode s topic params env node)) ∧
      Settles s.client.held lists (.request .unsubscribe)
        (uiotMqttUnsubscribeNode s topic env node) :=
  ⟨fun params => uiotMqttPublishNode_settles listed free.1 topic params env,
    fun params => uiotMqttSubscribeNode_settles listed free.2 topic params env,
    uiotMqttUnsubscribeNode_settles listed free.2 topic env⟩

end Requests

/-- A list of two nodes. -/
def twoNodes {α : Type} (first second : α) : LinkedList α where
  nodes
    | 1 => some ⟨none, some 2, first⟩
    | 2 => some ⟨some 1, none, second⟩
    | _ => none
  head := some 1
  tail := some 2
  len := 2

theorem twoNodes_consistent {α : Type} (first second : α) :
    (twoNodes first second).Consistent [(1, first), (2, second)] where
  holds :=
    { ring :=
        { chain := .cons_cons ⟨rfl, rfl⟩
            (.cons_cons ⟨rfl, rfl⟩ (.cons_cons ⟨rfl, rfl⟩ (.singleton _)))
          distinct := by simp }
      value := by simp [twoNodes]
      len := rfl }
  counts := rfl

/-- The filter of the requests below. -/
def filterA : StoredString := ⟨0, ⟨[97], by decide⟩⟩

/-- Two publishes, a subscription and its cancellation that are not answered
yet. -/
def unanswered : Pending where
  pubs :=
    [(1, some ⟨1, .countdownMs 0 2000, .normal, 2⟩),
      (2, some ⟨2, .countdownMs 0 2000, .normal, 3⟩)]
  subs :=
    [(1, some ⟨1, .subscribe, 4, .countdownMs 0 2000, .normal,
        ⟨some filterA, some 9, 0, .qos1⟩⟩),
      (2, some ⟨2, .unsubscribe, 5, .countdownMs 0 2000, .normal,
        ⟨some filterA, none, 0, .qos0⟩⟩)]

/-- A connected client that waits for their answers, and has the filter in its
first slot. -/
def waitingClient : NodeClient where
  client :=
    { uiotMqttInit ⟨2000, true⟩ 0 with
      isConnected := true
      nextPacketId := 5
      subHandles := fun slot =>
        if slot.val = 0 then ⟨some filterA, some 9, 0, .qos1⟩ else .zero }
  pubs := twoNodes (some ⟨1, .countdownMs 0 2000, .normal, 2⟩)
    (some ⟨2, .countdownMs 0 2000, .normal, 3⟩)
  subs := twoNodes
    (some ⟨1, .subscribe, 4, .countdownMs 0 2000, .normal,
      ⟨some filterA, some 9, 0, .qos1⟩⟩)
    (some ⟨2, .unsubscribe, 5, .countdownMs 0 2000, .normal,
      ⟨some filterA, none, 0, .qos0⟩⟩)

/-- Its requests settle, and succeed with the identifier 6 if the packet is
taken. -/
theorem requests_settle_waiting :
    (∀ env : RequestEnv,
      (∀ params : PublishParams, Settles [] unanswered
        (if params.qos = .qos0 then .nothing else .publish)
        (uiotMqttPublishNode waitingClient filterA.text params env 3)) ∧
        (∀ params : SubscribeParams, Settles [] unanswered
          (.request .subscribe)
          (uiotMqttSubscribeNode waitingClient filterA.text params env 3)) ∧
        Settles [] unanswered (.request .unsubscribe)
          (uiotMqttUnsubscribeNode waitingClient filterA.text env 3)) ∧
      let taken : RequestEnv := ⟨true, true, true, [.accepted 32], .qos0⟩
      (uiotMqttPublishNode waitingClient filterA.text ⟨.qos1, 0, 0, some [7]⟩
        taken 3).map Prod.snd = some (.ok 6) ∧
        (uiotMqttSubscribeNode waitingClient filterA.text ⟨.qos1, some 9, 0⟩
          taken 3).map Prod.snd = some (.ok 6) ∧
        (uiotMqttUnsubscribeNode waitingClient filterA.text taken 3).map
          Prod.snd = some (.ok 6) := by
  refine ⟨fun env => ?_, rfl, rfl, rfl⟩
  exact requests_settle
    ⟨twoNodes_consistent _ _, twoNodes_consistent _ _⟩ ⟨rfl, rfl⟩
    filterA.text env

end Mqtt
end UIoT
