import UIoT.Mqtt.HandleTable

/-!
# The outcomes of subscriptions and cancellations

Every acknowledged request should end with one event before its node leaves the
list, and a subscription that succeeds should have its handler in the table.
The books of the requests are a ledger as long as every acknowledgement finds a
node of its kind that waits, and the table has room for what is granted.
-/

namespace UIoT
namespace Mqtt

/-! ## The ledger -/

/-- What a request is answered by: its kind and its identifier. -/
inductive Requested
  | subscribe (packetId : UInt16)
  | unsubscribe (packetId : UInt16)
  deriving DecidableEq, Repr

/-- The request a node waits for. -/
def UIoTSubInfo.requested (info : UIoTSubInfo) : Requested :=
  if info.type = .subscribe then .subscribe info.msgId
  else .unsubscribe info.msgId

/-- The request whose outcome the event is. -/
def MQTTEvent.requestOutcome : MQTTEvent → Option Requested
  | subscribeSuccess packetId => some (.subscribe packetId)
  | subscribeNack packetId => some (.subscribe packetId)
  | subscribeTimeout packetId => some (.subscribe packetId)
  | unsubscribeSuccess packetId => some (.unsubscribe packetId)
  | unsubscribeTimeout packetId => some (.unsubscribe packetId)
  | _ => none

/-- The node as a request of a ledger. -/
def UIoTSubInfo.entry (info : UIoTSubInfo) :
    Ledger.Entry Requested (Timer × SubTopicHandle) where
  key := info.address
  name := info.requested
  waits := info.waits
  note := (info.subStartTime, info.handler)

/-- The requests and their outcomes. -/
def Books.subLedger (b : Books) :
    Ledger.State Requested (Timer × SubTopicHandle) where
  entries := b.listSubWaitAck.map UIoTSubInfo.entry
  outcomes := b.events.filterMap MQTTEvent.requestOutcome
  next := b.heapTop

@[simp] theorem UIoTSubInfo.requested_mask (packetId : UInt16)
    (info : UIoTSubInfo) : (info.mask packetId).requested = info.requested := by
  simp [requested]

theorem UIoTSubInfo.requested_of_subscribe {info : UIoTSubInfo}
    (type : info.type = .subscribe) :
    info.requested = .subscribe info.msgId := if_pos type

theorem UIoTSubInfo.requested_of_unsubscribe {info : UIoTSubInfo}
    (type : info.type = .unsubscribe) :
    info.requested = .unsubscribe info.msgId := if_neg (by simp [type])

/-- Nodes for the same request have the same identifier. -/
theorem UIoTSubInfo.msgId_eq_of_requested {first second : UIoTSubInfo}
    (same : first.requested = second.requested) :
    first.msgId = second.msgId := by
  unfold requested at same
  split at same <;> split at same <;> injection same

/-- An expired request has its timeout as outcome. -/
theorem UIoTSubInfo.requestOutcome_timeoutEvent (info : UIoTSubInfo) :
    info.timeoutEvent.requestOutcome = some info.requested := by
  unfold timeoutEvent requested
  split <;> rfl

/-- Where all nodes with the identifier are for one request, marking them is
answering it. -/
theorem UIoTSubInfo.entry_mask {packetId : UInt16} {requested : Requested}
    (info : UIoTSubInfo)
    (carries : info.msgId = packetId ↔ info.requested = requested) :
    (info.mask packetId).entry = info.entry.answer requested := by
  unfold UIoTSubInfo.mask Ledger.Entry.answer
  by_cases named : info.requested = requested
  · rw [if_pos (carries.mpr named),
      if_pos (show info.entry.name = requested from named)]
    rfl
  · rw [if_neg fun same => named (carries.mp same),
      if_neg (show info.entry.name ≠ requested from named)]

theorem requestOutcome_of_not_isRequestEvent {event : MQTTEvent}
    (other : event.isRequestEvent = false) : event.requestOutcome = none := by
  cases event <;> first | rfl | simp [MQTTEvent.isRequestEvent] at other

namespace Books

/-- Nothing changes in the ledger but the first free key. -/
theorem subLedger_idle {b after : Books}
    (nodes : after.listSubWaitAck = b.listSubWaitAck)
    (outcomes : after.events.filterMap MQTTEvent.requestOutcome =
      b.events.filterMap MQTTEvent.requestOutcome)
    (heap : b.heapTop ≤ after.heapTop) :
    Ledger.LooseStep b.subLedger after.subLedger := by
  have same : after.subLedger =
      { b.subLedger with next := after.heapTop } := by
    unfold subLedger
    rw [nodes, outcomes]
  rw [same]
  exact .step (.idle _ heap)

/-- A request that is tracked is entered. -/
theorem subLedger_request {b after : Books} {info : UIoTSubInfo}
    (tracks : b.TracksRequest after info)
    (fresh : b.NoCarrier (nextId b.nextPacketId)) :
    Ledger.LooseStep b.subLedger after.subLedger := by
  have entered : after.subLedger =
      { b.subLedger with
        entries := b.subLedger.entries ++ [info.entry]
        next := after.heapTop } := by
    unfold subLedger
    rw [tracks.listSubWaitAck, tracks.events, List.map_append]
    rfl
  rw [entered]
  refine .step (.enter info.entry _ ?_ tracks.address ?_)
  · simp [UIoTSubInfo.entry, UIoTSubInfo.waits, tracks.nodeState]
  · intro entry listed same
    obtain ⟨other, otherListed, rfl⟩ := List.mem_map.mp listed
    refine fresh other otherListed ?_
    rw [← tracks.msgId]
    exact UIoTSubInfo.msgId_eq_of_requested same

/-- An acknowledgement of the nodes with an identifier, which are all for one
request, answers that request. -/
theorem subLedger_answer {b after : Books} {info : UIoTSubInfo}
    {event : MQTTEvent}
    (listed : info ∈ b.listSubWaitAck) (normal : info.nodeState = .normal)
    (carriers : ∀ other ∈ b.listSubWaitAck,
      other.msgId = info.msgId → other.requested = info.requested)
    (nodes : after.listSubWaitAck =
      b.listSubWaitAck.map (UIoTSubInfo.mask info.msgId))
    (events : after.events = b.events ++ [event])
    (outcome : event.requestOutcome = some info.requested)
    (heap : after.heapTop = b.heapTop) :
    Ledger.LooseStep b.subLedger after.subLedger := by
  have answered : after.subLedger =
      { b.subLedger with
        entries := b.subLedger.entries.map
          (Ledger.Entry.answer info.entry.name)
        outcomes := b.subLedger.outcomes ++ [info.entry.name] } := by
    apply Ledger.State.ext
    · change after.listSubWaitAck.map UIoTSubInfo.entry =
        (b.listSubWaitAck.map UIoTSubInfo.entry).map _
      rw [nodes, List.map_map, List.map_map]
      apply List.map_congr_left
      intro other otherListed
      exact other.entry_mask
        ⟨carriers other otherListed, UIoTSubInfo.msgId_eq_of_requested⟩
    · change List.filterMap _ _ = List.filterMap _ _ ++ _
      rw [events, List.filterMap_append, List.filterMap_cons_some outcome]
      rfl
    · exact heap
  rw [answered]
  refine .step (.answer info.entry (List.mem_map_of_mem listed) ?_)
  simp [UIoTSubInfo.entry, UIoTSubInfo.waits, normal]

/-- Every listed node has the filter of its request. -/
def Filtered (b : Books) : Prop :=
  ∀ info ∈ b.listSubWaitAck, info.handler.topicFilter ≠ none

/-- The nodes with the identifier of a SUBACK are subscriptions that wait, and
if they are granted the table has room for their handlers. -/
def SubackAwaited (b : Books) (packet : SubackPacket) : Prop :=
  ∀ info ∈ b.listSubWaitAck, info.msgId = packet.packetId →
    info.nodeState = .normal ∧ info.type = .subscribe ∧
      (subNack packet = true ∨ b.HasRoomFor info.handler)

/-- The nodes with the identifier of an UNSUBACK can be walked and are
cancellations that wait. -/
def UnsubackAwaited (b : Books) (packetId : UInt16)
    (iteratorAllocated : Bool) : Prop :=
  ∀ info ∈ b.listSubWaitAck, info.msgId = packetId →
    iteratorAllocated = true ∧ info.nodeState = .normal ∧
      info.type = .unsubscribe

/-- A SUBACK that finds nothing changes nothing. -/
theorem suback_of_noCarrier {b : Books} {packet : SubackPacket}
    {iteratorAllocated : Bool}
    (none : iteratorAllocated = true → b.NoCarrier packet.packetId) :
    b.suback packet iteratorAllocated = b := by
  obtain ⟨unmarked, initial⟩ := maskSub_of_noCarrier none
  rw [suback, unmarked, initial, install_of_none _ rfl]

/-- A SUBACK changes nothing, or it marks nodes and installs the handler of
one. -/
theorem suback_cases (b : Books) (packet : SubackPacket)
    (iteratorAllocated : Bool) :
    b.suback packet iteratorAllocated = b ∨
      iteratorAllocated = true ∧ ∃ info ∈ b.listSubWaitAck,
        info.msgId = packet.packetId ∧
          (b.maskSub packet.packetId true).Installs packet.packetId
            info.handler (subNack packet)
            (b.suback packet iteratorAllocated) := by
  cases iteratorAllocated with
  | false => exact .inl (suback_of_noCarrier fun allocated => by
      simp at allocated)
  | true =>
      rcases b.maskedHandler_cases packet.packetId .zero true with
        ⟨unwalked | nothing, -⟩ | ⟨info, listed, carries, handler⟩
      · exact absurd unwalked (by simp)
      · exact .inl (suback_of_noCarrier fun _ =>
          carriers_eq_nil_iff.mp nothing)
      · refine .inr ⟨rfl, info, listed, carries, ?_⟩
        rw [suback, handler]
        exact install_installs ..

/-- A SUBACK that is awaited answers a subscription. -/
theorem subLedger_suback {b : Books} {packet : SubackPacket}
    {iteratorAllocated : Bool} (filtered : b.Filtered)
    (listens : b.eventHandler = true)
    (awaited : iteratorAllocated = true → b.SubackAwaited packet) :
    Ledger.LooseStep b.subLedger
      (b.suback packet iteratorAllocated).subLedger := by
  rcases b.suback_cases packet iteratorAllocated with
    same | ⟨rfl, info, listed, carries, installs⟩
  · rw [same]
    exact subLedger_idle rfl rfl (Nat.le_refl _)
  obtain ⟨normal, type, room⟩ := awaited rfl info listed carries
  have events := installs.events listens (filtered info listed) room
  apply subLedger_answer listed normal
  · intro other otherListed same
    obtain ⟨-, otherType, -⟩ :=
      awaited rfl other otherListed (same.trans carries)
    rw [UIoTSubInfo.requested_of_subscribe otherType,
      UIoTSubInfo.requested_of_subscribe type, same]
  · rw [suback_listSubWaitAck, carries]
    rfl
  · exact events
  · rw [UIoTSubInfo.requested_of_subscribe type, carries]
    split <;> rfl
  · exact (b.suback_frame packet true).2

/-- An UNSUBACK that is awaited answers a cancellation, and one that finds
nothing answers nobody. -/
theorem subLedger_unsuback {b : Books} {packetId : UInt16}
    {staleHandle : SubTopicHandle} {iteratorAllocated : Bool}
    (listens : b.eventHandler = true)
    (awaited : b.UnsubackAwaited packetId iteratorAllocated) :
    Ledger.LooseStep b.subLedger
      (b.unsuback packetId staleHandle iteratorAllocated).subLedger := by
  obtain ⟨-, heap, raised⟩ :=
    b.unsuback_frame packetId staleHandle iteratorAllocated
  rw [raise_events b listens] at raised
  have nodes :
      (b.unsuback packetId staleHandle iteratorAllocated).listSubWaitAck =
        (b.maskSub packetId iteratorAllocated).listSubWaitAck := rfl
  by_cases none : b.NoCarrier packetId
  · have stray :
        (b.unsuback packetId staleHandle iteratorAllocated).subLedger =
          { b.subLedger with
            outcomes := b.subLedger.outcomes ++ [.unsubscribe packetId] } := by
      apply Ledger.State.ext
      · change List.map _ _ = List.map _ _
        rw [nodes, (maskSub_of_noCarrier fun _ => none).1]
      · change List.filterMap _ _ = List.filterMap _ _ ++ _
        rw [raised, List.filterMap_append]
        rfl
      · exact heap
    rw [stray]
    refine .stray _ fun entry listed same => ?_
    obtain ⟨info, infoListed, rfl⟩ := List.mem_map.mp listed
    apply none info infoListed
    change info.requested = _ at same
    unfold UIoTSubInfo.requested at same
    split at same <;> injection same
  · obtain ⟨info, listed, carries⟩ :
        ∃ info ∈ b.listSubWaitAck, info.msgId = packetId := by
      simpa [NoCarrier] using none
    obtain ⟨allocated, normal, type⟩ := awaited info listed carries
    apply subLedger_answer listed normal
    · intro other otherListed same
      obtain ⟨-, -, otherType⟩ :=
        awaited other otherListed (same.trans carries)
      rw [UIoTSubInfo.requested_of_unsubscribe otherType,
        UIoTSubInfo.requested_of_unsubscribe type, same]
    · rw [nodes, allocated, carries]
      rfl
    · exact raised
    · rw [UIoTSubInfo.requested_of_unsubscribe type, carries]
      rfl
    · exact heap

end Books

/-- A sweep of the subscribe list sweeps the ledger. -/
theorem subLedger_sweepSub (c : Client) (listens : c.eventHandler = true) :
    Ledger.LooseStep c.books.subLedger
      (c.books.sweepSub (subWaitAck.stays c)
        (subWaitAck.expires c)).subLedger := by
  have swept : (c.books.sweepSub (subWaitAck.stays c)
      (subWaitAck.expires c)).subLedger =
        { c.books.subLedger with
          entries := (c.listSubWaitAck.filter (subWaitAck.stays c)).map
            UIoTSubInfo.entry
          outcomes := c.books.subLedger.outcomes ++
            (c.listSubWaitAck.reverse.filter (subWaitAck.expires c)).map
              UIoTSubInfo.requested } := by
    apply Ledger.State.ext
    · rfl
    · have events : (c.books.sweepSub (subWaitAck.stays c)
          (subWaitAck.expires c)).events = c.events ++
            (c.listSubWaitAck.reverse.filter (subWaitAck.expires c)).map
              UIoTSubInfo.timeoutEvent := if_pos listens
      have outcomes : MQTTEvent.requestOutcome ∘ UIoTSubInfo.timeoutEvent =
          fun info => some info.requested := by
        funext info
        exact info.requestOutcome_timeoutEvent
      change List.filterMap _ _ = List.filterMap _ _ ++ _
      rw [events, List.filterMap_append, List.filterMap_map, outcomes]
      exact congrArg _ (congrFun List.filterMap_eq_map' _)
    · rfl
  rw [swept]
  exact .step (subWaitAck.sweepsLedger c Prod.fst (fun info => rfl)
    (fun info => rfl) _ _)

/-! ## Steps -/

/-- What a step that is in order meets: a request gets an identifier no listed
node carries, and an acknowledgement finds what it is for. -/
def RequestAwaited (c : Client) : Op → Prop
  | .subscribe topicFilter params env =>
      SubscribeTracked c topicFilter params env →
        c.books.NoCarrier (nextId c.nextPacketId)
  | .unsubscribe topicFilter env =>
      UnsubscribeTracked c topicFilter env →
        c.books.NoCarrier (nextId c.nextPacketId)
  | .cycle env =>
      (∀ packet, c.received env = .suback packet →
          env.iteratorAllocated = true → c.books.SubackAwaited packet) ∧
        ∀ packetId, c.received env = .unsuback packetId →
          c.books.UnsubackAwaited packetId env.iteratorAllocated
  | _ => True

namespace Books

/-- Every effect of a step that is in order is a step of the ledger. -/
theorem Effect.subLedger {c : Client} {op : Op} {after : Books}
    (effect : Effect c op after) (ordered : c.books.HeapOrdered)
    (filtered : c.books.Filtered) (listens : c.eventHandler = true)
    (awaited : RequestAwaited c op) :
    Ledger.LooseStep c.books.subLedger after.subLedger := by
  cases effect with
  | publish _ tracks =>
      exact subLedger_idle tracks.listSubWaitAck (congrArg _ tracks.events)
        (tracks.address.1.trans tracks.address.2.le)
  | subscribe tracked tracks _ =>
      exact subLedger_request tracks (awaited tracked)
  | unsubscribe tracked tracks =>
      exact subLedger_request tracks (awaited tracked)
  | untracked _ nothing =>
      exact subLedger_idle (nothing.listSubWaitAck ordered)
        (congrArg _ nothing.events) nothing.heapTop
  | sweepPub =>
      refine subLedger_idle rfl ?_ (Nat.le_refl _)
      change List.filterMap _ (if c.eventHandler then _ else _) = _
      rw [if_pos listens]
      refine filterMap_append_of_none _ _ fun event mem => ?_
      obtain ⟨info, -, rfl⟩ := List.mem_map.mp mem
      rfl
  | sweepSub => exact subLedger_sweepSub c listens
  | kept _ kept =>
      obtain ⟨more, rfl, others⟩ := kept
      exact subLedger_idle rfl (filterMap_append_of_none _ _
        fun event mem => requestOutcome_of_not_isRequestEvent
          (others event mem)) (Nat.le_refl _)
  | @cycle env _ receives =>
      generalize received_eq : c.received env = received at receives
      cases received with
      | puback packetId =>
          rw [show after = _ from receives]
          exact subLedger_idle rfl (filterMap_raise _ _ rfl) (Nat.le_refl _)
      | suback packet =>
          rw [show after = _ from receives]
          exact subLedger_suback filtered listens
            (awaited.1 packet received_eq)
      | unsuback packetId =>
          rw [show after = _ from receives]
          exact subLedger_unsuback listens (awaited.2 packetId received_eq)
      | other =>
          obtain ⟨more, rfl, others⟩ := receives
          exact subLedger_idle rfl (filterMap_append_of_none _ _
            fun event mem => requestOutcome_of_not_isRequestEvent
              (others event mem)) (Nat.le_refl _)

/-- Marking keeps the filters of the nodes. -/
theorem Filtered.maskSub {b : Books} (filtered : b.Filtered)
    (packetId : UInt16) (iteratorAllocated : Bool) :
    (b.maskSub packetId iteratorAllocated).Filtered := by
  intro info listed
  rw [maskSub_frame] at listed
  dsimp only at listed
  split at listed
  · obtain ⟨old, oldListed, rfl⟩ := List.mem_map.mp listed
    rw [UIoTSubInfo.handler_mask]
    exact filtered old oldListed
  · exact filtered info listed

/-- A tracked request has a filter. -/
theorem Filtered.tracksRequest {b after : Books} {info : UIoTSubInfo}
    (filtered : b.Filtered) (tracks : b.TracksRequest after info) :
    after.Filtered := by
  intro other listed
  rw [tracks.listSubWaitAck, List.mem_append, List.mem_singleton] at listed
  rcases listed with old | rfl
  · exact filtered other old
  · exact tracks.topicFilter

/-- Every effect keeps the filters of the nodes. -/
theorem Effect.filtered {c : Client} {op : Op} {after : Books}
    (effect : Effect c op after) (ordered : c.books.HeapOrdered)
    (filtered : c.books.Filtered) : after.Filtered := by
  have of_eq : after.listSubWaitAck = c.listSubWaitAck → after.Filtered := by
    intro same info listed
    rw [same] at listed
    exact filtered info listed
  cases effect with
  | publish _ tracks => exact of_eq tracks.listSubWaitAck
  | subscribe _ tracks _ => exact filtered.tracksRequest tracks
  | unsubscribe _ tracks => exact filtered.tracksRequest tracks
  | untracked _ nothing => exact of_eq (nothing.listSubWaitAck ordered)
  | sweepPub => exact filtered
  | sweepSub =>
      exact fun info listed => filtered info (List.mem_of_mem_filter listed)
  | kept _ kept =>
      obtain ⟨_, rfl, -⟩ := kept
      exact filtered
  | @cycle env _ receives =>
      generalize c.received env = received at receives
      cases received with
      | puback packetId =>
          rw [show after = _ from receives]
          exact filtered
      | suback packet =>
          rw [show after = _ from receives]
          intro info listed
          rw [suback_listSubWaitAck] at listed
          exact filtered.maskSub _ _ info listed
      | unsuback packetId =>
          rw [show after = _ from receives]
          exact filtered.maskSub packetId env.iteratorAllocated
      | other =>
          obtain ⟨_, rfl, -⟩ := receives
          exact filtered

end Books

/-! ## Runs -/

/-- The node at the address is listed. -/
def Client.Lists (c : Client) (address : Nat) : Prop :=
  ∃ info ∈ c.listSubWaitAck, info.address = address

/-- The event is the outcome of the request. -/
def MQTTEvent.settles (requested : Requested) (event : MQTTEvent) : Bool :=
  event.requestOutcome == some requested

/-- The step leaves a listed request with at most one outcome, and with exactly
one if its node leaves the list.  If the outcome is that the subscription
succeeds, then a slot holds its handler. -/
def SettlesOnce (entered : Client) (request : UIoTSubInfo) (c : Client)
    (op : Op) : Prop :=
  c.Lists request.address →
    let outcomes := (entered.raisedUntil (c.step op)).countP
      (MQTTEvent.settles request.requested)
    outcomes ≤ 1 ∧
      (¬(c.step op).Lists request.address → outcomes = 1) ∧
      ∀ packetId, request.requested = .subscribe packetId →
        .subscribeSuccess packetId ∈ c.raisedUntil (c.step op) →
          (c.step op).books.Holds request.handler

/-- A request that was given an identifier is listed and settled once. -/
def RequestSettled (c : Client) (op : Op) (answer : Except IoTError UInt16)
    (requested : UInt16 → Requested) (request : UIoTSubInfo)
    (after : List Op) : Prop :=
  ∀ packetId, answer = .ok packetId →
    request.requested = requested packetId ∧
      request ∈ (c.step op).listSubWaitAck ∧
      Machine.Along Client.step (SettlesOnce (c.step op) request) (c.step op)
        after

/-- A subscription succeeds only for a listed node that waits, whose handler is
then in the table. -/
def SuccessHeld (c : Client) (op : Op) : Prop :=
  ∀ packetId, .subscribeSuccess packetId ∈ c.raisedUntil (c.step op) →
    ∃ info ∈ c.listSubWaitAck,
      info.requested = .subscribe packetId ∧ info.nodeState = .normal ∧
        (c.step op).books.Holds info.handler

/-- All requests of a run are settled, and every success is held. -/
structure RequestsSettled (start : Client) (labels : List Op) : Prop where
  subscribe : ∀ before topicFilter params env after,
    labels = before ++ .subscribe topicFilter params env :: after →
      let c := Machine.run Client.step start before
      RequestSettled c (.subscribe topicFilter params env)
        (uiotMqttSubscribe c topicFilter params env).2 .subscribe
        (c.subscribeInfo topicFilter params) after
  unsubscribe : ∀ before topicFilter env after,
    labels = before ++ .unsubscribe topicFilter env :: after →
      let c := Machine.run Client.step start before
      RequestSettled c (.unsubscribe topicFilter env)
        (uiotMqttUnsubscribe c topicFilter env).2 .unsubscribe
        (c.unsubscribeInfo topicFilter env) after
  held : Machine.Along Client.step SuccessHeld start labels

/-- The ledger is in order and somebody listens. -/
structure SubBooksKept (c : Client) : Prop where
  ordered : c.books.HeapOrdered
  filtered : c.books.Filtered
  listens : c.eventHandler = true
  distinct : c.books.subLedger.Distinct

namespace SubBooksKept

variable {c : Client} {op : Op}

theorem looseStep (kept : SubBooksKept c) (awaited : RequestAwaited c op) :
    Ledger.LooseStep c.books.subLedger (c.step op).books.subLedger :=
  (c.step_effect op kept.ordered).subLedger kept.ordered kept.filtered
    kept.listens awaited

/-- A step that is in order keeps the ledger in order. -/
theorem step (kept : SubBooksKept c) (awaited : RequestAwaited c op) :
    SubBooksKept (c.step op) := by
  have effect := c.step_effect op kept.ordered
  exact ⟨c.step_heapOrdered op kept.ordered,
    effect.filtered kept.ordered kept.filtered,
    effect.eventHandler.trans kept.listens,
    kept.distinct.looseStep (kept.looseStep awaited)⟩

/-- In a ledger in order every success is held. -/
theorem successHeld (kept : SubBooksKept c) (awaited : RequestAwaited c op) :
    SuccessHeld c op := by
  intro packetId raised
  have effect := c.step_effect op kept.ordered
  obtain ⟨env, packet, rfl, received, rfl⟩ := effect.answers raised
  have receives := cycleForRead_receives c 0 env
  rw [received] at receives
  have after_eq : (c.step (.cycle env)).books =
      c.books.suback packet env.iteratorAllocated := receives
  have raisedBooks : .subscribeSuccess packet.packetId ∈
      (c.step (.cycle env)).books.events.drop c.books.events.length := raised
  rw [after_eq] at raisedBooks ⊢
  rcases c.books.suback_cases packet env.iteratorAllocated with
    same | ⟨allocated, info, listed, carries, installs⟩
  · rw [same, List.drop_length] at raisedBooks
    exact absurd raisedBooks List.not_mem_nil
  · obtain ⟨normal, type, -⟩ :=
      awaited.1 packet received allocated info listed carries
    refine ⟨info, listed, ?_, normal, installs.holds raisedBooks⟩
    rw [UIoTSubInfo.requested_of_subscribe type, carries]

end SubBooksKept

/-- A node that is listed has its entry in the ledger, and the other way
round. -/
theorem Client.lists_iff {c : Client} {address : Nat} :
    c.Lists address ↔
      ∃ entry ∈ c.books.subLedger.entries, entry.key = address := by
  constructor
  · rintro ⟨info, listed, rfl⟩
    exact ⟨info.entry, List.mem_map_of_mem listed, rfl⟩
  · rintro ⟨entry, mem, rfl⟩
    obtain ⟨info, listed, rfl⟩ := List.mem_map.mp mem
    exact ⟨info, listed, rfl⟩

/-- The request is open or gone, and as long as its node is listed it has its
name and its handler. -/
structure RequestFollowed (entered : Client) (request : UIoTSubInfo)
    (c : Client) : Prop extends SubBooksKept c where
  isPrefix : entered.events <+: c.events
  known : ∀ info ∈ c.listSubWaitAck, info.address = request.address →
    info.requested = request.requested ∧ info.handler = request.handler
  status :
    c.books.subLedger.Open entered.books.subLedger.outcomes.length
        request.address request.requested ∨
      c.books.subLedger.Gone request.address

namespace RequestFollowed

variable {entered c : Client} {request : UIoTSubInfo} {op : Op}

/-- The request has an old address. -/
theorem address_lt (followed : RequestFollowed entered request c) :
    request.address < c.heapTop := by
  rcases followed.status with isOpen | gone
  · obtain ⟨-, entry, listed, key, -⟩ := isOpen
    rw [← key]
    exact followed.distinct.key_lt entry listed
  · exact gone.1

/-- A step follows the request. -/
theorem step (followed : RequestFollowed entered request c)
    (awaited : RequestAwaited c op) :
    RequestFollowed entered request (c.step op) := by
  have steps := followed.looseStep awaited
  have effect := c.step_effect op followed.ordered
  refine ⟨followed.toSubBooksKept.step awaited,
    followed.isPrefix.trans effect.events_prefix, ?_, ?_⟩
  · intro info listed same
    rcases steps.listed (List.mem_map_of_mem listed) with
      ⟨entry, entryListed, key, name, note⟩ | new
    · obtain ⟨old, oldListed, rfl⟩ := List.mem_map.mp entryListed
      obtain ⟨requested, handler⟩ :=
        followed.known old oldListed (key.trans same)
      have sameHandler : old.handler = info.handler := congrArg Prod.snd note
      exact ⟨name.symm.trans requested, sameHandler.symm.trans handler⟩
    · change c.heapTop ≤ info.address at new
      have old := followed.address_lt
      omega
  · rcases followed.status with isOpen | gone
    · rcases isOpen.looseStep followed.distinct steps with stays | settled
      · exact .inl stays
      · exact .inr ⟨settled.key_lt, settled.key_ne⟩
    · exact .inr (gone.looseStep steps)

/-- A step leaves the request with at most one outcome. -/
theorem settlesOnce (followed : RequestFollowed entered request c)
    (awaited : RequestAwaited c op) : SettlesOnce entered request c op := by
  intro lists outcomes
  obtain ⟨entry, listed, key⟩ := Client.lists_iff.mp lists
  rcases followed.status with isOpen | gone
  · have steps := followed.looseStep awaited
    have later := followed.step awaited
    have counted : (c.step op).books.subLedger.recorded
        entered.books.subLedger.outcomes.length request.requested = outcomes :=
      Client.count_drop_filterMap _ later.isPrefix _
    rw [← counted]
    refine ⟨?_, ?_, ?_⟩
    · rcases isOpen.looseStep followed.distinct steps with stays | settled
      · exact stays.recorded_le
      · exact settled.recorded.le
    · intro leaves
      rcases isOpen.looseStep followed.distinct steps with stays | settled
      · obtain ⟨-, other, otherListed, otherKey, -⟩ := stays
        exact absurd (Client.lists_iff.mpr ⟨other, otherListed, otherKey⟩)
          leaves
      · exact settled.recorded
    · intro packetId named raised
      obtain ⟨info, infoListed, requested, -, holds⟩ :=
        followed.successHeld awaited packetId raised
      obtain ⟨node, nodeListed, rfl⟩ := List.mem_map.mp listed
      obtain ⟨nodeNamed, nodeHandler⟩ := followed.known node nodeListed key
      have same := followed.distinct.eq_of_name
        (List.mem_map_of_mem infoListed) listed
        (requested.trans (named.symm.trans nodeNamed.symm))
      have sameHandler : info.handler = node.handler :=
        congrArg (fun entry => entry.note.2) same
      rwa [← nodeHandler, ← sameHandler]
  · exact absurd key (gone.2 entry listed)

end RequestFollowed

/-- A tracked request is settled once. -/
theorem SubBooksKept.requestSettled {c : Client} (kept : SubBooksKept c)
    {op : Op} {request : UIoTSubInfo} {after : List Op}
    (awaited : Machine.Along Client.step RequestAwaited c (op :: after))
    (tracks : c.books.TracksRequest (c.step op).books request) :
    request ∈ (c.step op).listSubWaitAck ∧
      Machine.Along Client.step (SettlesOnce (c.step op) request) (c.step op)
        after := by
  have enteredKept := kept.step awaited.1
  have listed : request ∈ (c.step op).books.listSubWaitAck := by
    rw [tracks.listSubWaitAck]
    exact List.mem_append_right _ List.mem_cons_self
  have entryListed : request.entry ∈ (c.step op).books.subLedger.entries :=
    List.mem_map_of_mem listed
  have start : RequestFollowed (c.step op) request (c.step op) := by
    refine ⟨enteredKept, List.prefix_refl _, ?_,
      .inl ⟨Nat.le_refl _, request.entry, entryListed, rfl, rfl, ?_⟩⟩
    · intro info infoListed same
      have sameEntry := enteredKept.distinct.eq_of_key
        (List.mem_map_of_mem infoListed) entryListed same
      exact ⟨congrArg Ledger.Entry.name sameEntry,
        congrArg (fun entry => entry.note.2) sameEntry⟩
    · have waits : request.entry.waits = true := by
        simp [UIoTSubInfo.entry, UIoTSubInfo.waits, tracks.nodeState]
      rw [Ledger.State.recorded, List.drop_length, waits]
      rfl
  exact ⟨listed, Machine.Along.imp_of_invariant
    (RequestFollowed (c.step op) request)
    (fun _ _ followed awaited => followed.settlesOnce awaited)
    (fun _ _ followed awaited => followed.step awaited) start awaited.2⟩

theorem subBooksKept_init {params : MQTTInitParams} (clock : Nat)
    (listens : params.eventHandler = true) :
    SubBooksKept (uiotMqttInit params clock) :=
  ⟨uiotMqttInit_heapOrdered params clock,
    by simp [Books.Filtered, Client.books, uiotMqttInit], listens,
    ⟨by simp [Books.subLedger, Client.books, uiotMqttInit], List.nodup_nil,
      List.nodup_nil⟩⟩

/-- In a run with an event handler whose steps are in order, every request is
settled once before its node leaves the list, and every success is held by a
slot. -/
theorem run_requestsSettled (params : MQTTInitParams) (clock : Nat)
    (listens : params.eventHandler = true) (labels : List Op)
    (awaited : Machine.Along Client.step RequestAwaited
      (uiotMqttInit params clock) labels) :
    RequestsSettled (uiotMqttInit params clock) labels := by
  have initially := subBooksKept_init clock listens
  constructor
  · rintro before topicFilter subscribeParams env after rfl c packetId returned
    obtain ⟨first, rest⟩ := (Machine.Along.append_iff ..).mp awaited
    have kept : SubBooksKept c := Machine.Along.run_preserves SubBooksKept
      (fun c op kept awaited => kept.step awaited) initially first
    rcases uiotMqttSubscribe_cases c topicFilter subscribeParams env with
      ⟨-, tracks, -, ret⟩ | ⟨-, -, -, error⟩
    · rw [ret] at returned
      cases returned
      exact ⟨rfl, kept.requestSettled rest tracks⟩
    · exact absurd returned (error packetId)
  · rintro before topicFilter env after rfl c packetId returned
    obtain ⟨first, rest⟩ := (Machine.Along.append_iff ..).mp awaited
    have kept : SubBooksKept c := Machine.Along.run_preserves SubBooksKept
      (fun c op kept awaited => kept.step awaited) initially first
    rcases uiotMqttUnsubscribe_cases c topicFilter env with
      ⟨-, tracks, slots, ret⟩ | ⟨-, -, error⟩
    · rw [ret] at returned
      cases returned
      exact ⟨rfl, kept.requestSettled rest (tracks.of_cleared slots)⟩
    · exact absurd returned (error packetId)
  · exact Machine.Along.imp_of_invariant SubBooksKept
      (fun _ _ kept awaited => kept.successHeld awaited)
      (fun _ _ kept awaited => kept.step awaited) initially awaited

/-- The steps that connect, subscribe to `"a"`, get the acknowledgement and
sweep. -/
def subscribedAndSwept : List Op := subscribed ++ [.subInfoProc true]

/-- The case of one subscription that is granted. -/
theorem run_requestsSettled_subscribed :
    RequestsSettled (uiotMqttInit ⟨2000, true⟩ 0) subscribedAndSwept := by
  apply run_requestsSettled ⟨2000, true⟩ 0 rfl subscribedAndSwept
  let sent := Machine.run Client.step (uiotMqttInit ⟨2000, true⟩ 0)
    [connecting[0]]
  have connack : sent.received (arriving [0x20, 2, 0, 0]) = .other := by decide
  let waiting := Machine.run Client.step (uiotMqttInit ⟨2000, true⟩ 0)
    subscribing
  have suback : waiting.received (arriving [0x90, 3, 0, 2, 1]) =
      .suback ⟨2, [1]⟩ := by decide
  have noneListed : (Machine.run Client.step (uiotMqttInit ⟨2000, true⟩ 0)
      connecting).books.NoCarrier 2 := by
    unfold Books.NoCarrier
    decide
  refine ⟨trivial, ⟨fun packet equal => ?_, fun packetId equal => ?_⟩, trivial,
    fun _ => noneListed, ⟨fun packet equal _ => ?_, fun packetId equal => ?_⟩,
    trivial, trivial⟩
  · cases connack.symm.trans equal
  · cases connack.symm.trans equal
  · cases suback.symm.trans equal
    change waiting.books.SubackAwaited ⟨2, [1]⟩
    unfold Books.SubackAwaited Books.HasRoomFor
    decide
  · cases suback.symm.trans equal

/-- A filter of one letter. -/
def letter (index : Fin 26) : CString :=
  ⟨[97 + UInt8.ofNat index], by revert index; decide⟩

/-- The steps that subscribe to a letter, get the acknowledgement and sweep. -/
def subscribingTo (index : Fin 26) : List Op :=
  [.subscribe (letter index) ⟨.qos1, some 1, 0⟩ unhindered,
    .cycle (arriving [0x90, 3, 0, 2 + UInt8.ofNat index, 1]),
    .subInfoProc true]

/-- The steps that connect and fill the table. -/
def filling : List Op :=
  connecting ++ (List.finRange 10).flatMap fun index : Fin 10 =>
    subscribingTo (index.castLE (by decide))

/-- The eleventh subscription is granted, but the table is full: its node is
swept without any event. -/
theorem fullTable_dropsRequest :
    ¬∀ labels, RequestsSettled (uiotMqttInit ⟨2000, true⟩ 0) labels := by
  intro settled
  obtain ⟨-, -, -, sweep, -⟩ :=
    (settled (filling ++ subscribingTo 10)).subscribe filling (letter 10)
      ⟨.qos1, some 1, 0⟩ unhindered _ rfl 12 (by decide +kernel)
  let full := Machine.run Client.step (uiotMqttInit ⟨2000, true⟩ 0) filling
  have lists : (Machine.run Client.step full
      ((subscribingTo 10).take 2)).Lists
        (full.subscribeInfo (letter 10) ⟨.qos1, some 1, 0⟩).address := by
    unfold Client.Lists
    decide +kernel
  have leaves : ¬(Machine.run Client.step full (subscribingTo 10)).Lists
      (full.subscribeInfo (letter 10) ⟨.qos1, some 1, 0⟩).address := by
    unfold Client.Lists
    decide +kernel
  have outcomes := (sweep lists).2.1 leaves
  revert outcomes
  decide +kernel

end Mqtt
end UIoT
