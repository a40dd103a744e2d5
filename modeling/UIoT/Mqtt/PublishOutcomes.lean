import UIoT.Library.Ledger
import UIoT.Mqtt.PacketIds

/-!
# The outcomes of publishes

Every acknowledged publish should end with one event, a success or a timeout.
The books of the publishes are a ledger as long as every PUBACK finds a publish
that waits: the handler raises the success whatever it finds, so an answer that
comes twice, late or out of nowhere is an outcome without a request.
-/

namespace UIoT
namespace Mqtt

/-! ## The ledger -/

/-- The publish whose outcome the event is. -/
def MQTTEvent.publishOutcome : MQTTEvent → Option UInt16
  | publishSuccess packetId => some packetId
  | publishTimeout packetId => some packetId
  | _ => none

/-- The node as a request of a ledger. -/
def UIoTPubInfo.entry (info : UIoTPubInfo) : Ledger.Entry UInt16 Timer where
  key := info.address
  name := info.msgId
  waits := info.waits
  note := info.pubStartTime

/-- The publishes and their outcomes. -/
def Books.pubLedger (b : Books) : Ledger.State UInt16 Timer where
  entries := b.listPubWaitAck.map UIoTPubInfo.entry
  outcomes := b.events.filterMap MQTTEvent.publishOutcome
  next := b.heapTop

/-- Where the step receives a PUBACK, the nodes can be walked and one that
waits carries its identifier.  Where the step tracks a publish, no listed one
carries its identifier. -/
def PubackAwaited (c : Client) : Op → Prop
  | .publish topicName params env =>
      PublishTracked c topicName params env →
        ∀ info ∈ c.listPubWaitAck, info.msgId ≠ nextId c.nextPacketId
  | .cycle env =>
      ∀ packetId, c.received env = .puback packetId →
        env.iteratorAllocated = true ∧
          ∃ info ∈ c.listPubWaitAck,
            info.nodeState = .normal ∧ info.msgId = packetId
  | _ => True

/-- A marked node is an answered request. -/
theorem UIoTPubInfo.entry_mask (packetId : UInt16) (info : UIoTPubInfo) :
    (info.mask packetId).entry = info.entry.answer packetId := by
  unfold UIoTPubInfo.mask Ledger.Entry.answer
  by_cases carries : info.msgId = packetId
  · rw [if_pos carries, if_pos (show info.entry.name = packetId from carries)]
    rfl
  · rw [if_neg carries,
      if_neg (show info.entry.name ≠ packetId from carries)]

namespace Books

/-- Nothing changes in the ledger but the first free key. -/
theorem pubLedger_idle {b after : Books}
    (nodes : after.listPubWaitAck = b.listPubWaitAck)
    (outcomes : after.events.filterMap MQTTEvent.publishOutcome =
      b.events.filterMap MQTTEvent.publishOutcome)
    (heap : b.heapTop ≤ after.heapTop) :
    Ledger.Step b.pubLedger after.pubLedger := by
  have same : after.pubLedger =
      { b.pubLedger with next := after.heapTop } := by
    unfold pubLedger
    rw [nodes, outcomes]
  rw [same]
  exact .idle _ heap

theorem publishOutcome_of_not_isRequestEvent {event : MQTTEvent}
    (other : event.isRequestEvent = false) : event.publishOutcome = none := by
  cases event <;> first | rfl | simp [MQTTEvent.isRequestEvent] at other

/-- A publish that is tracked is entered. -/
theorem pubLedger_publish {b after : Books} {info : UIoTPubInfo}
    (tracks : b.TracksPublish after info)
    (fresh : ∀ other ∈ b.listPubWaitAck, other.msgId ≠ nextId b.nextPacketId) :
    Ledger.Step b.pubLedger after.pubLedger := by
  have entered : after.pubLedger =
      { b.pubLedger with
        entries := b.pubLedger.entries ++ [info.entry]
        next := after.heapTop } := by
    unfold pubLedger
    rw [tracks.listPubWaitAck, tracks.events, List.map_append]
    rfl
  rw [entered]
  refine .enter info.entry _ ?_ tracks.address ?_
  · simp [UIoTPubInfo.entry, UIoTPubInfo.waits, tracks.nodeState]
  · intro entry listed
    obtain ⟨other, otherListed, rfl⟩ := List.mem_map.mp listed
    change other.msgId ≠ info.msgId
    rw [tracks.msgId]
    exact fresh other otherListed

/-- A PUBACK that is awaited answers a request. -/
theorem pubLedger_puback {b : Books} {packetId : UInt16}
    (listens : b.eventHandler = true)
    (awaited : ∃ info ∈ b.listPubWaitAck,
      info.nodeState = .normal ∧ info.msgId = packetId) :
    Ledger.Step b.pubLedger (b.puback packetId true).pubLedger := by
  obtain ⟨info, listed, normal, rfl⟩ := awaited
  have nodes : (b.listPubWaitAck.map (UIoTPubInfo.mask info.msgId)).map
      UIoTPubInfo.entry =
        (b.listPubWaitAck.map UIoTPubInfo.entry).map
          (Ledger.Entry.answer info.msgId) := by
    simp [List.map_map, Function.comp_def, UIoTPubInfo.entry_mask]
  have answered : (b.puback info.msgId true).pubLedger =
      { b.pubLedger with
        entries := b.pubLedger.entries.map
          (Ledger.Entry.answer info.entry.name)
        outcomes := b.pubLedger.outcomes ++ [info.entry.name] } := by
    apply Ledger.State.ext
    · exact nodes
    · have events : (b.puback info.msgId true).events =
          b.events ++ [.publishSuccess info.msgId] := raise_events _ listens
      change List.filterMap _ _ = List.filterMap _ _ ++ _
      rw [events, List.filterMap_append]
      rfl
    · rfl
  rw [answered]
  refine .answer info.entry (List.mem_map_of_mem listed) ?_
  simp [UIoTPubInfo.entry, UIoTPubInfo.waits, normal]

end Books

/-- A sweep of the publish list sweeps the ledger. -/
theorem pubLedger_sweepPub (c : Client) (listens : c.eventHandler = true) :
    Ledger.Step c.books.pubLedger
      (c.books.sweepPub (pubWaitAck.stays c)
        (pubWaitAck.expires c)).pubLedger := by
  have swept : (c.books.sweepPub (pubWaitAck.stays c)
      (pubWaitAck.expires c)).pubLedger =
        { c.books.pubLedger with
          entries := (c.listPubWaitAck.filter (pubWaitAck.stays c)).map
            UIoTPubInfo.entry
          outcomes := c.books.pubLedger.outcomes ++
            (c.listPubWaitAck.reverse.filter (pubWaitAck.expires c)).map
              UIoTPubInfo.msgId } := by
    apply Ledger.State.ext
    · rfl
    · have events : (c.books.sweepPub (pubWaitAck.stays c)
          (pubWaitAck.expires c)).events = c.events ++
            (c.listPubWaitAck.reverse.filter (pubWaitAck.expires c)).map
              fun info => .publishTimeout info.msgId := if_pos listens
      change List.filterMap _ _ = List.filterMap _ _ ++ _
      rw [events, List.filterMap_append, List.filterMap_map]
      exact congrArg _ (congrFun List.filterMap_eq_map' _)
    · rfl
  rw [swept]
  exact pubWaitAck.sweepsLedger c id (fun info => rfl)
    (fun info => rfl) _ _

/-- Every effect of a step whose PUBACK is awaited is a step of the ledger. -/
theorem Books.Effect.pubLedger {c : Client} {op : Op} {after : Books}
    (effect : Effect c op after) (ordered : c.books.HeapOrdered)
    (listens : c.eventHandler = true) (awaited : PubackAwaited c op) :
    Ledger.Step c.books.pubLedger after.pubLedger := by
  cases effect with
  | publish tracked tracks => exact pubLedger_publish tracks (awaited tracked)
  | subscribe _ tracks _ =>
      exact pubLedger_idle tracks.listPubWaitAck
        (congrArg _ tracks.events)
        (tracks.address.1.trans tracks.address.2.le)
  | unsubscribe _ tracks =>
      exact pubLedger_idle tracks.listPubWaitAck
        (congrArg _ tracks.events)
        (tracks.address.1.trans tracks.address.2.le)
  | untracked _ nothing =>
      exact pubLedger_idle (nothing.listPubWaitAck ordered)
        (congrArg _ nothing.events) nothing.heapTop
  | sweepPub => exact pubLedger_sweepPub c listens
  | sweepSub =>
      refine pubLedger_idle rfl ?_ (Nat.le_refl _)
      change List.filterMap _ (if c.eventHandler then _ else _) = _
      rw [if_pos listens]
      refine filterMap_append_of_none _ _ fun event mem => ?_
      obtain ⟨info, -, rfl⟩ := List.mem_map.mp mem
      unfold UIoTSubInfo.timeoutEvent
      split <;> rfl
  | kept _ kept =>
      obtain ⟨more, rfl, others⟩ := kept
      exact pubLedger_idle rfl (filterMap_append_of_none _ _
        fun event mem => publishOutcome_of_not_isRequestEvent
          (others event mem)) (Nat.le_refl _)
  | @cycle env _ receives =>
      generalize received_eq : c.received env = received at receives
      cases received with
      | puback packetId =>
          obtain ⟨allocated, found⟩ := awaited packetId received_eq
          rw [show after = _ from receives, allocated]
          exact pubLedger_puback listens found
      | suback packet =>
          rw [show after = _ from receives]
          obtain ⟨nodes, heap⟩ :=
            c.books.suback_frame packet env.iteratorAllocated
          refine pubLedger_idle nodes ?_ heap.ge
          rcases c.books.suback_events packet env.iteratorAllocated with
            events | events | events
          · rw [events]
          · rw [events]
            exact filterMap_raise _ _ rfl
          · rw [events]
            exact filterMap_raise _ _ rfl
      | unsuback packetId =>
          rw [show after = _ from receives]
          obtain ⟨nodes, heap, events⟩ := c.books.unsuback_frame packetId
            env.staleHandle env.iteratorAllocated
          refine pubLedger_idle nodes ?_ heap.ge
          rw [events]
          exact filterMap_raise _ _ rfl
      | other =>
          obtain ⟨more, rfl, others⟩ := receives
          exact pubLedger_idle rfl (filterMap_append_of_none _ _
            fun event mem => publishOutcome_of_not_isRequestEvent
              (others event mem)) (Nat.le_refl _)

/-! ## Identifiers and events of a step -/

/-- The step gives a publish the identifier. -/
def TakesPublishId (packetId : UInt16) (c : Client) : Op → Prop
  | .publish topicName params env =>
      PublishTracked c topicName params env ∧
        nextId c.nextPacketId = packetId
  | _ => False

/-- A publish with the identifier was listed, or the step lists it. -/
theorem Books.Effect.listed_pub {c : Client} {op : Op} {after : Books}
    (effect : Effect c op after) (ordered : c.books.HeapOrdered)
    {info : UIoTPubInfo} (listed : info ∈ after.listPubWaitAck) :
    (∃ old ∈ c.listPubWaitAck, old.msgId = info.msgId) ∨
      TakesPublishId info.msgId c op := by
  have old : info ∈ c.books.listPubWaitAck →
      (∃ old ∈ c.listPubWaitAck, old.msgId = info.msgId) ∨
        TakesPublishId info.msgId c op := fun mem => .inl ⟨info, mem, rfl⟩
  cases effect with
  | publish tracked tracks =>
      rw [tracks.listPubWaitAck, List.mem_append, List.mem_singleton] at listed
      rcases listed with mem | rfl
      · exact old mem
      · exact .inr ⟨tracked, tracks.msgId.symm⟩
  | subscribe _ tracks _ => exact old (tracks.listPubWaitAck ▸ listed)
  | unsubscribe _ tracks => exact old (tracks.listPubWaitAck ▸ listed)
  | untracked _ nothing => exact old (nothing.listPubWaitAck ordered ▸ listed)
  | sweepPub => exact old (List.mem_of_mem_filter listed)
  | sweepSub => exact old listed
  | kept _ kept =>
      obtain ⟨_, rfl, -⟩ := kept
      exact old listed
  | @cycle env _ receives =>
      generalize c.received env = received at receives
      cases received with
      | puback packetId =>
          rw [show after = _ from receives] at listed
          unfold Books.puback at listed
          rw [raise_listPubWaitAck] at listed
          split at listed
          · obtain ⟨unmarked, mem, rfl⟩ := List.mem_map.mp listed
            exact .inl ⟨unmarked, mem, by simp⟩
          · exact old listed
      | suback packet =>
          rw [show after = _ from receives,
            (c.books.suback_frame packet env.iteratorAllocated).1] at listed
          exact old listed
      | unsuback packetId =>
          rw [show after = _ from receives, (c.books.unsuback_frame packetId
            env.staleHandle env.iteratorAllocated).1] at listed
          exact old listed
      | other =>
          obtain ⟨_, rfl, -⟩ := receives
          exact old listed

/-! ## Runs -/

/-- The event is the outcome of a publish with the identifier. -/
def MQTTEvent.settlesPublish (packetId : UInt16) (event : MQTTEvent) : Bool :=
  event.publishOutcome == some packetId

/-- A publish that was given an identifier has at most one outcome, and exactly
one once its node is gone, until another publish is given the identifier. -/
def PublishSettled (c : Client) (topicName : CString) (params : PublishParams)
    (env : RequestEnv) (after : List Op) : Prop :=
  let published := c.step (.publish topicName params env)
  let final := Machine.run Client.step published after
  ∀ packetId, params.qos = .qos1 →
    (uiotMqttPublish c topicName params env).2 = .ok packetId →
    Machine.Along Client.step (fun c op => ¬TakesPublishId packetId c op)
      published after →
    let outcomes := (published.raisedUntil final).countP
      (MQTTEvent.settlesPublish packetId)
    outcomes ≤ 1 ∧
      ((∀ info ∈ final.listPubWaitAck,
          info.address ≠ (c.pubInfo packetId).address) →
        outcomes = 1)

/-- A publish succeeds only by a PUBACK that finds one that waits. -/
def SuccessFound (c : Client) (op : Op) : Prop :=
  ∀ packetId, .publishSuccess packetId ∈ c.raisedUntil (c.step op) →
    (∃ env, op = .cycle env ∧ c.received env = .puback packetId) ∧
      ∃ info ∈ c.listPubWaitAck,
        info.nodeState = .normal ∧ info.msgId = packetId

/-- The ledger is in order and somebody listens. -/
structure PubBooksKept (c : Client) : Prop where
  ordered : c.books.HeapOrdered
  listens : c.eventHandler = true
  distinct : c.books.pubLedger.Distinct

/-- A step whose PUBACK is awaited keeps the ledger in order. -/
theorem PubBooksKept.step {c : Client} (kept : PubBooksKept c) {op : Op}
    (awaited : PubackAwaited c op) : PubBooksKept (c.step op) := by
  have effect := c.step_effect op kept.ordered
  exact ⟨c.step_heapOrdered op kept.ordered,
    effect.eventHandler.trans kept.listens,
    kept.distinct.step (effect.pubLedger kept.ordered kept.listens awaited)⟩

theorem pubBooksKept_init {params : MQTTInitParams} (clock : Nat)
    (listens : params.eventHandler = true) :
    PubBooksKept (uiotMqttInit params clock) :=
  ⟨uiotMqttInit_heapOrdered params clock, listens,
    ⟨by simp [Books.pubLedger, Client.books, uiotMqttInit], List.nodup_nil,
      List.nodup_nil⟩⟩

/-- The publish is listed or settled. -/
structure PublishFollowed (published c : Client) (key : Nat)
    (packetId : UInt16) : Prop extends PubBooksKept c where
  isPrefix : published.events <+: c.events
  status :
    c.books.pubLedger.Open published.books.pubLedger.outcomes.length key
        packetId ∨
      c.books.pubLedger.Settled published.books.pubLedger.outcomes.length key
        packetId

/-- A step follows the publish, unless it gives its identifier away. -/
theorem PublishFollowed.step {published c : Client} {key : Nat}
    {packetId : UInt16} (followed : PublishFollowed published c key packetId)
    {op : Op} (awaited : PubackAwaited c op)
    (current : ¬TakesPublishId packetId c op) :
    PublishFollowed published (c.step op) key packetId := by
  have effect := c.step_effect op followed.ordered
  have steps := effect.pubLedger followed.ordered followed.listens awaited
  refine ⟨followed.toPubBooksKept.step awaited,
    followed.isPrefix.trans effect.events_prefix, ?_⟩
  rcases followed.status with isOpen | settled
  · exact isOpen.step followed.distinct steps
  · refine .inr (settled.step steps fun entry listed same => ?_)
    obtain ⟨info, infoListed, rfl⟩ := List.mem_map.mp listed
    subst same
    rcases effect.listed_pub followed.ordered infoListed with
      ⟨old, oldListed, carries⟩ | takes
    · exact settled.name_ne old.entry (List.mem_map_of_mem oldListed) carries
    · exact current takes

/-- In a ledger in order every publish is settled. -/
theorem PubBooksKept.publishSettled {c : Client} (kept : PubBooksKept c)
    {topicName : CString} {params : PublishParams} {env : RequestEnv}
    {after : List Op}
    (awaited : Machine.Along Client.step PubackAwaited c
      (.publish topicName params env :: after)) :
    PublishSettled c topicName params env after := by
  unfold PublishSettled
  intro published final packetId qos returned current outcomes
  obtain ⟨tracks, rfl⟩ : c.books.TracksPublish published.books
      (c.pubInfo packetId) ∧ packetId = nextId c.nextPacketId := by
    rcases uiotMqttPublish_cases c topicName params env with
      ⟨-, tracks, ret⟩ | ⟨-, -, error⟩
    · rw [ret] at returned
      cases returned
      exact ⟨tracks, rfl⟩
    · exact absurd returned (error qos packetId)
  let info := c.pubInfo (nextId c.nextPacketId)
  have start : PublishFollowed published published info.address
      (nextId c.nextPacketId) := by
    refine ⟨kept.step awaited.1, List.prefix_refl _, .inl ⟨Nat.le_refl _,
      info.entry, ?_, rfl, rfl, ?_⟩⟩
    · refine List.mem_map_of_mem ?_
      rw [tracks.listPubWaitAck]
      exact List.mem_append_right _ List.mem_cons_self
    · rw [Ledger.State.recorded, List.drop_length]
      rfl
  have followed : PublishFollowed published final info.address
      (nextId c.nextPacketId) :=
    Machine.Along.run_preserves
      (fun later => PublishFollowed published later info.address
        (nextId c.nextPacketId))
      (fun later op followed both => followed.step both.1 both.2)
      start (awaited.2.and current)
  have counted : final.books.pubLedger.recorded
      published.books.pubLedger.outcomes.length (nextId c.nextPacketId) =
        outcomes :=
    Client.count_drop_filterMap _ followed.isPrefix _
  rcases followed.status with isOpen | settled
  · refine ⟨counted ▸ isOpen.recorded_le, fun gone => ?_⟩
    obtain ⟨-, entry, listed, key, -⟩ := isOpen
    obtain ⟨other, otherListed, rfl⟩ := List.mem_map.mp listed
    exact absurd key (gone other otherListed)
  · exact ⟨counted ▸ settled.recorded.le, fun _ => counted ▸ settled.recorded⟩

/-- In a run with an event handler in which every PUBACK finds a publish that
waits, and no publish is given the identifier of a listed one, every publish is
settled, and succeeds only by a PUBACK that finds one that waits. -/
theorem run_publishSettled (params : MQTTInitParams) (clock : Nat)
    (listens : params.eventHandler = true) (labels : List Op)
    (awaited : Machine.Along Client.step PubackAwaited
      (uiotMqttInit params clock) labels) :
    (∀ before topicName publishParams env after,
        labels = before ++ .publish topicName publishParams env :: after →
        PublishSettled
          (Machine.run Client.step (uiotMqttInit params clock) before)
          topicName publishParams env after) ∧
      Machine.Along Client.step SuccessFound (uiotMqttInit params clock)
        labels := by
  have initially := pubBooksKept_init clock listens
  constructor
  · rintro before topicName publishParams env after rfl
    obtain ⟨first, rest⟩ := (Machine.Along.append_iff ..).mp awaited
    have kept := Machine.Along.run_preserves PubBooksKept
      (fun c op kept awaited => kept.step awaited) initially first
    exact kept.publishSettled rest
  · refine Machine.Along.imp_of_invariant PubBooksKept ?_
      (fun c op kept awaited => kept.step awaited) initially awaited
    intro c op kept awaited packetId raised
    have effect := c.step_effect op kept.ordered
    obtain ⟨env, rfl, received⟩ := effect.answers raised
    exact ⟨⟨env, rfl, received⟩, (awaited packetId received).2⟩

/-- The steps that connect, publish to `"a"`, get the acknowledgement and
sweep. -/
def publishing : List Op :=
  connecting ++
    [.publish textA ⟨.qos1, 0, 0, some [1]⟩ unhindered,
      .cycle (arriving [0x40, 2, 0, 2]), .pubInfoProc true]

/-- The case of one publish that is acknowledged. -/
theorem run_publishSettled_publishing :
    (∀ before topicName publishParams env after,
        publishing =
          before ++ .publish topicName publishParams env :: after →
        PublishSettled
          (Machine.run Client.step (uiotMqttInit ⟨2000, true⟩ 0) before)
          topicName publishParams env after) ∧
      Machine.Along Client.step SuccessFound (uiotMqttInit ⟨2000, true⟩ 0)
        publishing := by
  refine run_publishSettled ⟨2000, true⟩ 0 rfl publishing ?_
  let waiting := Machine.run Client.step (uiotMqttInit ⟨2000, true⟩ 0)
    (connecting ++ [.publish textA ⟨.qos1, 0, 0, some [1]⟩ unhindered])
  have connack : ∀ packetId,
      ((uiotMqttInit ⟨2000, true⟩ 0).step connecting[0]).received
        (arriving [0x20, 2, 0, 0]) ≠ .puback packetId := by
    intro packetId
    rw [show Client.received _ _ = .other by decide]
    simp
  have noneListed : (Machine.run Client.step (uiotMqttInit ⟨2000, true⟩ 0)
      connecting).listPubWaitAck = [] := by decide
  have received : waiting.received (arriving [0x40, 2, 0, 2]) = .puback 2 := by
    decide
  refine ⟨trivial, fun packetId equal => absurd equal (connack packetId),
    trivial, fun _ info listed => ?_, fun packetId equal => ⟨rfl, ?_⟩, trivial,
    trivial⟩
  · change info ∈ (Machine.run Client.step (uiotMqttInit ⟨2000, true⟩ 0)
      connecting).listPubWaitAck at listed
    rw [noneListed] at listed
    exact absurd listed List.not_mem_nil
  · cases received.symm.trans equal
    decide

/-- A PUBACK for no publish at all is a success. -/
theorem unknownPuback_raisesSuccess :
    ¬∀ labels, Machine.Along Client.step SuccessFound
      (uiotMqttInit ⟨2000, true⟩ 0) labels := by
  intro found
  have acked := ((Machine.Along.append_iff ..).mp
    (found (connecting ++ [.cycle (arriving [0x40, 2, 0, 9])]))).2.1
  obtain ⟨-, info, listed, -⟩ := acked 9 (by decide)
  have noneListed : (Machine.run Client.step (uiotMqttInit ⟨2000, true⟩ 0)
      connecting).listPubWaitAck = [] := by decide
  rw [noneListed] at listed
  exact List.not_mem_nil listed

end Mqtt
end UIoT
