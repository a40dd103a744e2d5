import Mathlib.Data.List.Nodup
import UIoT.Library.Machine
import UIoT.Mqtt.Sweeps
import UIoT.Mqtt.Tracking

/-!
# Runs of a client

A client takes one step after the other: a request, a packet, a sweep, or
something that leaves its books alone.  An invariant of the books that each
step keeps holds in every state a client can get into.
-/

namespace UIoT
namespace Mqtt

/-- The steps of a client. -/
inductive Op
  | publish (topicName : CString) (params : PublishParams) (env : RequestEnv)
  | subscribe (topicFilter : CString) (params : SubscribeParams)
      (env : RequestEnv)
  | unsubscribe (topicFilter : CString) (env : RequestEnv)
  | cycle (env : CycleEnv)
  | pubInfoProc (iteratorAllocated : Bool)
  | subInfoProc (iteratorAllocated : Bool)
  | other (change : Client → Client)
      (kept : ∀ c : Client, c.books.Kept (change c).books)

/-- What a step does to the client. -/
def Client.step (c : Client) : Op → Client
  | .publish topicName params env => (uiotMqttPublish c topicName params env).1
  | .subscribe topicFilter params env =>
      (uiotMqttSubscribe c topicFilter params env).1
  | .unsubscribe topicFilter env => (uiotMqttUnsubscribe c topicFilter env).1
  | .cycle env => (cycleForRead c 0 env).1
  | .pubInfoProc iteratorAllocated => uiotMqttPubInfoProc c iteratorAllocated
  | .subInfoProc iteratorAllocated => uiotMqttSubInfoProc c iteratorAllocated
  | .other change _ => change c

/-- The step puts a request on a waiting list. -/
def Op.Tracked (c : Client) : Op → Prop
  | publish topicName params env => PublishTracked c topicName params env
  | subscribe topicFilter params env =>
      SubscribeTracked c topicFilter params env
  | unsubscribe topicFilter env => UnsubscribeTracked c topicFilter env
  | _ => False

/-! ## What a step can do -/

/-- Everything a step can do to the books. -/
inductive Books.Effect (c : Client) : Op → Books → Prop
  | publish {topicName params env after}
      (tracked : PublishTracked c topicName params env)
      (tracks : c.books.TracksPublish after
        (c.pubInfo (nextId c.nextPacketId))) :
      Effect c (.publish topicName params env) after
  | subscribe {topicFilter params env after}
      (tracked : SubscribeTracked c topicFilter params env)
      (tracks : c.books.TracksRequest after
        (c.subscribeInfo topicFilter params))
      (slots : after.subHandles = c.subHandles) :
      Effect c (.subscribe topicFilter params env) after
  | unsubscribe {topicFilter env after}
      (tracked : UnsubscribeTracked c topicFilter env)
      (tracks : c.books.TracksRequest after
        (c.unsubscribeInfo topicFilter env)) :
      Effect c (.unsubscribe topicFilter env) after
  | untracked {op after} (untracked : ¬op.Tracked c)
      (nothing : c.books.Untracked after) :
      Effect c op after
  | cycle {env after} (receives : c.books.Receives after env (c.received env)) :
      Effect c (.cycle env) after
  | sweepPub :
      Effect c (.pubInfoProc true)
        (c.books.sweepPub (pubWaitAck.stays c) (pubWaitAck.expires c))
  | sweepSub :
      Effect c (.subInfoProc true)
        (c.books.sweepSub (subWaitAck.stays c) (subWaitAck.expires c))
  | kept {op after} (untracked : ¬op.Tracked c) (kept : c.books.Kept after) :
      Effect c op after

/-- Emptying slots first does not matter to what is tracked. -/
theorem Books.TracksRequest.of_cleared {c : Client} {topicFilter : CString}
    {after : Books} {info : UIoTSubInfo}
    (tracks : (c.cleared topicFilter).books.TracksRequest after info)
    (slots : after.subHandles = clearedHandles topicFilter c.subHandles) :
    c.books.TracksRequest after info := by
  refine ⟨tracks.1, tracks.2, fun i => ?_, tracks.4, tracks.5, tracks.6,
    tracks.7, tracks.8, tracks.9, tracks.10, tracks.11⟩
  rw [slots]
  unfold clearedHandles
  split
  · exact .inr rfl
  · exact .inl rfl

theorem Books.Untracked.of_cleared {c : Client} {topicFilter : CString}
    {after : Books} (nothing : (c.cleared topicFilter).books.Untracked after)
    (slots : after.subHandles = clearedHandles topicFilter c.subHandles) :
    c.books.Untracked after := by
  refine ⟨fun ordered => nothing.1 ⟨ordered.1, ordered.2, ordered.3, ordered.4⟩,
    fun ordered => nothing.2 ⟨ordered.1, ordered.2, ordered.3, ordered.4⟩,
    fun i => ?_, nothing.4, nothing.5, nothing.6, nothing.7, nothing.8⟩
  rw [slots]
  unfold clearedHandles
  split
  · exact .inr rfl
  · exact .inl rfl

/-- Every step has one of these effects. -/
theorem Client.step_effect (c : Client) (op : Op)
    (ordered : c.books.HeapOrdered) :
    Books.Effect c op (c.step op).books := by
  cases op with
  | publish topicName params env =>
      rcases uiotMqttPublish_cases c topicName params env with
        ⟨tracked, tracks, -⟩ | ⟨untracked, nothing, -⟩
      · exact .publish tracked tracks
      · exact .untracked untracked nothing
  | subscribe topicFilter params env =>
      rcases uiotMqttSubscribe_cases c topicFilter params env with
        ⟨tracked, tracks, slots, -⟩ | ⟨untracked, nothing, -⟩
      · exact .subscribe tracked tracks slots
      · exact .untracked untracked nothing
  | unsubscribe topicFilter env =>
      rcases uiotMqttUnsubscribe_cases c topicFilter env with
        ⟨tracked, tracks, slots, -⟩ |
          ⟨untracked, ⟨-, nothing, slots⟩ | ⟨-, same⟩, -⟩
      · exact .unsubscribe tracked (tracks.of_cleared slots)
      · exact .untracked untracked (nothing.of_cleared slots)
      · exact .kept untracked (.of_eq (congrArg Client.books same))
  | cycle env => exact .cycle (cycleForRead_receives c 0 env)
  | pubInfoProc iteratorAllocated =>
      cases iteratorAllocated with
      | false => exact .kept id (.refl _)
      | true =>
          rw [Client.step, uiotMqttPubInfoProc_books c ordered.pub_nodup]
          exact .sweepPub
  | subInfoProc iteratorAllocated =>
      cases iteratorAllocated with
      | false => exact .kept id (.refl _)
      | true =>
          rw [Client.step, uiotMqttSubInfoProc_books c ordered.sub_nodup]
          exact .sweepSub
  | other change kept => exact .kept id (kept c)

/-! ## The heap -/

namespace Books

/-- Dropping nodes keeps the heap in order. -/
theorem HeapOrdered.of_sublist {b after : Books} (ordered : b.HeapOrdered)
    (pub : (after.listPubWaitAck.map UIoTPubInfo.address).Sublist
      (b.listPubWaitAck.map UIoTPubInfo.address))
    (sub : (after.listSubWaitAck.map UIoTSubInfo.address).Sublist
      (b.listSubWaitAck.map UIoTSubInfo.address))
    (heap : b.heapTop ≤ after.heapTop) :
    after.HeapOrdered where
  pub_lt := by
    intro info mem
    obtain ⟨old, oldMem, same⟩ :=
      List.mem_map.mp (pub.subset (List.mem_map_of_mem mem))
    rw [← same]
    exact (ordered.pub_lt old oldMem).trans_le heap
  sub_lt := by
    intro info mem
    obtain ⟨old, oldMem, same⟩ :=
      List.mem_map.mp (sub.subset (List.mem_map_of_mem mem))
    rw [← same]
    exact (ordered.sub_lt old oldMem).trans_le heap
  pub_nodup := ordered.pub_nodup.sublist pub
  sub_nodup := ordered.sub_nodup.sublist sub

/-- A node at a new address keeps a list in order. -/
theorem appended_ordered {Info : Type} (address : Info → Nat)
    {infos : List Info} {info : Info} {low high : Nat}
    (below : ∀ other ∈ infos, address other < low)
    (nodup : (infos.map address).Nodup)
    (fresh : low ≤ address info ∧ address info < high) :
    (∀ other ∈ infos ++ [info], address other < high) ∧
      ((infos ++ [info]).map address).Nodup := by
  constructor
  · intro other mem
    rw [List.mem_append, List.mem_singleton] at mem
    rcases mem with mem | rfl
    · exact (below other mem).trans (fresh.1.trans_lt fresh.2)
    · exact fresh.2
  · rw [List.map_append, List.nodup_append]
    refine ⟨nodup, List.nodup_singleton _, ?_⟩
    intro old oldMem new newMem
    obtain ⟨other, otherMem, rfl⟩ := List.mem_map.mp oldMem
    rw [List.map_singleton, List.mem_singleton] at newMem
    subst newMem
    exact ((below other otherMem).trans_le fresh.1).ne

/-- A new publish node keeps the heap in order. -/
theorem HeapOrdered.tracksPublish {b after : Books} {info : UIoTPubInfo}
    (ordered : b.HeapOrdered) (tracks : b.TracksPublish after info) :
    after.HeapOrdered := by
  have pub := appended_ordered UIoTPubInfo.address ordered.pub_lt
    ordered.pub_nodup tracks.address
  rw [← tracks.listPubWaitAck] at pub
  have grows : b.heapTop ≤ after.heapTop :=
    tracks.address.1.trans tracks.address.2.le
  refine ⟨pub.1, fun other mem => ?_, pub.2, ?_⟩
  · rw [tracks.listSubWaitAck] at mem
    exact (ordered.sub_lt other mem).trans_le grows
  · rw [tracks.listSubWaitAck]
    exact ordered.sub_nodup

/-- A new subscribe node keeps the heap in order. -/
theorem HeapOrdered.tracksRequest {b after : Books} {info : UIoTSubInfo}
    (ordered : b.HeapOrdered) (tracks : b.TracksRequest after info) :
    after.HeapOrdered := by
  have sub := appended_ordered UIoTSubInfo.address ordered.sub_lt
    ordered.sub_nodup tracks.address
  rw [← tracks.listSubWaitAck] at sub
  have grows : b.heapTop ≤ after.heapTop :=
    tracks.address.1.trans tracks.address.2.le
  refine ⟨fun other mem => ?_, sub.1, ?_, sub.2⟩
  · rw [tracks.listPubWaitAck] at mem
    exact (ordered.pub_lt other mem).trans_le grows
  · rw [tracks.listPubWaitAck]
    exact ordered.pub_nodup

/-- The nodes on a list after a packet are those before it. -/
theorem Receives.addresses {b after : Books} {env : CycleEnv}
    {received : Received} (receives : b.Receives after env received) :
    after.listPubWaitAck.map UIoTPubInfo.address =
        b.listPubWaitAck.map UIoTPubInfo.address ∧
      after.listSubWaitAck.map UIoTSubInfo.address =
        b.listSubWaitAck.map UIoTSubInfo.address ∧
      after.heapTop = b.heapTop := by
  have masked : ∀ packetId, (b.maskSub packetId
      env.iteratorAllocated).listSubWaitAck.map UIoTSubInfo.address =
        b.listSubWaitAck.map UIoTSubInfo.address := by
    intro packetId
    rw [maskSub_frame]
    cases env.iteratorAllocated with
    | false => rfl
    | true =>
        simp [List.map_map, Function.comp_def, UIoTSubInfo.address_mask]
  cases received with
  | puback packetId =>
      rw [show after = _ from receives]
      cases env.iteratorAllocated with
      | false => exact ⟨rfl, rfl, rfl⟩
      | true =>
          refine ⟨?_, rfl, rfl⟩
          simp [puback, List.map_map, Function.comp_def,
            UIoTPubInfo.address_mask]
  | suback packet =>
      rw [show after = _ from receives]
      obtain ⟨_, _, _, installed⟩ := install_frame
        (b.maskSub packet.packetId env.iteratorAllocated) packet.packetId
        (b.maskedHandler packet.packetId .zero env.iteratorAllocated)
        (subNack packet)
      rw [suback, installed]
      refine ⟨?_, masked packet.packetId, ?_⟩ <;> rw [maskSub_frame]
  | unsuback packetId =>
      rw [show after = _ from receives]
      refine ⟨?_, masked packetId, ?_⟩ <;>
        simp only [unsuback, free, raise_listPubWaitAck, raise_heapTop,
          maskSub_frame]
  | other =>
      obtain ⟨_, rfl, -⟩ := receives
      exact ⟨rfl, rfl, rfl⟩

/-- Every effect keeps the heap in order. -/
theorem Effect.heapOrdered {c : Client} {op : Op} {after : Books}
    (effect : Effect c op after) (ordered : c.books.HeapOrdered) :
    after.HeapOrdered := by
  cases effect with
  | publish _ tracks => exact ordered.tracksPublish tracks
  | subscribe _ tracks _ => exact ordered.tracksRequest tracks
  | unsubscribe _ tracks => exact ordered.tracksRequest tracks
  | untracked _ nothing =>
      apply ordered.of_sublist
      · rw [nothing.listPubWaitAck ordered]
      · rw [nothing.listSubWaitAck ordered]
      · exact nothing.heapTop
  | cycle receives =>
      obtain ⟨pub, sub, heap⟩ := receives.addresses
      exact ordered.of_sublist (pub ▸ .refl _) (sub ▸ .refl _) heap.ge
  | sweepPub =>
      exact ordered.of_sublist (List.filter_sublist.map _) (.refl _)
        (Nat.le_refl _)
  | sweepSub =>
      exact ordered.of_sublist (.refl _) (List.filter_sublist.map _)
        (Nat.le_refl _)
  | kept _ kept =>
      obtain ⟨_, rfl, -⟩ := kept
      exact ordered.of_sublist (.refl _) (.refl _) (Nat.le_refl _)

end Books

/-- The heap stays in order along a run. -/
theorem Client.step_heapOrdered (c : Client) (op : Op)
    (ordered : c.books.HeapOrdered) : (c.step op).books.HeapOrdered :=
  (c.step_effect op ordered).heapOrdered ordered

/-- A new client has allocated nothing. -/
theorem uiotMqttInit_heapOrdered (params : MQTTInitParams) (clock : Nat) :
    (uiotMqttInit params clock).books.HeapOrdered :=
  ⟨by simp [uiotMqttInit, Client.books], by simp [uiotMqttInit, Client.books],
    List.nodup_nil, List.nodup_nil⟩

/-! ## Events -/

namespace Books

/-- Nothing makes the event handler come or go. -/
theorem Effect.eventHandler {c : Client} {op : Op} {after : Books}
    (effect : Effect c op after) : after.eventHandler = c.eventHandler := by
  cases effect with
  | publish _ tracks => exact tracks.eventHandler
  | subscribe _ tracks _ => exact tracks.eventHandler
  | unsubscribe _ tracks => exact tracks.eventHandler
  | untracked _ nothing => exact nothing.eventHandler
  | sweepPub => rfl
  | sweepSub => rfl
  | kept _ kept =>
      obtain ⟨_, rfl, -⟩ := kept
      rfl
  | @cycle env _ receives =>
      generalize c.received env = received at receives
      cases received with
      | puback packetId => rw [show after = _ from receives]; rfl
      | suback packet =>
          rw [show after = _ from receives, suback]
          obtain ⟨_, _, _, installed⟩ := install_frame
            (c.books.maskSub packet.packetId env.iteratorAllocated)
            packet.packetId
            (c.books.maskedHandler packet.packetId .zero env.iteratorAllocated)
            (subNack packet)
          rw [installed, maskSub_frame]
          rfl
      | unsuback packetId =>
          rw [show after = _ from receives, unsuback, maskSub_frame]
          rfl
      | other =>
          obtain ⟨_, rfl, -⟩ := receives
          rfl

theorem raise_prefix (b : Books) (event : MQTTEvent) :
    b.events <+: (b.raise event).events := by
  unfold raise
  dsimp only
  split
  · exact List.prefix_append ..
  · exact List.prefix_refl _

theorem raiseAll_prefix (b : Books) (events : List MQTTEvent) :
    b.events <+: (b.raiseAll events).events := by
  unfold raiseAll
  dsimp only
  split
  · exact List.prefix_append ..
  · exact List.prefix_refl _

/-- Events are added at the end. -/
theorem Effect.events_prefix {c : Client} {op : Op} {after : Books}
    (effect : Effect c op after) : c.events <+: after.events := by
  cases effect with
  | publish _ tracks => exact tracks.events ▸ List.prefix_refl _
  | subscribe _ tracks _ => exact tracks.events ▸ List.prefix_refl _
  | unsubscribe _ tracks => exact tracks.events ▸ List.prefix_refl _
  | untracked _ nothing => exact nothing.events ▸ List.prefix_refl _
  | sweepPub => exact raiseAll_prefix c.books _
  | sweepSub => exact raiseAll_prefix c.books _
  | kept _ kept =>
      obtain ⟨_, rfl, -⟩ := kept
      exact List.prefix_append ..
  | @cycle env _ receives =>
      generalize c.received env = received at receives
      cases received with
      | puback packetId =>
          rw [show after = _ from receives]
          exact raise_prefix c.books _
      | suback packet =>
          rw [show after = _ from receives]
          rcases c.books.suback_events packet env.iteratorAllocated with
            events | events | events
          · exact events ▸ List.prefix_refl _
          · exact events ▸ raise_prefix c.books _
          · exact events ▸ raise_prefix c.books _
      | unsuback packetId =>
          rw [show after = _ from receives]
          exact (c.books.unsuback_frame packetId env.staleHandle
            env.iteratorAllocated).2.2 ▸ raise_prefix c.books _
      | other =>
          obtain ⟨_, rfl, -⟩ := receives
          exact List.prefix_append ..

/-- What a step has received where it raises the event. -/
def Answers (c : Client) (op : Op) : MQTTEvent → Prop
  | .publishSuccess packetId =>
      ∃ env, op = .cycle env ∧ c.received env = .puback packetId
  | .subscribeSuccess packetId =>
      ∃ env packet, op = .cycle env ∧ c.received env = .suback packet ∧
        packet.packetId = packetId
  | .subscribeNack packetId =>
      ∃ env packet, op = .cycle env ∧ c.received env = .suback packet ∧
        packet.packetId = packetId
  | .unsubscribeSuccess packetId =>
      ∃ env, op = .cycle env ∧ c.received env = .unsuback packetId
  | _ => True

/-- An event that is about no request answers nothing. -/
theorem answers_of_not_isRequestEvent (c : Client) (op : Op)
    {event : MQTTEvent} (other : event.isRequestEvent = false) :
    Answers c op event := by
  cases event <;> trivial

/-- A step raises the events of what it has received, timeouts, and events that
are about no request. -/
theorem Effect.answers {c : Client} {op : Op} {after : Books}
    (effect : Effect c op after) {event : MQTTEvent}
    (raised : event ∈ after.events.drop c.events.length) :
    Answers c op event := by
  have nothing : ∀ {b : Books}, b.events = c.events →
      event ∉ b.events.drop c.events.length := by
    intro b same mem
    rw [same, List.drop_length] at mem
    exact List.not_mem_nil mem
  have others : ∀ {more : List MQTTEvent},
      (∀ event ∈ more, event.isRequestEvent = false) →
      event ∈ (c.events ++ more).drop c.events.length →
      Answers c op event := by
    intro more others mem
    rw [List.drop_left] at mem
    exact answers_of_not_isRequestEvent c op (others event mem)
  cases effect with
  | publish _ tracks => exact absurd raised (nothing tracks.events)
  | subscribe _ tracks _ => exact absurd raised (nothing tracks.events)
  | unsubscribe _ tracks => exact absurd raised (nothing tracks.events)
  | untracked _ none => exact absurd raised (nothing none.events)
  | sweepPub =>
      obtain ⟨info, -, rfl⟩ :=
        List.mem_map.mp (mem_drop_raiseAll c.books raised)
      trivial
  | sweepSub =>
      obtain ⟨info, -, rfl⟩ :=
        List.mem_map.mp (mem_drop_raiseAll c.books raised)
      unfold UIoTSubInfo.timeoutEvent
      split <;> trivial
  | kept _ kept =>
      obtain ⟨more, rfl, rest⟩ := kept
      exact others rest raised
  | @cycle env _ receives =>
      generalize received_eq : c.received env = received at receives
      cases received with
      | puback packetId =>
          rw [show after = _ from receives] at raised
          cases mem_drop_raise c.books raised
          exact ⟨env, rfl, received_eq⟩
      | suback packet =>
          rw [show after = _ from receives] at raised
          rcases c.books.suback_events packet env.iteratorAllocated with
            events | events | events
          · exact absurd raised (nothing events)
          · rw [events] at raised
            cases mem_drop_raise c.books raised
            exact ⟨env, packet, rfl, received_eq, rfl⟩
          · rw [events] at raised
            cases mem_drop_raise c.books raised
            exact ⟨env, packet, rfl, received_eq, rfl⟩
      | unsuback packetId =>
          rw [show after = _ from receives, (c.books.unsuback_frame packetId
            env.staleHandle env.iteratorAllocated).2.2] at raised
          cases mem_drop_raise c.books raised
          exact ⟨env, rfl, received_eq⟩
      | other =>
          obtain ⟨more, rfl, rest⟩ := receives
          exact others rest raised

end Books

/-- The events raised from one state of a run to a later one. -/
def Client.raisedUntil (earlier later : Client) : List MQTTEvent :=
  later.events.drop earlier.events.length

section Outcomes

variable {ι : Type} (outcome : MQTTEvent → Option ι)

/-- Events without an outcome leave the outcomes as they are. -/
theorem Books.filterMap_append_of_none (events : List MQTTEvent)
    {more : List MQTTEvent} (others : ∀ event ∈ more, outcome event = none) :
    (events ++ more).filterMap outcome = events.filterMap outcome := by
  rw [List.filterMap_append, List.filterMap_eq_nil_iff.mpr others,
    List.append_nil]

theorem Books.filterMap_raise (b : Books) {event : MQTTEvent}
    (other : outcome event = none) :
    (b.raise event).events.filterMap outcome = b.events.filterMap outcome := by
  unfold raise
  dsimp only
  split
  · exact filterMap_append_of_none outcome b.events (by simpa using other)
  · rfl

/-- The outcomes recorded since an earlier state are those of the events raised
since then. -/
theorem Client.count_drop_filterMap [DecidableEq ι] {earlier later : Client}
    (isPrefix : earlier.events <+: later.events) (name : ι) :
    ((later.events.filterMap outcome).drop
        (earlier.events.filterMap outcome).length).count name =
      (earlier.raisedUntil later).countP
        fun event => outcome event == some name := by
  obtain ⟨more, events⟩ := isPrefix
  unfold Client.raisedUntil
  rw [← events, List.drop_left, List.filterMap_append, List.drop_left,
    List.count_filterMap]

end Outcomes

/-! ## Functions that leave the books alone -/

theorem sendConnect_books (c : Client) (options : MQTTConnectParams)
    (env : ConnectEnv) : (sendConnect c options env).1.books = c.books := by
  unfold sendConnect
  dsimp only
  split
  · rfl
  split
  · rfl
  · exact sendMqttPacket_books ..

theorem acceptConnection_books (c : Client) :
    (acceptConnection c).1.books = c.books := by
  unfold acceptConnection
  split
  · rfl
  split <;> rfl

theorem acceptConnection_kept (c : Client) :
    c.books.Kept (acceptConnection c).1.books :=
  .of_eq (acceptConnection_books c)

theorem sendDisconnect_books (c : Client) (writes : List WriteOutcome) :
    (sendDisconnect c writes).books = c.books := by
  unfold sendDisconnect
  dsimp only
  split
  · rfl
  · exact sendMqttPacket_books ..

theorem uiotMqttDisconnect_books (c : Client) (writes : List WriteOutcome) :
    (uiotMqttDisconnect c writes).1.books = c.books := by
  unfold uiotMqttDisconnect
  split
  · rfl
  · exact sendDisconnect_books c writes

theorem handleDisconnect_kept (c : Client) (writes : List WriteOutcome) :
    c.books.Kept (handleDisconnect c writes).1.books := by
  unfold handleDisconnect
  split
  · exact .refl _
  · have books := uiotMqttDisconnect_books c writes
    have raised : c.books.Kept (c.books.raise .disconnect) :=
      Books.Kept.raise _ rfl
    rw [← books] at raised ⊢
    exact raised

theorem sendPing_books (len : Nat) (pings : Fin 4 → List WriteOutcome)
    (attempts : List (Fin 4)) (c : Client) :
    (sendPing len pings attempts c).1.books = c.books := by
  induction attempts generalizing c with
  | nil => rfl
  | cons attempt attempts inductionHypothesis =>
      have books := sendMqttPacket_books c len (pings attempt)
      unfold sendPing
      split
      · rename_i sent
        rw [sent] at books
        exact books
      · rename_i sent
        rw [sent] at books
        exact (inductionHypothesis _).trans books

theorem mqttKeepAlive_kept (c : Client) (env : YieldEnv) :
    c.books.Kept (mqttKeepAlive c env).1.books := by
  unfold mqttKeepAlive
  split
  · exact .refl _
  split
  · exact .refl _
  split
  · exact handleDisconnect_kept c env.disconnectWrites
  dsimp only
  split
  · exact .refl _
  rename_i writeBuf len _
  have books := sendPing_books len env.pings (List.finRange 4)
    { c.lock .writeBuf with writeBuf }
  split
  · rename_i sent
    rw [sent] at books
    exact .of_eq books
  · rename_i next _ _ sent
    rw [sent] at books
    have kept : c.books.Kept (next.unlock .writeBuf).books := .of_eq books
    exact kept.trans (handleDisconnect_kept ..)

theorem endPass_books (c : Client) (ret : IoTError) :
    (endPass c ret).1.books = c.books := by
  unfold endPass
  split
  · dsimp only
    split <;> rfl
  split <;> rfl

theorem afterAttempt_kept (c : Client) (ret : IoTError) :
    c.books.Kept (afterAttempt c ret).1.books := by
  unfold afterAttempt
  split
  · exact Books.Kept.raise _ rfl
  · exact .refl _

/-! ## A connected client -/

/-- What a cycle gets when a packet with a short body arrives. -/
def arriving (packet : List UInt8) : CycleEnv where
  net := ⟨packet, [.bytes 1, .bytes 1, .bytes packet.length]⟩
  elapsed := 0
  writes := []
  iteratorAllocated := true
  staleHandle := .zero
  beforeTopic := 0
  behindTopic := []

/-- What a request gets when nothing is in its way. -/
def unhindered : RequestEnv where
  storedAllocated := true
  infoAllocated := true
  nodeAllocated := true
  writes := [.accepted uiotMqttTxBufLen]
  staleQos := .qos0

/-- The first slot. -/
def firstSlot : Fin maxSubTopics := ⟨0, by decide⟩

/-- `"a"` -/
def textA : CString := ⟨[97], CString.zero_not_mem_a⟩

/-- `"b"` -/
def textB : CString := ⟨[98], CString.zero_not_mem_b⟩

/-- Options with a client identifier and a keep-alive interval. -/
def plainOptions : MQTTConnectParams :=
  ⟨some textA, none, none, 4, 60, 1, 1⟩

/-- The steps of `uiot_mqtt_connect` when the server accepts. -/
def connecting : List Op :=
  [.other
      (fun c => (sendConnect c plainOptions
        ⟨.successRet, [.accepted uiotMqttTxBufLen], []⟩).1)
      fun c => .of_eq (sendConnect_books c _ _),
    .cycle (arriving [0x20, 2, 0, 0]),
    .other (fun c => (acceptConnection c).1) acceptConnection_kept]

end Mqtt
end UIoT
