import UIoT.Mqtt.Runs

/-!
# Matching acknowledgements

A SUBACK or UNSUBACK should act only for a request of its kind that still
waits.  The handlers look for the packet identifier alone: they take a node of
the other kind, or one that has been answered, for the request, and an UNSUBACK
reports success whatever was found.
-/

namespace UIoT
namespace Mqtt

/-! ## The property -/

/-- The events that report an error. -/
def MQTTEvent.isError : MQTTEvent → Bool
  | disconnect => true
  | subscribeTimeout _ => true
  | subscribeNack _ => true
  | unsubscribeTimeout _ => true
  | publishTimeout _ => true
  | _ => false

namespace Books

/-- A request of this type waits under the identifier. -/
def Awaits (b : Books) (packetId : UInt16) (type : MessageTypes) : Prop :=
  ∃ info ∈ b.listSubWaitAck,
    info.nodeState = .normal ∧ info.msgId = packetId ∧ info.type = type

/-- The slots, the nodes and the ownership of the filters are what they were,
and no event but an error has been raised. -/
structure Untouched (b after : Books) : Prop where
  subHandles : after.subHandles = b.subHandles
  listSubWaitAck : after.listSubWaitAck = b.listSubWaitAck
  freed : after.freed = b.freed
  events : ∃ more, after.events = b.events ++ more ∧
    ∀ event ∈ more, event.isError = true

end Books

/-- An acknowledgement that a step receives is for a request of its kind that
waits, or nothing happens. -/
def AckMatched (c : Client) : Op → Prop
  | .cycle env =>
      match c.received env with
      | .suback packet =>
          c.books.Awaits packet.packetId .subscribe ∨
            c.books.Untouched (c.step (.cycle env)).books
      | .unsuback packetId =>
          c.books.Awaits packetId .unsubscribe ∨
            c.books.Untouched (c.step (.cycle env)).books
      | _ => True
  | _ => True

/-! ## The condition -/

namespace Books

/-- All nodes with the identifier wait. -/
def CarriersWait (b : Books) (packetId : UInt16) : Prop :=
  ∀ info ∈ b.listSubWaitAck, info.msgId = packetId → info.nodeState = .normal

end Books

/-- Where the nodes can be walked, those with the identifier of a SUBACK wait,
and one of them is a subscription unless there is none.  Those with the
identifier of an UNSUBACK wait, and one of them is a cancellation unless there
is none, nobody listens to events and the uninitialised handle holds no
filter. -/
def AckAwaited (c : Client) : Op → Prop
  | .cycle env =>
      match c.received env with
      | .suback packet =>
          env.iteratorAllocated = true →
            c.books.CarriersWait packet.packetId ∧
              (c.books.NoCarrier packet.packetId ∨
                c.books.Awaits packet.packetId .subscribe)
      | .unsuback packetId =>
          (env.iteratorAllocated = true → c.books.CarriersWait packetId) ∧
            (c.books.Awaits packetId .unsubscribe ∨
              (env.iteratorAllocated = true → c.books.NoCarrier packetId) ∧
                c.eventHandler = false ∧ env.staleHandle.topicFilter = none)
      | _ => True
  | _ => True

/-! ## Handing handlers over -/

namespace Books

/-- The handlers handed over are those of the answered nodes, each once. -/
structure HandedOnce (b : Books) : Prop where
  nodup : b.handedOver.Nodup
  lt : ∀ address ∈ b.handedOver, address < b.heapTop
  state_iff : ∀ info ∈ b.listSubWaitAck,
    info.nodeState = .normal ↔ info.address ∉ b.handedOver

/-- The carriers have addresses of their own. -/
theorem HeapOrdered.carriers_nodup {b : Books} (ordered : b.HeapOrdered)
    (packetId : UInt16) :
    ((b.carriers packetId).map UIoTSubInfo.address).Nodup := by
  have reversed : (b.listSubWaitAck.reverse.map UIoTSubInfo.address).Nodup := by
    rw [List.map_reverse]
    exact List.nodup_reverse.mpr ordered.sub_nodup
  exact reversed.sublist (List.filter_sublist.map _)

/-- A node is known by its address. -/
theorem HeapOrdered.eq_of_address {b : Books} (ordered : b.HeapOrdered)
    {first second : UIoTSubInfo} (left : first ∈ b.listSubWaitAck)
    (right : second ∈ b.listSubWaitAck)
    (same : first.address = second.address) : first = second :=
  List.inj_on_of_nodup_map ordered.sub_nodup left right same

/-- Marking hands over no handler twice exactly when the carriers wait. -/
theorem HandedOnce.maskSub_nodup_iff {b : Books} (once : b.HandedOnce)
    (ordered : b.HeapOrdered) (packetId : UInt16) :
    (b.maskSub packetId true).handedOver.Nodup ↔ b.CarriersWait packetId := by
  rw [maskSub_frame]
  dsimp only
  rw [if_pos rfl, List.nodup_append, and_iff_right once.nodup,
    and_iff_right (ordered.carriers_nodup packetId)]
  constructor
  · intro apart info listed carries
    rw [once.state_iff info listed]
    intro handed
    exact apart _ handed _ (List.mem_map_of_mem
      (mem_carriers.mpr ⟨listed, carries⟩)) rfl
  · intro wait old handed new mem same
    obtain ⟨info, carrier, rfl⟩ := List.mem_map.mp mem
    obtain ⟨listed, carries⟩ := mem_carriers.mp carrier
    exact (once.state_iff info listed).mp (wait info listed carries)
      (same ▸ handed)

/-- Marking waiting carriers keeps the record. -/
theorem HandedOnce.maskSub {b : Books} (once : b.HandedOnce)
    (ordered : b.HeapOrdered) (packetId : UInt16) (iteratorAllocated : Bool)
    (nodup : (b.maskSub packetId iteratorAllocated).handedOver.Nodup) :
    (b.maskSub packetId iteratorAllocated).HandedOnce := by
  cases iteratorAllocated with
  | false => exact once
  | true =>
      refine ⟨nodup, ?_, ?_⟩
      · intro address mem
        rcases List.mem_append.mp mem with old | new
        · exact once.lt address old
        · obtain ⟨info, carrier, rfl⟩ := List.mem_map.mp new
          exact ordered.sub_lt info (mem_carriers.mp carrier).1
      · intro info listed
        obtain ⟨old, oldListed, rfl⟩ := List.mem_map.mp listed
        change _ ↔ _ ∉ b.handedOver ++
          (b.carriers packetId).map UIoTSubInfo.address
        rw [UIoTSubInfo.nodeState_mask_iff, UIoTSubInfo.address_mask,
          once.state_iff old oldListed, List.mem_append, not_or]
        refine and_congr_right fun _ => not_congr ?_
        constructor
        · intro carries
          exact List.mem_map_of_mem (mem_carriers.mpr ⟨oldListed, carries⟩)
        · intro mem
          obtain ⟨info, carrier, same⟩ := List.mem_map.mp mem
          obtain ⟨infoListed, carries⟩ := mem_carriers.mp carrier
          rwa [← ordered.eq_of_address infoListed oldListed same]

/-- The record does not depend on slots, events and strings. -/
theorem HandedOnce.congr {b after : Books} (once : b.HandedOnce)
    (handed : after.handedOver = b.handedOver)
    (nodes : after.listSubWaitAck.Sublist b.listSubWaitAck)
    (heap : b.heapTop ≤ after.heapTop) : after.HandedOnce := by
  refine ⟨handed ▸ once.nodup, ?_, ?_⟩
  · intro address mem
    rw [handed] at mem
    exact (once.lt address mem).trans_le heap
  · intro info listed
    rw [handed]
    exact once.state_iff info (nodes.subset listed)

/-- A new node has handed nothing over. -/
theorem HandedOnce.tracksRequest {b after : Books} {info : UIoTSubInfo}
    (once : b.HandedOnce) (tracks : b.TracksRequest after info) :
    after.HandedOnce := by
  have grows : b.heapTop ≤ after.heapTop :=
    tracks.address.1.trans tracks.address.2.le
  refine ⟨tracks.handedOver ▸ once.nodup, ?_, ?_⟩
  · intro address mem
    rw [tracks.handedOver] at mem
    exact (once.lt address mem).trans_le grows
  · intro other listed
    rw [tracks.listSubWaitAck, List.mem_append, List.mem_singleton] at listed
    rw [tracks.handedOver]
    rcases listed with old | rfl
    · exact once.state_iff other old
    · refine iff_of_true tracks.nodeState fun handed => ?_
      exact absurd (once.lt _ handed) (Nat.not_lt.mpr tracks.address.1)

/-! ## Steps -/

theorem suback_handedOver (b : Books) (packet : SubackPacket)
    (iteratorAllocated : Bool) :
    (b.suback packet iteratorAllocated).handedOver =
      (b.maskSub packet.packetId iteratorAllocated).handedOver := by
  obtain ⟨_, _, _, installed⟩ := install_frame
    (b.maskSub packet.packetId iteratorAllocated) packet.packetId
    (b.maskedHandler packet.packetId .zero iteratorAllocated) (subNack packet)
  rw [suback, installed]

/-- A SUBACK keeps the record if it hands over no handler twice. -/
theorem HandedOnce.suback {b : Books} (once : b.HandedOnce)
    (ordered : b.HeapOrdered) (packet : SubackPacket)
    (iteratorAllocated : Bool)
    (nodup : (b.suback packet iteratorAllocated).handedOver.Nodup) :
    (b.suback packet iteratorAllocated).HandedOnce := by
  rw [suback_handedOver] at nodup
  have masked := once.maskSub ordered packet.packetId iteratorAllocated nodup
  obtain ⟨_, _, _, installed⟩ := install_frame
    (b.maskSub packet.packetId iteratorAllocated) packet.packetId
    (b.maskedHandler packet.packetId .zero iteratorAllocated) (subNack packet)
  rw [Books.suback, installed]
  exact ⟨masked.nodup, masked.lt, masked.state_iff⟩

/-- An UNSUBACK keeps the record if it hands over no handler twice. -/
theorem HandedOnce.unsuback {b : Books} (once : b.HandedOnce)
    (ordered : b.HeapOrdered) (packetId : UInt16)
    (staleHandle : SubTopicHandle) (iteratorAllocated : Bool)
    (nodup : (b.unsuback packetId staleHandle
      iteratorAllocated).handedOver.Nodup) :
    (b.unsuback packetId staleHandle iteratorAllocated).HandedOnce := by
  have masked := once.maskSub ordered packetId iteratorAllocated nodup
  exact ⟨masked.nodup, masked.lt, masked.state_iff⟩

/-- Every step keeps the record if it hands over no handler twice. -/
theorem Effect.handedOnce {c : Client} {op : Op} {after : Books}
    (effect : Effect c op after) (ordered : c.books.HeapOrdered)
    (once : c.books.HandedOnce) (nodup : after.handedOver.Nodup) :
    after.HandedOnce := by
  cases effect with
  | publish _ tracks =>
      exact once.congr tracks.handedOver (tracks.listSubWaitAck ▸ .refl _)
        (tracks.address.1.trans tracks.address.2.le)
  | subscribe _ tracks _ => exact once.tracksRequest tracks
  | unsubscribe _ tracks => exact once.tracksRequest tracks
  | untracked _ nothing =>
      exact once.congr nothing.handedOver
        (nothing.listSubWaitAck ordered ▸ .refl _) nothing.heapTop
  | sweepPub => exact once.congr rfl (.refl _) (Nat.le_refl _)
  | sweepSub => exact once.congr rfl List.filter_sublist (Nat.le_refl _)
  | kept _ kept =>
      obtain ⟨_, rfl, -⟩ := kept
      exact once.congr rfl (.refl _) (Nat.le_refl _)
  | @cycle env _ receives =>
      generalize c.received env = received at receives
      cases received with
      | puback packetId =>
          rw [show after = _ from receives]
          exact once.congr rfl (.refl _) (Nat.le_refl _)
      | suback packet =>
          rw [show after = _ from receives] at nodup ⊢
          exact once.suback ordered packet env.iteratorAllocated nodup
      | unsuback packetId =>
          rw [show after = _ from receives] at nodup ⊢
          exact once.unsuback ordered packetId env.staleHandle
            env.iteratorAllocated nodup
      | other =>
          obtain ⟨_, rfl, -⟩ := receives
          exact once.congr rfl (.refl _) (Nat.le_refl _)

/-- Only packets make handlers change hands. -/
theorem Effect.handedOver {c : Client} {op : Op} {after : Books}
    (effect : Effect c op after) (others : ∀ env, op ≠ .cycle env) :
    after.handedOver = c.handedOver := by
  cases effect with
  | publish _ tracks => exact tracks.handedOver
  | subscribe _ tracks _ => exact tracks.handedOver
  | unsubscribe _ tracks => exact tracks.handedOver
  | untracked _ nothing => exact nothing.handedOver
  | sweepPub => rfl
  | sweepSub => rfl
  | kept _ kept =>
      obtain ⟨_, rfl, -⟩ := kept
      rfl
  | cycle _ => exact absurd rfl (others _)

/-! ## When nothing happens -/

theorem Untouched.refl (b : Books) : b.Untouched b :=
  ⟨rfl, rfl, rfl, [], by simp, by simp⟩

/-- Among waiting carriers the nodes stay as they were only if there is
none. -/
theorem maskSub_listSubWaitAck_iff {b : Books} {packetId : UInt16}
    {iteratorAllocated : Bool}
    (wait : iteratorAllocated = true → b.CarriersWait packetId) :
    (b.maskSub packetId iteratorAllocated).listSubWaitAck =
        b.listSubWaitAck ↔
      (iteratorAllocated = true → b.NoCarrier packetId) := by
  constructor
  · rintro same rfl info listed carries
    have masked : b.listSubWaitAck.map (UIoTSubInfo.mask packetId) =
        b.listSubWaitAck.map id := same.trans (List.map_id _).symm
    have unmarked : info.mask packetId = info :=
      List.map_inj_left.mp masked info listed
    have waits := wait rfl info listed carries
    rw [← unmarked, UIoTSubInfo.nodeState_mask_iff] at waits
    exact waits.2 carries
  · intro none
    rw [(maskSub_of_noCarrier none).1]

/-- A SUBACK is for a request that waits, or does nothing, and hands over no
handler twice. -/
theorem HandedOnce.suback_matched_iff {b : Books} (once : b.HandedOnce)
    (ordered : b.HeapOrdered) (packet : SubackPacket)
    (iteratorAllocated : Bool) :
    (b.Awaits packet.packetId .subscribe ∨
          b.Untouched (b.suback packet iteratorAllocated)) ∧
        (b.suback packet iteratorAllocated).handedOver.Nodup ↔
      (iteratorAllocated = true →
        b.CarriersWait packet.packetId ∧
          (b.NoCarrier packet.packetId ∨
            b.Awaits packet.packetId .subscribe)) := by
  have unchanged : (iteratorAllocated = true → b.NoCarrier packet.packetId) →
      b.suback packet iteratorAllocated = b := by
    intro none
    obtain ⟨masked, handler⟩ := maskSub_of_noCarrier none
    rw [Books.suback, masked, handler]
    exact b.install_of_none rfl ..
  cases iteratorAllocated with
  | false =>
      rw [unchanged (by simp)]
      exact iff_of_true ⟨.inr (.refl b), once.nodup⟩ (by simp)
  | true =>
      rw [suback_handedOver, once.maskSub_nodup_iff ordered,
        forall_prop_of_true rfl, and_comm]
      refine and_congr_right fun wait => ?_
      constructor
      · rintro (awaited | untouched)
        · exact .inr awaited
        · have nodes := untouched.listSubWaitAck
          rw [suback_listSubWaitAck] at nodes
          exact .inl ((maskSub_listSubWaitAck_iff fun _ => wait).mp nodes rfl)
      · rintro (none | awaited)
        · rw [unchanged fun _ => none]
          exact .inr (.refl b)
        · exact .inl awaited

/-- An UNSUBACK does nothing only if there is no carrier, nobody listens and
the handle that nothing fills holds no filter. -/
theorem unsuback_untouched_iff {b : Books} {packetId : UInt16}
    {staleHandle : SubTopicHandle} {iteratorAllocated : Bool}
    (wait : iteratorAllocated = true → b.CarriersWait packetId) :
    b.Untouched (b.unsuback packetId staleHandle iteratorAllocated) ↔
      (iteratorAllocated = true → b.NoCarrier packetId) ∧
        b.eventHandler = false ∧ staleHandle.topicFilter = none := by
  constructor
  · intro untouched
    have none := (maskSub_listSubWaitAck_iff wait).mp untouched.listSubWaitAck
    obtain ⟨masked, handler⟩ := maskSub_of_noCarrier none
    have freed := untouched.freed
    obtain ⟨more, events, errors⟩ := untouched.events
    rw [unsuback, masked, handler] at freed events
    refine ⟨none, ?_, ?_⟩
    · by_contra listens
      rw [Bool.not_eq_false] at listens
      have raised : more = [.unsubscribeSuccess packetId] := by
        simpa [raise, free, listens] using events.symm
      simp [raised, MQTTEvent.isError] at errors
    · simpa [free] using freed
  · rintro ⟨none, silent, missing⟩
    obtain ⟨masked, handler⟩ := maskSub_of_noCarrier none
    rw [unsuback, masked, handler]
    refine ⟨rfl, rfl, ?_, [], ?_, by simp⟩
    · simp [free, missing]
    · simp [raise, free, silent]

/-- An UNSUBACK is for a request that waits, or does nothing, and hands over no
handler twice. -/
theorem HandedOnce.unsuback_matched_iff {b : Books} (once : b.HandedOnce)
    (ordered : b.HeapOrdered) (packetId : UInt16)
    (staleHandle : SubTopicHandle) (iteratorAllocated : Bool) :
    (b.Awaits packetId .unsubscribe ∨
          b.Untouched (b.unsuback packetId staleHandle iteratorAllocated)) ∧
        (b.unsuback packetId staleHandle iteratorAllocated).handedOver.Nodup ↔
      (iteratorAllocated = true → b.CarriersWait packetId) ∧
        (b.Awaits packetId .unsubscribe ∨
          (iteratorAllocated = true → b.NoCarrier packetId) ∧
            b.eventHandler = false ∧ staleHandle.topicFilter = none) := by
  have nodup_iff : (b.unsuback packetId staleHandle
      iteratorAllocated).handedOver.Nodup ↔
        (iteratorAllocated = true → b.CarriersWait packetId) := by
    cases iteratorAllocated with
    | false => exact iff_of_true once.nodup (by simp)
    | true =>
        rw [forall_prop_of_true rfl]
        exact once.maskSub_nodup_iff ordered packetId
  rw [nodup_iff, and_comm]
  exact and_congr_right fun wait => or_congr_right (unsuback_untouched_iff wait)

end Books

/-- A step is matched and hands over no handler twice exactly when what it
acknowledges is awaited. -/
theorem Client.ackMatched_iff (c : Client) (op : Op)
    (ordered : c.books.HeapOrdered) (once : c.books.HandedOnce) :
    AckMatched c op ∧ (c.step op).handedOver.Nodup ↔ AckAwaited c op := by
  have same : (c.step op).books.handedOver = (c.step op).handedOver := rfl
  have effect := c.step_effect op ordered
  rw [← same]
  unfold AckMatched AckAwaited
  cases op with
  | cycle env =>
      have receives := cycleForRead_receives c 0 env
      change c.books.Receives (c.step (.cycle env)).books env _ at receives
      dsimp only
      generalize (c.step (.cycle env)).books = after at receives ⊢
      generalize c.received env = received at receives ⊢
      cases received with
      | puback packetId =>
          rw [show after = _ from receives]
          exact iff_of_true ⟨trivial, once.nodup⟩ trivial
      | suback packet =>
          rw [show after = _ from receives]
          exact once.suback_matched_iff ordered packet env.iteratorAllocated
      | unsuback packetId =>
          rw [show after = _ from receives]
          exact once.unsuback_matched_iff ordered packetId env.staleHandle
            env.iteratorAllocated
      | other =>
          obtain ⟨_, rfl, -⟩ := receives
          exact iff_of_true ⟨trivial, once.nodup⟩ trivial
  | _ =>
      refine iff_of_true ⟨trivial, ?_⟩ trivial
      rw [effect.handedOver (by simp)]
      exact once.nodup

/-- In a run every acknowledgement is for a request of its kind that waits or
does nothing, and no handler is handed over twice, if and only if every
acknowledgement is awaited. -/
theorem run_ackMatched_iff (params : MQTTInitParams) (clock : Nat)
    (labels : List Op) :
    Machine.Along Client.step
        (fun c op => AckMatched c op ∧ (c.step op).handedOver.Nodup)
        (uiotMqttInit params clock) labels ↔
      Machine.Along Client.step AckAwaited (uiotMqttInit params clock)
        labels := by
  apply Machine.Along.iff_of_invariant
    fun c : Client => c.books.HeapOrdered ∧ c.books.HandedOnce
  · exact fun c op ⟨ordered, once⟩ => c.ackMatched_iff op ordered once
  · intro c op ⟨ordered, once⟩ ⟨_, nodup⟩
    exact ⟨c.step_heapOrdered op ordered,
      (c.step_effect op ordered).handedOnce ordered once nodup⟩
  · exact ⟨uiotMqttInit_heapOrdered params clock, List.nodup_nil,
      by simp [uiotMqttInit, Client.books], by simp [uiotMqttInit, Client.books]⟩

/-- A server that sends an UNSUBACK nobody asked for. -/
def unsolicited : CycleEnv := arriving [0xB0, 2, 0, 5]

/-- A connected client takes it for the success of a request. -/
theorem unsolicitedUnsuback_raisesSuccess :
    ¬∀ labels, Machine.Along Client.step
      (fun c op => AckMatched c op ∧ (c.step op).handedOver.Nodup)
      (uiotMqttInit ⟨2000, true⟩ 0) labels := by
  intro matched
  let c := Machine.run Client.step (uiotMqttInit ⟨2000, true⟩ 0) connecting
  obtain ⟨⟨acked, -⟩, -⟩ := ((Machine.Along.append_iff ..).mp
    (matched (connecting ++ [.cycle unsolicited]))).2
  have received : c.received unsolicited = .unsuback 5 := by decide
  change AckMatched c _ at acked
  rw [AckMatched, received] at acked
  rcases acked with ⟨info, listed, -⟩ | untouched
  · have none : c.books.listSubWaitAck = [] := by decide
    rw [none] at listed
    exact List.not_mem_nil listed
  · obtain ⟨more, events, errors⟩ := untouched.events
    have before : c.books.events = [] := by decide
    have raised : (c.step (.cycle unsolicited)).books.events =
        [.unsubscribeSuccess 5] := by decide
    rw [before, raised, List.nil_append] at events
    rw [← events] at errors
    simp [MQTTEvent.isError] at errors

end Mqtt
end UIoT
